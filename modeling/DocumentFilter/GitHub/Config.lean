import DocumentFilter.Config.Filters
import DocumentFilter.Config.Integer

/-!
# What to watch

The configuration of a GitHub source: for each repository the filters that its pull
requests must match, and a priority that is handed on with what they yield.

* `DocumentFilter.GitHub.Config.ofValue`: the configuration that a value describes.
-/

namespace DocumentFilter.GitHub

/-- The pull requests to watch in one repository. -/
structure PullRequestQuery where
  owner : String
  repo : String
  priority : Int
  filters : List Filter

/-- The repositories to watch; there may be no list of them. -/
structure Repositories where
  pullRequest : Option (List PullRequestQuery)

/-- The configuration of a GitHub source. -/
structure Config where
  repositories : Repositories

/-- The pull requests to watch that a value describes. -/
def PullRequestQuery.ofValue (value : Value) : Checked PullRequestQuery := do
  let entries ← Check.mapping value
  let (owner, repo, priority, filters) ←
    Checked.both (Check.field "owner" Check.text entries) <|
      Checked.both (Check.field "repo" Check.text entries) <|
        Checked.both (Check.fieldOr 0 "priority" Check.integer entries)
          (Check.fieldOr [] "filters" (Check.list Filter.ofValue) entries)
  return ⟨owner, repo, priority, filters⟩

/-- The repositories that a value describes. -/
def Repositories.ofValue (value : Value) : Checked Repositories := do
  let entries ← Check.mapping value
  let queries ← Check.fieldOr none "pull_request"
    (Check.nullable (Check.list PullRequestQuery.ofValue)) entries
  return ⟨queries⟩

/-- **The configuration that a value describes.** -/
def Config.ofValue (value : Value) : Checked Config := do
  let entries ← Check.mapping value
  let repositories ← Check.fieldOr ⟨none⟩ "repositories" Repositories.ofValue entries
  return ⟨repositories⟩

/-- The pull requests to watch, of all repositories. -/
def Config.queries (config : Config) : List PullRequestQuery :=
  config.repositories.pullRequest.getD []

end DocumentFilter.GitHub
