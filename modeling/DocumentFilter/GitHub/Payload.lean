import DocumentFilter.Config.Integer
import DocumentFilter.Config.Timestamp

/-!
# Payloads

The part of an answer of the GitHub interface that is used: pull requests, comments and
issue events. Fields that are not named here are ignored.

* `DocumentFilter.GitHub.PullRequest.ofDocument` and its likes: a payload from a document.
-/

namespace DocumentFilter.GitHub

/-- A pull request. -/
structure PullRequest where
  number : Int
  htmlUrl : String
  title : String
  body : String
  login : String
  updatedAt : Option Timestamp

/-- A comment on a pull request. -/
structure IssueComment where
  id : Int
  htmlUrl : String
  body : String
  updatedAt : Option Timestamp

/-- An event of a pull request. -/
structure IssueEvent where
  id : Int
  event : String
  createdAt : Option Timestamp

/-- A body, for which anything that counts as nothing may stand. -/
def bodyOf (value : Value) : Checked String :=
  if value.isEmpty then .ok "" else Check.text value

/-- The login of a user. -/
def loginOf (value : Value) : Checked String := do
  Check.field "login" Check.text (← Check.mapping value)

/-- A timestamp that may be missing or null. -/
def timestampField (name : String) (entries : List (Value × Value)) :
    Checked (Option Timestamp) :=
  Check.fieldOr none name (Check.nullable Check.timestamp) entries

/-- The pull request that a document describes. -/
def PullRequest.ofDocument (doc : Document) : Checked PullRequest := do
  let entries ← Check.mapping (Value.ofDocument doc)
  let (number, htmlUrl, title, body, login, updatedAt) ←
    Checked.both (Check.field "number" Check.integer entries) <|
      Checked.both (Check.field "html_url" Check.text entries) <|
        Checked.both (Check.field "title" Check.text entries) <|
          Checked.both (Check.fieldOr "" "body" bodyOf entries) <|
            Checked.both (Check.field "user" loginOf entries)
              (timestampField "updated_at" entries)
  return ⟨number, htmlUrl, title, body, login, updatedAt⟩

/-- The comment that a document describes. -/
def IssueComment.ofDocument (doc : Document) : Checked IssueComment := do
  let entries ← Check.mapping (Value.ofDocument doc)
  let (id, htmlUrl, body, updatedAt) ←
    Checked.both (Check.field "id" Check.integer entries) <|
      Checked.both (Check.field "html_url" Check.text entries) <|
        Checked.both (Check.fieldOr "" "body" bodyOf entries)
          (timestampField "updated_at" entries)
  return ⟨id, htmlUrl, body, updatedAt⟩

/-- The issue event that a document describes. -/
def IssueEvent.ofDocument (doc : Document) : Checked IssueEvent := do
  let entries ← Check.mapping (Value.ofDocument doc)
  let (id, event, createdAt) ←
    Checked.both (Check.field "id" Check.integer entries) <|
      Checked.both (Check.field "event" Check.text entries)
        (timestampField "created_at" entries)
  return ⟨id, event, createdAt⟩

end DocumentFilter.GitHub
