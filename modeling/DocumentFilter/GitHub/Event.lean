import DocumentFilter.Config.Integer
import DocumentFilter.Config.Timestamp

/-!
# Events

What a source yields: a pull request, a comment or an issue event, in one form for all
three, together with the document that it was read from.

* `DocumentFilter.GitHub.Event`: the form;
* `DocumentFilter.GitHub.Event.document`: an event as it is printed.
-/

namespace DocumentFilter.GitHub

/-- What an event was read from. -/
inductive EventKind
  | pullRequest
  | comment
  | issueEvent
deriving DecidableEq

namespace EventKind

/-- The word for a kind. -/
def name : EventKind → String
  | .pullRequest => "pr"
  | .comment => "pr_comment"
  | .issueEvent => "pr_event"

/-- The kind that a word names. -/
def ofName? (word : String) : Option EventKind :=
  [pullRequest, comment, issueEvent].find? fun kind => kind.name = word

/-- The kind that a value names. -/
def ofValue : Value → Checked EventKind
  | .string word =>
    match ofName? word with
    | some kind => .ok kind
    | none => Checked.fault .wordUnknown
  | _ => Checked.fault .wordUnknown

end EventKind

/-- **An event.** -/
structure Event where
  kind : EventKind
  id : String
  parent : Option String
  name : String
  link : Option String
  date : Option Timestamp
  priority : Int
  raw : Document

namespace Event

/-- A text that may be missing or null. -/
def textField (name : String) (entries : List (Value × Value)) : Checked (Option String) :=
  Check.fieldOr none name (Check.nullable Check.text) entries

/-- The event that a document describes. -/
def ofDocument (doc : Document) : Checked Event := do
  let entries ← Check.mapping (Value.ofDocument doc)
  let (kind, id, parent, name, link, date, priority) ←
    Checked.both (Check.field "kind" EventKind.ofValue entries) <|
      Checked.both (Check.field "id" Check.text entries) <|
        Checked.both (textField "parent_event_id" entries) <|
          Checked.both (Check.field "name" Check.text entries) <|
            Checked.both (textField "link" entries) <|
              Checked.both
                (Check.fieldOr none "date" (Check.nullable Check.timestamp) entries)
                (Check.fieldOr 0 "priority" Check.integer entries)
  return ⟨kind, id, parent, name, link, date, priority, (doc.field? "raw_data").getD .null⟩

mutual

/-- A document in which the numbers without digits are null. -/
def plainDocument : Document → Document
  | .number n => if n.hasDigits then .number n else .null
  | .array items => .array (plainItems items)
  | .object fields => .object (plainFields fields)
  | doc => doc

/-- The items of an array. -/
def plainItems : List Document → List Document
  | [] => []
  | item :: rest => plainDocument item :: plainItems rest

/-- The fields of an object. -/
def plainFields : List (String × Document) → List (String × Document)
  | [] => []
  | field :: rest => plainField field :: plainFields rest

/-- A field of an object. -/
def plainField : String × Document → String × Document
  | (name, value) => (name, plainDocument value)

end

/-- A text, or null. -/
def textOrNull (text : Option String) : Document :=
  (text.map .string).getD .null

/-- **An event as it is printed.** -/
def document (event : Event) : Document :=
  .object [
    ("kind", .string event.kind.name),
    ("id", .string event.id),
    ("parent_event_id", textOrNull event.parent),
    ("name", .string event.name),
    ("link", textOrNull event.link),
    ("date", textOrNull (event.date.map Timestamp.payloadText)),
    ("priority", .number (.int event.priority)),
    ("raw_data", plainDocument event.raw)]

end Event

end DocumentFilter.GitHub
