import DocumentFilter.CommandLine.Feed
import DocumentFilter.Proofs.Document.RoundTrip
import DocumentFilter.Proofs.Text.Utf8

/-!
# The records of an input

Reading an input goes through blocks of bytes, characters and lines, and counts lines on its way.
What comes out of it is said here without a count: the lines of the input are split at the first
one that is not JSON, if there is any, and every line before it is blank or holds a record
(`DocumentFilter.CommandLine.Records`, `DocumentFilter.CommandLine.StopsAt`). The number of the
line is then the number of lines before it and one more, so it counts the blank ones.

An input may also end early since a line holds an integer that is too long
(`DocumentFilter.CommandLine.FailsAt` is the first line that is not read, for either reason). Lines
in which there is none are the only ones about which the two relations say everything
(`DocumentFilter.CommandLine.records_or_stopsAt`); lines in which there are never so many digits in
a row are among them (`DocumentFilter.CommandLine.moderate_of_short`).

What is printed for records is again the text of an input, one that has no blank lines, and its
records are those that were printed. This needs of the records that a text can denote them, as is
true of all that come out of an input.

* `DocumentFilter.CommandLine.feed_of_records`, `DocumentFilter.CommandLine.feed_of_stopsAt`: **what
  comes out of an input**;
* `DocumentFilter.CommandLine.feed_printed`: **records that are printed are read back**.
-/

namespace DocumentFilter.CommandLine

variable [StandIns]

/-- A line with nothing to read on it. -/
def IsBlankLine (line : List Char) : Prop :=
  ∀ c ∈ line, Text.isBlank c = true

/-- **The records of lines**: a blank line holds none, and any other one holds the document that it
denotes when it is stripped. -/
inductive Records : List (List Char) → List Document → Prop
  | nil : Records [] []
  | blank {line : List Char} {lines : List (List Char)} {docs : List Document}
      (blank : IsBlankLine line) (next : Records lines docs) : Records (line :: lines) docs
  | record {line : List Char} {lines : List (List Char)} {doc : Document} {docs : List Document}
      (read : Json.document (Text.strip line) = .ok doc) (next : Records lines docs) :
      Records (line :: lines) (doc :: docs)

/-- **The first line that is not JSON**, by its number and its flaw, and the records before it. -/
def StopsAt (lines : List (List Char)) (docs : List Document) (number : Nat) (flaw : Json.Flaw) :
    Prop :=
  ∃ before line after left, lines = before ++ line :: after ∧ Records before docs ∧
    number = before.length + 1 ∧ ¬IsBlankLine line ∧
      Json.document (Text.strip line) = .error (.flaw flaw left)

/-- **The first line that is not read**, by its number and why, and the records before it. -/
def FailsAt (lines : List (List Char)) (docs : List Document) (number : Nat) (stop : Json.Stop) :
    Prop :=
  ∃ before line after, lines = before ++ line :: after ∧ Records before docs ∧
    number = before.length + 1 ∧ ¬IsBlankLine line ∧
      Json.document (Text.strip line) = .error stop

theorem stopsAt_iff {lines : List (List Char)} {docs : List Document} {number : Nat}
    {flaw : Json.Flaw} :
    StopsAt lines docs number flaw ↔ ∃ left, FailsAt lines docs number (.flaw flaw left) := by
  constructor
  · rintro ⟨before, line, after, left, rest⟩
    exact ⟨left, before, line, after, rest⟩
  · rintro ⟨left, before, line, after, rest⟩
    exact ⟨before, line, after, left, rest⟩

/-- What ends an input at the line of the given number. -/
def lineFault (number : Nat) : Json.Stop → FeedFault
  | .flaw flaw _ => .malformed number flaw
  | .oversized _ => .oversized

/-- Lines on which no integer has too many digits. -/
def Moderate (lines : List (List Char)) : Prop :=
  ∀ line ∈ lines, ∀ digits, Json.document (Text.strip line) ≠ .error (.oversized digits)

/-! ### Lines, one after the other -/

/-- A blank line is not JSON. -/
theorem solid_of_document {line : List Char} {doc : Document}
    (read : Json.document (Text.strip line) = .ok doc) : ¬IsBlankLine line := by
  intro blank
  rw [Text.strip_eq_nil_iff.2 blank] at read
  cases read

section Steps

variable (whole : Bool) (number : Nat) {line : List Char} (rest : List (List Char))

theorem feedFrom_blank (blank : IsBlankLine line) :
    feedFrom whole number (line :: rest) = feedFrom whole (number + 1) rest := by
  rw [feedFrom, Text.strip_eq_nil_iff.2 blank]

theorem feedFrom_record {doc : Document} (read : Json.document (Text.strip line) = .ok doc) :
    feedFrom whole number (line :: rest) =
      ⟨doc :: (feedFrom whole (number + 1) rest).documents,
        (feedFrom whole (number + 1) rest).fault⟩ := by
  obtain ⟨c, text, shape⟩ :=
    List.exists_cons_of_ne_nil (mt Text.strip_eq_nil_iff.1 (solid_of_document read))
  rw [shape] at read
  simp only [feedFrom, shape, read]

theorem feedFrom_stop (solid : ¬IsBlankLine line) {stop : Json.Stop}
    (fails : Json.document (Text.strip line) = .error stop) :
    feedFrom whole number (line :: rest) = ⟨[], some (lineFault number stop)⟩ := by
  obtain ⟨c, text, shape⟩ := List.exists_cons_of_ne_nil (mt Text.strip_eq_nil_iff.1 solid)
  rw [shape] at fails
  cases stop with
  | flaw => simp only [feedFrom, shape, fails, lineFault]
  | oversized => simp only [feedFrom, shape, fails, lineFault]

end Steps

/-- **The lines before a given one** give their records and are counted. -/
theorem feedFrom_append {before : List (List Char)} {docs : List Document}
    (records : Records before docs) (whole : Bool) (number : Nat) (after : List (List Char)) :
    feedFrom whole number (before ++ after) =
      ⟨docs ++ (feedFrom whole (number + before.length) after).documents,
        (feedFrom whole (number + before.length) after).fault⟩ := by
  induction records generalizing number with
  | nil => rfl
  | @blank line lines docs blank _ ih =>
    rw [List.cons_append, feedFrom_blank whole number _ blank, ih, List.length_cons,
      Nat.add_right_comm, Nat.add_assoc]
  | @record line lines doc docs read _ ih =>
    rw [List.cons_append, feedFrom_record whole number _ read, ih, List.length_cons,
      Nat.add_right_comm, Nat.add_assoc, List.cons_append]

theorem feedFrom_of_records {lines : List (List Char)} {docs : List Document}
    (records : Records lines docs) (whole : Bool) (number : Nat) :
    feedFrom whole number lines = ⟨docs, if whole then none else some .notUtf8⟩ := by
  have all := feedFrom_append records whole number []
  rwa [List.append_nil, feedFrom, List.append_nil] at all

theorem feedFrom_of_failsAt {lines : List (List Char)} {docs : List Document} {number : Nat}
    {stop : Json.Stop} (fails : FailsAt lines docs number stop) (whole : Bool) :
    feedFrom whole 1 lines = ⟨docs, some (lineFault number stop)⟩ := by
  obtain ⟨before, line, after, rfl, records, rfl, solid, failed⟩ := fails
  rw [feedFrom_append records, feedFrom_stop _ _ _ solid failed, List.append_nil, Nat.add_comm]

theorem FailsAt.blank {line : List Char} {lines : List (List Char)} {docs : List Document}
    {number : Nat} {stop : Json.Stop} (fails : FailsAt lines docs number stop)
    (blank : IsBlankLine line) : FailsAt (line :: lines) docs (number + 1) stop := by
  obtain ⟨before, last, after, rfl, records, rfl, rest⟩ := fails
  exact ⟨line :: before, last, after, rfl, .blank blank records, rfl, rest⟩

theorem FailsAt.record {line : List Char} {lines : List (List Char)} {doc : Document}
    {docs : List Document} {number : Nat} {stop : Json.Stop}
    (fails : FailsAt lines docs number stop)
    (read : Json.document (Text.strip line) = .ok doc) :
    FailsAt (line :: lines) (doc :: docs) (number + 1) stop := by
  obtain ⟨before, last, after, rfl, records, rfl, rest⟩ := fails
  exact ⟨line :: before, last, after, rfl, .record read records, rfl, rest⟩

/-- **All lines are read, or one is the first that is not.** -/
theorem records_or_failsAt (lines : List (List Char)) :
    ∃ docs, Records lines docs ∨ ∃ number stop, FailsAt lines docs number stop := by
  induction lines with
  | nil => exact ⟨[], .inl .nil⟩
  | cons line rest ih =>
    obtain ⟨docs, known⟩ := ih
    by_cases blank : IsBlankLine line
    · refine ⟨docs, known.imp (.blank blank) ?_⟩
      rintro ⟨number, stop, fails⟩
      exact ⟨number + 1, stop, fails.blank blank⟩
    cases read : Json.document (Text.strip line) with
    | ok doc =>
      refine ⟨doc :: docs, known.imp (.record read) ?_⟩
      rintro ⟨number, stop, fails⟩
      exact ⟨number + 1, stop, fails.record read⟩
    | error stop => exact ⟨[], .inr ⟨1, stop, [], line, rest, rfl, .nil, rfl, blank, read⟩⟩

/-- On lines without an integer of too many digits, that line is not JSON. -/
theorem records_or_stopsAt {lines : List (List Char)} (moderate : Moderate lines) :
    ∃ docs, Records lines docs ∨ ∃ number flaw, StopsAt lines docs number flaw := by
  obtain ⟨docs, known⟩ := records_or_failsAt lines
  refine ⟨docs, known.imp_right ?_⟩
  rintro ⟨number, stop, fails⟩
  cases stop with
  | flaw flaw left => exact ⟨number, flaw, stopsAt_iff.2 ⟨left, fails⟩⟩
  | oversized digits =>
    obtain ⟨before, line, after, rfl, -, -, -, long⟩ := fails
    exact absurd long (moderate line (List.mem_append_right _ (List.mem_cons_self ..)) digits)

/-- **No integer has too many digits** where there are never that many digits in a row. -/
theorem moderate_of_short {lines : List (List Char)}
    (short : ∀ line ∈ lines, ¬Json.HasLongRun line) : Moderate lines := by
  intro line mem digits long
  exact short line mem ((Json.hasLongRun_of_document long).mono (Text.strip_infix line))

/-! ### Whole inputs -/

theorem feed_encode (text : String) :
    feed (Utf8.encode text) = feedFrom true 1 (Text.lines text.toList) := by
  have size : blockSize ≠ 0 := by decide
  rw [feed, inputLines, Utf8.decodeBlocks_encode size]

section Inputs

variable {text : String} {lines : List (List Char)} (split : Text.SplitsInto text.toList lines)
  {docs : List Document}
include split

/-- **An input whose lines are all blank or JSON** gives the records of its lines. -/
theorem feed_of_records (records : Records lines docs) :
    feed (Utf8.encode text) = ⟨docs, none⟩ := by
  rw [feed_encode, Text.splitsInto_iff.1 split, feedFrom_of_records records]
  rfl

/-- **An input with a line that is not JSON** gives the records before the first such line, and
its number. -/
theorem feed_of_stopsAt {number : Nat} {flaw : Json.Flaw} (stops : StopsAt lines docs number flaw) :
    feed (Utf8.encode text) = ⟨docs, some (.malformed number flaw)⟩ := by
  obtain ⟨left, fails⟩ := stopsAt_iff.1 stops
  rw [feed_encode, Text.splitsInto_iff.1 split, feedFrom_of_failsAt fails]
  rfl

/-- **The records of an input**, with or without a line that is not JSON. -/
theorem documents_feed
    (known : Records lines docs ∨ ∃ number flaw, StopsAt lines docs number flaw) :
    (feed (Utf8.encode text)).documents = docs := by
  rcases known with records | ⟨number, flaw, stops⟩
  · rw [feed_of_records split records]
  · rw [feed_of_stopsAt split stops]

end Inputs

/-! ### Records that are printed -/

theorem legible_of_feedFrom {whole : Bool} {number : Nat} {lines : List (List Char)} :
    ∀ doc ∈ (feedFrom whole number lines).documents, doc.Legible := by
  induction lines generalizing number with
  | nil => exact fun doc mem => absurd mem List.not_mem_nil
  | cons line rest ih =>
    by_cases blank : IsBlankLine line
    · rw [feedFrom_blank _ _ _ blank]
      exact ih
    cases read : Json.document (Text.strip line) with
    | ok doc =>
      rw [feedFrom_record _ _ _ read]
      exact List.forall_mem_cons.2 ⟨Json.legible_of_document read, ih⟩
    | error stop =>
      rw [feedFrom_stop _ _ _ blank read]
      exact fun doc mem => absurd mem List.not_mem_nil

/-- **Every record of an input is legible**, whatever the bytes. -/
theorem legible_of_feed (bytes : List UInt8) : ∀ doc ∈ (feed bytes).documents, doc.Legible :=
  legible_of_feedFrom

/-- The lines of what is printed hold the records that were printed. -/
theorem records_chars {docs : List Document} (legible : ∀ doc ∈ docs, doc.Legible) :
    Records (docs.map Document.chars) docs := by
  induction docs with
  | nil => exact .nil
  | cons doc rest ih =>
    obtain ⟨first, others⟩ := List.forall_mem_cons.1 legible
    refine .record ?_ (ih others)
    rw [Document.strip_chars, Json.document_chars first]

/-- Several lines as one text, each with a line feed. -/
def printedText (lines : List String) : String :=
  String.ofList (lines.flatMap fun line => line.toList ++ ['\n'])

omit [StandIns] in
/-- Lines that are printed are the lines of the text, if no end of a line is in them. -/
theorem lines_printedText {lines : List String} (isLine : ∀ line ∈ lines, Text.IsLine line.toList) :
    Text.lines (printedText lines).toList = lines.map String.toList := by
  have ended := Text.lines_flatMap (List.forall_mem_map.2 isLine)
  rwa [List.flatMap_map, ← String.toList_ofList (l := lines.flatMap _)] at ended

/-- **Records that are printed are read back**, and nothing else is. -/
theorem feed_printed {docs : List Document} (legible : ∀ doc ∈ docs, doc.Legible) :
    feed (Utf8.encode (printedText (docs.map Document.text))) = ⟨docs, none⟩ := by
  have isLine : ∀ line ∈ docs.map Document.text, Text.IsLine line.toList := by
    exact List.forall_mem_map.2 fun doc _ => doc.isLine_text
  have split : Text.SplitsInto (printedText (docs.map Document.text)).toList
      (docs.map Document.chars) := by
    rw [Text.splitsInto_iff, lines_printedText isLine, List.map_map]
    exact List.map_congr_left fun doc _ => doc.toList_text
  exact feed_of_records split (records_chars legible)

end DocumentFilter.CommandLine
