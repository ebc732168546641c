import DocumentFilter.Document.Reader
import DocumentFilter.Text.Blank
import DocumentFilter.Text.Lines
import DocumentFilter.Text.Utf8

/-!
# Documents, one a line

The input of a command holds one JSON text on each line that is not blank. It is decoded
in blocks: where a block is not UTF-8, what comes before it still counts up to the end of
its last line, and nothing after that does. The blocks are those in which a file is read; what is
typed or piped may come in shorter ones.

* `DocumentFilter.CommandLine.feed`: the documents of an input, and what ends them early.
-/

namespace DocumentFilter.CommandLine

variable [StandIns]

/-- What ends an input early. -/
inductive FeedFault
  /-- A line, counted from one, that is not JSON. -/
  | malformed (line : Nat) (flaw : Json.Flaw)
  /-- An integer of too many digits. -/
  | oversized
  /-- Bytes that are not UTF-8. -/
  | notUtf8
deriving DecidableEq

/-- The documents up to the end of an input, or up to a fault. -/
structure Feed where
  documents : List Document
  fault : Option FeedFault

/-- The number of bytes in a block. -/
def blockSize : Nat := 8192

/-- The lines of an input, and whether they are all of it. -/
def inputLines (bytes : List UInt8) : List (List Char) × Bool :=
  match Utf8.decodeBlocks .between (Utf8.blocks blockSize bytes) with
  | (cs, true) => (Text.lines cs, true)
  | (cs, false) => (Text.completeLines cs, false)

/-- The documents of lines, the first of which has the given number. -/
def feedFrom (whole : Bool) (number : Nat) : List (List Char) → Feed
  | [] => ⟨[], if whole then none else some .notUtf8⟩
  | line :: rest =>
    match Text.strip line with
    | [] => feedFrom whole (number + 1) rest
    | text =>
      match Json.document text with
      | .error (.flaw flaw _) => ⟨[], some (.malformed number flaw)⟩
      | .error (.oversized _) => ⟨[], some .oversized⟩
      | .ok doc =>
        let more := feedFrom whole (number + 1) rest
        { more with documents := doc :: more.documents }

/-- **The documents of an input.** -/
def feed (bytes : List UInt8) : Feed :=
  let (lines, whole) := inputLines bytes
  feedFrom whole 1 lines

end DocumentFilter.CommandLine
