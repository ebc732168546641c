/-!
# UTF-8

Bytes are decoded by a machine that reads one byte after the other. Within a character it
knows how many bytes are still to come and between which bounds the next one lies; the
bounds rule out overlong forms and numbers beyond U+10FFFF. Two bytes that can only start a
half of a pair are let pass, but no byte after them is.

* `DocumentFilter.Utf8.step`: what a byte does;
* `DocumentFilter.Utf8.decode?`: the characters of whole bytes;
* `DocumentFilter.Utf8.decodeBlocks`: those of bytes that come in blocks.
-/

namespace DocumentFilter.Utf8

/-- Between two characters; within one, with the bytes still to come, the bounds of the next
of them and the number that the bytes so far make up; or within a half of a pair. -/
inductive State
  | between
  | within (more low high code : Nat)
  | withinHalf
deriving DecidableEq

/-- What the first byte of a character does. -/
def first (b : Nat) : Option (State × List Char) :=
  if b < 0x80 then some (.between, [Char.ofNat b])
  else if b < 0xC2 then none
  else if b < 0xE0 then some (.within 1 0x80 0xBF (b - 0xC0), [])
  else if b < 0xF0 then
    some (.within 2 (if b = 0xE0 then 0xA0 else 0x80) 0xBF (b - 0xE0), [])
  else if b < 0xF5 then
    some (.within 3 (if b = 0xF0 then 0x90 else 0x80) (if b = 0xF4 then 0x8F else 0xBF)
      (b - 0xF0), [])
  else none

/-- With one byte more, the number will be that of a half of a pair. -/
def startsHalf (code : Nat) : Bool :=
  0xD800 ≤ code * 64 && code * 64 ≤ 0xDFFF

/-- **What a byte does**: the state after it and the character that it completes; none
where it cannot stand. -/
def step (state : State) (b : Nat) : Option (State × List Char) :=
  match state with
  | .between => first b
  | .withinHalf => none
  | .within more low high code =>
    if low ≤ b ∧ b ≤ high then
      let code := code * 64 + (b - 0x80)
      if more ≤ 1 then some (.between, [Char.ofNat code])
      else if more = 2 ∧ startsHalf code then some (.withinHalf, [])
      else some (.within (more - 1) 0x80 0xBF code, [])
    else none

/-- What several bytes do. -/
def run (state : State) : List UInt8 → Option (State × List Char)
  | [] => some (state, [])
  | b :: rest =>
    match step state b.toNat with
    | none => none
    | some (state, cs) =>
      match run state rest with
      | none => none
      | some (state, more) => some (state, cs ++ more)

/-- **The characters of bytes**, which must end between two characters. -/
def decode? (bytes : List UInt8) : Option (List Char) :=
  match run .between bytes with
  | some (.between, cs) => some cs
  | _ => none

/-- The characters of the blocks up to the first that cannot be decoded, and whether all
could. -/
def decodeBlocks (state : State) : List (List UInt8) → List Char × Bool
  | [] => ([], state = .between)
  | block :: rest =>
    match run state block with
    | none => ([], false)
    | some (state, cs) =>
      let (more, all) := decodeBlocks state rest
      (cs ++ more, all)

/-- Bytes in blocks of the given size, the last one maybe shorter. -/
def blocks (size : Nat) (bytes : List UInt8) : List (List UInt8) :=
  if size = 0 ∨ bytes = [] then []
  else bytes.take size :: blocks size (bytes.drop size)
termination_by bytes.length
decreasing_by
  rename_i h
  have : bytes.length ≠ 0 := by simp_all
  simp only [List.length_drop]
  omega

end DocumentFilter.Utf8
