import DocumentFilter.Text.Digit

/-!
# Halves of pairs

An escape can name one half of a pair alone. What it denotes then is no character, but a text
may hold it all the same, and so a character has to **stand in** for it.

A stand-in is of private use. No syntax gives it a meaning, it is neither a blank nor a digit,
and the stand-ins of two halves differ: in all of this it is like the half. There is one thing
that it is asked and the half is not. Nothing encodes a half, so a text that holds one cannot be
written, while every character can.

Which characters stand in is left open. What holds for every choice holds for one that keeps
away from the texts at hand (`DocumentFilter.StandIns.exists_avoiding`), and then no character
is taken for a half. A message that quotes a text shows the code point of the stand-in.

* `DocumentFilter.StandIns`: a choice of stand-ins;
* `DocumentFilter.StandIns.avoiding`: one that can be computed and keeps away from a text, if that
  leaves one of 64 blocks.
-/

namespace DocumentFilter

/-- The code point of a half. -/
def Text.isHalf (n : Nat) : Bool := 0xD800 ≤ n && n ≤ 0xDFFF

/-- A character of the last two planes, which are for private use. -/
def Text.isPrivate (c : Char) : Bool := 0xF0000 ≤ c.toNat

/-- **A choice of stand-ins** for halves. -/
class StandIns where
  char : Nat → Char
  half? : Char → Option Nat
  half?_eq_some_iff {c : Char} {n : Nat} : half? c = some n ↔ Text.isHalf n ∧ char n = c
  isPrivate_char {n : Nat} : Text.isHalf n → Text.isPrivate (char n)

namespace StandIns

/-! ### Blocks -/

/-- The first code point of a block: there are 64 in two planes. -/
def blockStart (k : Fin 64) : Nat := 0xF0000 + 0x800 * k

/-- The characters of a block have its code points. -/
theorem toNat_block (k : Fin 64) {n : Nat} (below : n < 0x800) :
    (Char.ofNat (blockStart k + n)).toNat = blockStart k + n := by
  have valid : (blockStart k + n).isValidChar := by
    rw [blockStart]
    exact .inr ⟨by omega, by omega⟩
  rw [Char.ofNat, dif_pos valid]
  rfl

/-- The characters of a block stand in for the halves in order. -/
@[reducible]
def block (k : Fin 64) : StandIns where
  char n := Char.ofNat (blockStart k + (n - 0xD800))
  half? c :=
    if blockStart k ≤ c.toNat ∧ c.toNat < blockStart k + 0x800 then
      some (0xD800 + (c.toNat - blockStart k))
    else none
  half?_eq_some_iff {c n} := by
    simp only [Text.isHalf, Bool.and_eq_true, decide_eq_true_eq]
    constructor
    · intro h
      split at h
      · rename_i within
        cases h
        refine ⟨by omega, ?_⟩
        have same : blockStart k + (0xD800 + (c.toNat - blockStart k) - 0xD800) = c.toNat := by
          omega
        rw [same, Char.ofNat_toNat]
      · cases h
    · rintro ⟨half, rfl⟩
      rw [toNat_block k (by omega), if_pos (by omega)]
      congr 1
      omega
  isPrivate_char {n} half := by
    simp only [Text.isHalf, Bool.and_eq_true, decide_eq_true_eq] at half
    rw [Text.isPrivate, toNat_block k (by omega), blockStart]
    exact decide_eq_true (by omega)

/-- Where nothing else is said, the last block stands in. -/
instance : StandIns := block 63

/-! ### Keeping away from a text -/

/-- The number that hexadecimal digits denote. -/
def hexNumber? (cs : List Char) : Option Nat :=
  (cs.mapM Text.hexDigit?).map fun ds => ds.foldl (fun n d => 16 * n + d) 0

/-- The code points that a text holds, and those that the escapes in it name: `\UXXXXXXXX` one,
and `\uXXXX`, where it is the first half of a pair, the first one of which this is the half. -/
def mentioned : List Char → List Nat
  | [] => []
  | c :: rest =>
    let named :=
      match c, rest with
      | '\\', 'u' :: digits =>
        (hexNumber? (digits.take 4)).map fun high => 0x10000 + (high - 0xD800) * 0x400
      | '\\', 'U' :: digits => hexNumber? (digits.take 8)
      | _, _ => none
    c.toNat :: (named.toList ++ mentioned rest)

/-- Whether a block has none of the given code points. -/
def isFree (codes : List Nat) (k : Fin 64) : Bool :=
  codes.all fun n => n < blockStart k || blockStart k + 0x800 ≤ n

/-- **Stand-ins that a text does not mention**: the first block of such, or the last one where
the text mentions some of each. -/
@[reducible]
def avoiding (cs : List Char) : StandIns :=
  block (((List.finRange 64).find? (isFree (mentioned cs))).getD 63)

/-- A text mentions the characters that it holds. -/
theorem toNat_mem_mentioned {cs : List Char} {c : Char} (mem : c ∈ cs) :
    c.toNat ∈ mentioned cs := by
  induction cs with
  | nil => cases mem
  | cons first rest ih =>
    obtain ⟨named, split⟩ : ∃ named,
        mentioned (first :: rest) = first.toNat :: (named ++ mentioned rest) := ⟨_, rfl⟩
    rw [split]
    rcases List.mem_cons.1 mem with rfl | mem
    · exact List.mem_cons_self
    · exact List.mem_cons_of_mem _ (List.mem_append_right _ (ih mem))

/-- **The computed choice keeps away from a text** that leaves a block. -/
theorem half?_avoiding {cs : List Char} (free : ∃ k, isFree (mentioned cs) k = true) :
    ∀ c ∈ cs, (avoiding cs).half? c = none := by
  obtain ⟨k, found⟩ : ∃ k, (List.finRange 64).find? (isFree (mentioned cs)) = some k := by
    rw [← Option.isSome_iff_exists, List.find?_isSome]
    obtain ⟨k, free⟩ := free
    exact ⟨k, List.mem_finRange k, free⟩
  have clear : isFree (mentioned cs) k = true := List.find?_some found
  rw [isFree, List.all_eq_true] at clear
  intro c mem
  have outside := clear _ (toNat_mem_mentioned mem)
  simp only [Bool.or_eq_true, decide_eq_true_eq] at outside
  rw [avoiding, found, Option.getD_some]
  exact if_neg (by omega)

end StandIns

end DocumentFilter
