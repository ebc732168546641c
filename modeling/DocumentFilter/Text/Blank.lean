/-!
# Blank characters

Blank characters surround the text of a query, a number, a date or an input line and are
removed before it is read. They are the white space of Unicode together with the four
information separators U+001C to U+001F.

* `DocumentFilter.Text.isBlank`: the class of characters;
* `DocumentFilter.Text.strip`: a text without the blanks at its two ends;
* `DocumentFilter.Text.strip_eq_nil_iff`: nothing is left exactly of a text of blanks.
-/

namespace DocumentFilter.Text

/-- White space of any script, or an information separator. -/
def isBlank (c : Char) : Bool :=
  let n := c.toNat
  (0x09 ≤ n && n ≤ 0x0D) || (0x1C ≤ n && n ≤ 0x20) || n == 0x85 || n == 0xA0 || n == 0x1680 ||
  (0x2000 ≤ n && n ≤ 0x200A) || n == 0x2028 || n == 0x2029 || n == 0x202F || n == 0x205F ||
  n == 0x3000

/-- A text without the blanks at its end. -/
def stripRight (cs : List Char) : List Char :=
  (cs.reverse.dropWhile isBlank).reverse

/-- A text without the blanks at its two ends. -/
def strip (cs : List Char) : List Char :=
  stripRight (cs.dropWhile isBlank)

/-- The same on strings. -/
def trim (s : String) : String :=
  String.ofList (strip s.toList)

theorem dropWhile_isBlank_eq_nil_iff {cs : List Char} :
    cs.dropWhile isBlank = [] ↔ ∀ c ∈ cs, isBlank c := by
  induction cs with
  | nil => simp
  | cons c cs ih => by_cases hc : isBlank c <;> simp [hc, ih]

theorem stripRight_eq_nil_iff {cs : List Char} : stripRight cs = [] ↔ ∀ c ∈ cs, isBlank c := by
  rw [stripRight, List.reverse_eq_nil_iff, dropWhile_isBlank_eq_nil_iff]
  simp

/-- **What is blank throughout** leaves nothing, and nothing else does. -/
theorem strip_eq_nil_iff {cs : List Char} : strip cs = [] ↔ ∀ c ∈ cs, isBlank c := by
  induction cs with
  | nil => simp [strip, stripRight]
  | cons c cs ih =>
    by_cases hc : isBlank c
    · simpa [strip, List.dropWhile_cons, hc] using ih
    · simp [strip, stripRight_eq_nil_iff, hc]

end DocumentFilter.Text
