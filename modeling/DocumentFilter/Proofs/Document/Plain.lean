import DocumentFilter.Document.Reader
import DocumentFilter.Document.Text
import DocumentFilter.Proofs.Number.Reading
import Mathlib.Data.Bool.AllAny
import Mathlib.Data.List.TakeWhile

/-!
# Strings and numbers of a JSON text

What is written for a string or for a number is read back, in front of whatever may come next.
For a string that is anything: it ends at its closing quote. A number has no mark at its end, so
it must be followed by something that cannot be part of it; in a JSON text the end, a comma or a
closing bracket follows (`DocumentFilter.Json.Closes`).

The texts of numbers are those of `DocumentFilter.Number.DecimalText`, but this reader asks for
more (`DocumentFilter.Json.Regular`): a zero in front must stand alone, and a point must have a
digit behind it. What is written has both (`DocumentFilter.Json.regular_text`), the first for two
reasons: the digits of a positive number do not start with a zero, and the one digit of zero is
written with the point right behind it.

* `DocumentFilter.Json.string_jsonString`: a string is read back;
* `DocumentFilter.Json.plain_number`: **a number is read back**, if it is an integer of not too many
  digits or a binary64 number.
-/

namespace DocumentFilter

namespace Json

open Decimal (digitChar)
open Number (AreDigits DecimalText signText)

/-! ### Strings -/

/-- The number of a control character is read from its four digits. -/
theorem hex4?_hex {n : Nat} (lt : n < 0x20) :
    ∃ a b c d, Text.hex 4 n = [a, b, c, d] ∧ hex4? a b c d = some n := by
  have all : ∀ n < 0x20, hex4? (Nat.digitChar (n / 16 / 16 / 16 % 16))
      (Nat.digitChar (n / 16 / 16 % 16)) (Nat.digitChar (n / 16 % 16))
      (Nat.digitChar (n % 16)) = some n := by decide
  exact ⟨_, _, _, _, rfl, all n lt⟩

/-- The escape of a control character, in front of something. -/
theorem unicodeEscape_hex [StandIns] {c next : Char} (lt : c.toNat < 0x20) (rest : List Char) :
    unicodeEscape (Text.hex 4 c.toNat ++ next :: rest) = .ok (c, next :: rest) := by
  obtain ⟨w, x, y, z, written, read⟩ := hex4?_hex lt
  have low : isHighHalf c.toNat = false := by
    rw [isHighHalf, Bool.and_eq_false_iff, decide_eq_false_iff_not]
    omega
  have same : scalar c.toNat = c := by
    have whole : ¬Text.isHalf c.toNat := by
      simp only [Text.isHalf, Bool.and_eq_true, decide_eq_true_eq]
      omega
    rw [scalar, if_neg whole, Char.ofNat_toNat]
  simp only [written, List.cons_append, List.nil_append, unicodeEscape, read, low]
  rw [same]
  rfl

/-- **A character of a string is read back**, in front of something. -/
theorem string_jsonChar [StandIns] (start : Nat) (read : List Char) (c next : Char)
    (rest : List Char) :
    string start read (Document.jsonChar c ++ next :: rest) =
      string start (c :: read) (next :: rest) := by
  unfold Document.jsonChar
  split
  · simp [string, escape?]
  · simp [string, escape?]
  · simp [string, escape?]
  · simp [string, escape?]
  · simp [string, escape?]
  · simp [string, escape?]
  · simp [string, escape?]
  · rename_i quote backslash _ _ _ _ _
    split
    · rename_i control
      rw [List.cons_append, List.cons_append, string, unicodeEscape_hex control]
    · rename_i visible
      rw [List.singleton_append, string, if_neg visible]
      · exact quote
      · exact fun same _ => backslash same
      · exact fun _ same _ => backslash same
      · exact fun _ _ same _ => backslash same

/-- **A string is read back** from behind its opening quote, whatever comes after it. -/
theorem string_jsonString [StandIns] (start : Nat) (s : String) (rest : List Char) :
    string start [] (s.toList.flatMap Document.jsonChar ++ '"' :: rest) = .ok (s, rest) := by
  have read : ∀ (cs read : List Char),
      string start read (cs.flatMap Document.jsonChar ++ '"' :: rest) =
        .ok (String.ofList (read.reverse ++ cs), rest) := by
    intro cs
    induction cs with
    | nil =>
      intro read
      rw [List.flatMap_nil, List.nil_append, List.append_nil, string]
    | cons c cs ih =>
      intro read
      -- behind a character there is at least the closing quote
      obtain ⟨next, others, more⟩ :
          ∃ next others, cs.flatMap Document.jsonChar ++ '"' :: rest = next :: others :=
        List.exists_cons_of_ne_nil (List.append_ne_nil_of_right_ne_nil _ (List.cons_ne_nil _ _))
      rw [List.flatMap_cons, List.append_assoc, more, string_jsonChar, ← more, ih,
        List.reverse_cons, List.append_assoc, List.singleton_append]
  rw [read s.toList [], List.reverse_nil, List.nil_append, String.ofList_toList]

/-! ### Digits -/

/-- The digits of a JSON text are those from `0` to `9`. -/
theorem isDigit_iff {c : Char} : isDigit c = true ↔ ∃ d, Text.asciiDigit? c = some d := by
  simp [isDigit, Text.asciiDigit?]

theorem isDigit_digitChar {d : Nat} (lt : d < 10) : isDigit (digitChar d) = true :=
  isDigit_iff.2 ⟨d, Text.asciiDigit?_digitChar lt⟩

/-- A digit is the character of a number below ten. -/
theorem exists_digitChar {c : Char} (digit : isDigit c = true) :
    ∃ d, d < 10 ∧ c = digitChar d := by
  obtain ⟨d, read⟩ := isDigit_iff.1 digit
  obtain ⟨lt, code⟩ := Text.asciiDigit?_eq_some_iff.1 read
  have zero : '0'.toNat = 48 := rfl
  refine ⟨d, lt, ?_⟩
  rw [digitChar, zero, ← code, Char.ofNat_toNat]

theorem exists_areDigits {cs : List Char} (digits : ∀ c ∈ cs, isDigit c = true) :
    ∃ ds, AreDigits ds ∧ cs = ds.map digitChar := by
  induction cs with
  | nil => exact ⟨[], fun _ mem => absurd mem List.not_mem_nil, rfl⟩
  | cons c cs ih =>
    obtain ⟨first, others⟩ := List.forall_mem_cons.1 digits
    obtain ⟨d, lt, rfl⟩ := exists_digitChar first
    obtain ⟨ds, below, rfl⟩ := ih others
    exact ⟨d :: ds, List.forall_mem_cons.2 ⟨lt, below⟩, rfl⟩

/-- The number of digits is the one that they are written for. -/
theorem natOf_map {ds : List Nat} (digits : AreDigits ds) :
    natOf (ds.map digitChar) = Decimal.value ds := by
  have code : ∀ d < 10, (digitChar d).toNat - '0'.toNat = d := by decide
  have read : ∀ n, (ds.map digitChar).foldl (fun n d => 10 * n + (d.toNat - '0'.toNat)) n =
      ds.foldl (fun n d => 10 * n + d) n := by
    induction ds with
    | nil => exact fun _ => rfl
    | cons d ds ih =>
      intro n
      obtain ⟨first, others⟩ := List.forall_mem_cons.1 digits
      rw [List.map_cons, List.foldl_cons, List.foldl_cons, code d first, ih others]
  exact read 0

/-- A text that does not go on with a digit. -/
def Ends (rest : List Char) : Prop :=
  ∀ c tail, rest = c :: tail → isDigit c = false

theorem ends_cons {c : Char} (none : isDigit c = false) (tail : List Char) :
    Ends (c :: tail) := by
  rintro c tail ⟨⟩
  exact none

/-- Digits are read up to where they end. -/
theorem spanDigits_map {ds : List Nat} (digits : AreDigits ds) {rest : List Char}
    (ends : Ends rest) :
    spanDigits (ds.map digitChar ++ rest) = (ds.map digitChar, rest) := by
  have all : ∀ c ∈ ds.map digitChar, isDigit c = true := by
    intro c mem
    obtain ⟨d, d_mem, rfl⟩ := List.mem_map.1 mem
    exact isDigit_digitChar (digits d d_mem)
  have stop : rest.takeWhile isDigit = [] ∧ rest.dropWhile isDigit = rest := by
    cases rest with
    | nil => exact ⟨rfl, rfl⟩
    | cons c tail => simp [ends c tail rfl]
  rw [spanDigits, List.takeWhile_append_of_pos all, List.dropWhile_append_of_pos all, stop.1,
    stop.2, List.append_nil]

/-- **A zero in front stands alone.** -/
def Unpadded (cs : List Char) : Prop :=
  ∀ c rest, cs = '0' :: c :: rest → isDigit c = false

theorem Unpadded.append {cs rest : List Char} (unpadded : Unpadded cs) (ends : Ends rest) :
    Unpadded (cs ++ rest) := by
  intro c tail shape
  rcases cs with _ | ⟨a, _ | ⟨b, cs⟩⟩
  · exact absurd (ends '0' _ shape) (by decide)
  · exact ends c tail (List.cons.inj shape).2
  · obtain ⟨zero, shape⟩ := List.cons.inj shape
    obtain ⟨rfl, -⟩ := List.cons.inj shape
    exact unpadded b cs (by rw [zero])

/-- **A number as this reader takes it**: a zero in front stands alone, and a point has a digit
behind it. -/
structure Regular (cs : List Char) : Prop where
  unpadded : Unpadded cs
  pointed : ∀ c rest, cs.dropWhile isDigit = '.' :: c :: rest → isDigit c = true

/-- The whole part of a number is read, if a zero in front of it stands alone. -/
theorem whole?_append {ds : List Nat} (digits : AreDigits ds) (ne : ds ≠ []) {rest : List Char}
    (ends : Ends rest) (unpadded : Unpadded (ds.map digitChar ++ rest)) :
    whole? (ds.map digitChar ++ rest) = some (ds.map digitChar, rest) := by
  have read := spanDigits_map digits ends
  obtain ⟨d, others, rfl⟩ := List.exists_cons_of_ne_nil ne
  have below : ∀ e ∈ others, e < 10 := (List.forall_mem_cons.1 digits).2
  by_cases zero : d = 0
  · subst zero
    rcases others with _ | ⟨e, more⟩
    · rfl
    · have alone := unpadded (digitChar e) _ rfl
      rw [isDigit_digitChar (below e (List.mem_cons_self ..))] at alone
      cases alone
  · have apart : ∀ d < 10, d ≠ 0 → digitChar d ≠ '0' := by decide
    have first : digitChar d ≠ '0' := apart d (digits d (List.mem_cons_self ..)) zero
    have some_digits : (digitChar d :: others.map digitChar) ≠ [] := List.cons_ne_nil _ _
    rw [List.map_cons] at read ⊢
    rw [List.cons_append] at read ⊢
    rw [whole?, read, if_neg some_digits]
    exact fun _ same => absurd (List.cons.inj same).1 first

/-- The digits behind a point are read. -/
theorem fraction_append {fs : List Nat} (digits : AreDigits fs) (ne : fs ≠ []) {rest : List Char}
    (ends : Ends rest) :
    fraction ('.' :: (fs.map digitChar ++ rest)) = (fs.map digitChar, rest) := by
  have some_digits : fs.map digitChar ≠ [] := by simpa using ne
  rw [fraction, spanDigits_map digits ends, if_neg some_digits]

/-! ### The parts of a number -/

section Parts

variable {negative : Bool} {left : Nat} {cs ds fs tail behind rest : List Char} {e : Int}
  (whole : whole? cs = some (ds, tail)) (pointed : fraction tail = (fs, behind))
include whole pointed

theorem unsigned_of_exponent (exponent : exponent? behind = some (e, rest)) :
    unsigned negative cs left =
      .ok (.float (.ofDecimal negative (natOf (ds ++ fs)) (e - fs.length)), rest) := by
  rw [unsigned, whole]
  simp only [pointed, exponent]

theorem unsigned_of_fraction (exponent : exponent? behind = none) (ne : fs ≠ []) :
    unsigned negative cs left =
      .ok (.float (.ofDecimal negative (natOf (ds ++ fs)) (-fs.length)), behind) := by
  obtain ⟨f, fs, rfl⟩ := List.exists_cons_of_ne_nil ne
  rw [unsigned, whole]
  simp only [pointed, exponent]

theorem unsigned_of_whole (exponent : exponent? behind = none) (nil : fs = []) :
    unsigned negative cs left =
      if integerDigits < ds.length then .error (.oversized ds.length)
      else .ok (.int (if negative then -(natOf ds : Int) else natOf ds), behind) := by
  subst nil
  rw [unsigned, whole]
  simp only [pointed, exponent]

end Parts

/-! ### Numbers that are written -/

/-- **What may come after a number**: nothing, a comma or a closing bracket. -/
def Closes (rest : List Char) : Prop :=
  ∀ c tail, rest = c :: tail → c ∈ [',', ']', '\x7d']

theorem closes_nil : Closes [] := fun _ _ h => nomatch h

theorem closes_cons {c : Char} (mem : c ∈ [',', ']', '\x7d']) (tail : List Char) :
    Closes (c :: tail) := by
  rintro c tail ⟨⟩
  exact mem

section Closing

variable {rest : List Char} (closes : Closes rest)
include closes

theorem Closes.ends : Ends rest := by
  have all : ∀ c ∈ [',', ']', '\x7d'], isDigit c = false :=
    List.all_iff_forall_prop.1 (by decide)
  exact fun c tail shape => all c (closes c tail shape)

theorem Closes.fraction : fraction rest = ([], rest) := by
  rw [Json.fraction]
  rintro tail rfl
  exact absurd (closes _ _ rfl) (by decide)

theorem Closes.exponent? : exponent? rest = none := by
  cases rest with
  | nil => rfl
  | cons c tail =>
    have all : ∀ c ∈ [',', ']', '\x7d'], ¬(c = 'e' ∨ c = 'E') :=
      List.all_iff_forall_prop.1 (by decide)
    exact if_neg (all c (closes c tail rfl))

/-- An exponent is read. -/
theorem exponent?_append {es : List Nat} (digits : AreDigits es) (ne : es ≠ [])
    (negative : Bool) :
    Json.exponent? ('e' :: Number.exponentSign negative :: (es.map digitChar ++ rest)) =
      some (if negative then -(Decimal.value es : Int) else Decimal.value es, rest) := by
  have signed : exponentSign (Number.exponentSign negative :: (es.map digitChar ++ rest)) =
      (negative, es.map digitChar ++ rest) := by
    cases negative with
    | false => rfl
    | true => rfl
  have some_digits : es.map digitChar ≠ [] := by simpa using ne
  rw [Json.exponent?, if_pos (.inl rfl)]
  simp only [signed, spanDigits_map digits closes.ends]
  rw [if_neg some_digits, natOf_map digits]

/-- **A text of the grammar is read** as the decimal that it shows, if a zero in front stands
alone and a point has a digit behind it. -/
theorem unsigned_decimalText (negative : Bool) (left : Nat) {cs : List Char} {ds : List Nat}
    {e : Int} (text : DecimalText cs ds e) (regular : Regular cs) :
    unsigned negative (cs ++ rest) left =
      .ok (.float (.ofDecimal negative (Decimal.value ds) e), rest) := by
  have point : ∀ tail, Ends ('.' :: tail) := ends_cons (by decide)
  have mark : ∀ tail, Ends ('e' :: tail) := ends_cons (by decide)
  have unpointed : ∀ tail, Json.fraction ('e' :: tail) = ([], 'e' :: tail) := fun _ => rfl
  have unpadded := regular.unpadded.append closes.ends
  cases text with
  | @positional ws fs whole fraction ne fraction_ne =>
    rw [List.append_assoc, List.cons_append] at unpadded ⊢
    rw [unsigned_of_fraction (whole?_append whole ne (point _) unpadded)
      (fraction_append fraction fraction_ne closes.ends) closes.exponent?
      (by simpa using fraction_ne), ← List.map_append, natOf_map (whole.append fraction),
      List.length_map]
  | @scientific ws es whole exponent ne exponent_ne negative' =>
    rw [List.append_assoc, List.cons_append, List.cons_append] at unpadded ⊢
    rw [unsigned_of_exponent (whole?_append whole ne (mark _) unpadded) (unpointed _)
      (exponent?_append closes exponent exponent_ne negative'), List.append_nil, natOf_map whole,
      List.length_nil, Int.natCast_zero, Int.sub_zero]
  | @pointed ws fs es whole fraction exponent ne exponent_ne negative' =>
    by_cases fraction_ne : fs = []
    · -- a point with no digit behind it
      subst fraction_ne
      have all : ∀ c ∈ ws.map digitChar, isDigit c = true := by
        intro c mem
        obtain ⟨d, d_mem, rfl⟩ := List.mem_map.1 mem
        exact isDigit_digitChar (whole d d_mem)
      have digit := regular.pointed 'e' _ (List.dropWhile_append_of_pos all)
      cases digit
    · rw [List.append_assoc, List.cons_append, List.append_assoc, List.cons_append,
        List.cons_append] at unpadded ⊢
      rw [unsigned_of_exponent (whole?_append whole ne (point _) unpadded)
        (fraction_append fraction fraction_ne (mark _))
        (exponent?_append closes exponent exponent_ne negative'), ← List.map_append,
        natOf_map (whole.append fraction), List.length_map]

end Closing

/-! ### The layouts of a number -/

/-- The first digit of a number is no zero, unless it is the only one. -/
theorem eq_zero_of_digits {n : Nat} {rest : List Nat} (h : Decimal.digits n = 0 :: rest) :
    n = 0 ∧ rest = [] := by
  fun_induction Decimal.digits n generalizing rest with
  | case1 n lt =>
    obtain ⟨rfl, rfl⟩ := List.cons.inj h
    exact ⟨rfl, rfl⟩
  | case2 n ge ih =>
    obtain ⟨d, others, more⟩ := List.exists_cons_of_ne_nil (Decimal.digits_ne_nil (n / 10))
    rw [more, List.cons_append] at h
    obtain ⟨rfl, -⟩ := List.cons.inj h
    have := (ih more).1
    omega

/-- Only zero is written with the digit zero alone, and then without an exponent. -/
theorem exponent_shortest {x : Binary64.Magnitude} (zero : (Binary64.shortest x).digits = 0) :
    (Binary64.shortest x).exponent = 0 := by
  have rounds := Binary64.ofDecimal_shortest false x
  rw [zero, Binary64.ofDecimal, if_pos rfl, Binary64.zero] at rounds
  obtain ⟨-, rfl⟩ := Binary64.finite.inj rounds
  rw [Binary64.shortest, if_pos rfl]

/-- Digits, and what stops them: a text as the reader takes it, if a zero in front of the digits is
all of them and a point has a digit behind it. -/
theorem regular_append {ws : List Nat} (digits : AreDigits ws) (ne : ws ≠ []) {mark : Char}
    {rest : List Char} (stop : isDigit mark = false)
    (alone : ∀ others, ws = 0 :: others → others = [])
    (behind : mark = '.' → ∀ c tail, rest = c :: tail → isDigit c = true) :
    Regular (ws.map digitChar ++ mark :: rest) := by
  constructor
  · intro c tail shape
    obtain ⟨d, others, rfl⟩ := List.exists_cons_of_ne_nil ne
    have zero : ∀ d < 10, digitChar d = '0' → d = 0 := by decide
    obtain rfl := zero d (digits d (List.mem_cons_self ..)) (List.cons.inj shape).1
    obtain rfl := alone others rfl
    have next : mark = c := (List.cons.inj (List.cons.inj shape).2).1
    rwa [← next]
  · intro c tail shape
    have all : ∀ c ∈ ws.map digitChar, isDigit c = true := by
      intro c mem
      obtain ⟨d, d_mem, rfl⟩ := List.mem_map.1 mem
      exact isDigit_digitChar (digits d d_mem)
    rw [List.dropWhile_append_of_pos all, List.dropWhile_cons_of_neg (by simp [stop])] at shape
    obtain ⟨point, shape⟩ := List.cons.inj shape
    exact behind point c tail shape

section Layouts

variable {ds : List Nat} (digits : AreDigits ds) (ne : ds ≠ [])
include digits ne

/-- Behind the point of a positional layout there is a digit, and in front of it a zero that
stands alone, or digits that start with none. -/
theorem regular_positional {point : Int}
    (alone : ∀ rest, ds = 0 :: rest → rest = [] ∧ point ≤ 1) :
    Regular (FloatNotation.positional (ds.map digitChar) point) := by
  have zeros : ∀ n, List.replicate n '0' = (List.replicate n 0).map digitChar := by
    intro n
    rw [List.map_replicate]
    rfl
  have digit : ∀ {es : List Nat}, AreDigits es → ∀ c tail, es.map digitChar = c :: tail →
      isDigit c = true := by
    intro es below c tail shape
    have mem : c ∈ es.map digitChar := shape ▸ List.mem_cons_self ..
    obtain ⟨e, e_mem, rfl⟩ := List.mem_map.1 mem
    exact isDigit_digitChar (below e e_mem)
  rw [FloatNotation.positional]
  split
  · refine regular_append (Number.areDigits_zeros 1) (List.cons_ne_nil _ _) rfl ?_ ?_
    · rintro others ⟨⟩
      rfl
    · intro _ c tail shape
      have both : (List.replicate (-point).toNat 0 ++ ds).map digitChar = _ := List.map_append
      rw [← zeros] at both
      exact digit ((Number.areDigits_zeros _).append digits) c tail (both.trans shape)
  · rename_i back
    simp only [← List.map_take, ← List.map_drop, zeros, ← List.map_append]
    refine regular_append ?_ ?_ rfl ?_ ?_
    · exact AreDigits.append (fun d mem => digits d (List.mem_of_mem_take mem))
        (Number.areDigits_zeros _)
    · obtain ⟨d, rest, rfl⟩ := List.exists_cons_of_ne_nil ne
      obtain ⟨p, shape⟩ : ∃ p, point.toNat = p + 1 := ⟨point.toNat - 1, by omega⟩
      rw [shape, List.take_succ_cons]
      exact List.cons_ne_nil _ _
    · intro others shape
      obtain ⟨d, rest, rfl⟩ := List.exists_cons_of_ne_nil ne
      obtain ⟨p, point_eq⟩ : ∃ p, point.toNat = p + 1 := ⟨point.toNat - 1, by omega⟩
      rw [point_eq, List.take_succ_cons, List.cons_append] at shape
      obtain ⟨rfl, shape⟩ := List.cons.inj shape
      obtain ⟨rfl, le⟩ := alone rest rfl
      obtain rfl : p = 0 := by omega
      exact shape.symm
    · intro _ c tail shape
      split at shape
      · obtain ⟨rfl, -⟩ := List.cons.inj shape
        rfl
      · exact digit (fun d mem => digits d (List.mem_of_mem_drop mem)) c tail shape

/-- The point of a layout with an exponent stands between two digits. -/
theorem regular_scientific (width : Nat) (exponent : Int) :
    Regular (FloatNotation.scientific width (ds.map digitChar) exponent) := by
  obtain ⟨d, rest, rfl⟩ := List.exists_cons_of_ne_nil ne
  have first : AreDigits [d] := List.forall_mem_singleton.2 (digits d (List.mem_cons_self ..))
  have single : ∀ others, [d] = 0 :: others → others = [] := by
    rintro others ⟨⟩
    rfl
  unfold FloatNotation.scientific
  rcases rest with _ | ⟨next, rest⟩
  · refine regular_append first (List.cons_ne_nil _ _) rfl single ?_
    rintro ⟨⟩
  · refine regular_append first (List.cons_ne_nil _ _) rfl single ?_
    rintro - c tail shape
    obtain ⟨rfl, -⟩ := List.cons.inj shape
    exact isDigit_digitChar (digits next (List.mem_cons_of_mem d (List.mem_cons_self ..)))

end Layouts

/-- **What is written for a finite number** is taken by the reader. -/
theorem regular_text (f : FloatNotation) {negative : Bool} {x : Binary64.Magnitude}
    {cs : List Char} (written : f.text (.finite negative x) = signText negative ++ cs) :
    Regular cs := by
  have digits := Number.areDigits_digits (Binary64.shortest x).digits
  have ne := Decimal.digits_ne_nil (Binary64.shortest x).digits
  rw [FloatNotation.text, ← signText] at written
  obtain rfl := List.append_cancel_left written
  simp only [Decimal.natText, List.length_map]
  split
  · refine regular_positional digits ne fun rest shape => ?_
    obtain ⟨zero, rfl⟩ := eq_zero_of_digits shape
    refine ⟨rfl, ?_⟩
    rw [exponent_shortest zero, shape]
    simp
  · exact regular_scientific digits ne _ _

/-! ### Numbers, whole -/

/-- **A number that a JSON text can denote**: an integer whose digits are not too many, or any
binary64 number. -/
def Fits : Number → Prop
  | .int n => (Decimal.digits n.natAbs).length ≤ integerDigits
  | .float _ => True

section Written

variable (negative : Bool) {c : Char} {d : Nat} (digit : Text.asciiDigit? c = some d)
include digit

/-- A sign is read in front of a digit. -/
theorem exists_number_eq (tail : List Char) :
    ∃ left, number (signText negative ++ c :: tail) = unsigned negative (c :: tail) left := by
  cases negative with
  | true => exact ⟨_, rfl⟩
  | false =>
    have minus : c ≠ '-' := Text.ne_of_asciiDigit? digit rfl
    refine ⟨(c :: tail).length, ?_⟩
    rw [signText, if_neg Bool.false_ne_true, List.nil_append, number]
    exact fun _ same => absurd (List.cons.inj same).1 minus

/-- What starts with a digit behind a sign is a number and nothing else. -/
theorem plain_of_unsigned [StandIns] {n : Number} {tail rest : List Char}
    (read : ∀ left, unsigned negative (c :: tail) left = .ok (n, rest)) :
    plain (signText negative ++ c :: tail) = .ok (.number n, rest) := by
  have apart : ∀ other, Text.asciiDigit? other = none → c ≠ other := fun _ =>
    Text.ne_of_asciiDigit? digit
  obtain ⟨left, number_eq⟩ := exists_number_eq negative digit tail
  rw [read left] at number_eq
  cases negative with
  | true =>
    change number ('-' :: c :: tail) = _ at number_eq
    change plain ('-' :: c :: tail) = _
    rw [plain, number_eq]
    · rfl
    · rintro _ ⟨⟩
    · rintro _ ⟨⟩
    · rintro _ ⟨⟩
    · rintro _ ⟨⟩
    · rintro _ ⟨⟩
    · rintro _ ⟨⟩
    · intro _ same
      exact absurd (List.cons.inj (List.cons.inj same).2).1 (apart 'I' rfl)
  | false =>
    change number (c :: tail) = _ at number_eq
    change plain (c :: tail) = _
    rw [plain, number_eq]
    · rfl
    all_goals exact fun _ same => absurd (List.cons.inj same).1 (apart _ rfl)

end Written

/-- The digits of an integer are read back, if they are not too many. -/
theorem unsigned_natText {n : Nat} (short : (Decimal.digits n).length ≤ integerDigits)
    {rest : List Char} (closes : Closes rest) (negative : Bool) (left : Nat) :
    unsigned negative (Decimal.natText n ++ rest) left =
      .ok (.int (if negative then -(n : Int) else n), rest) := by
  have digits := Number.areDigits_digits n
  have unpadded : Unpadded ((Decimal.digits n).map digitChar) := by
    intro c tail shape
    have zero : ∀ d < 10, digitChar d = '0' → d = 0 := by decide
    obtain ⟨d, others, more⟩ := List.exists_cons_of_ne_nil (Decimal.digits_ne_nil n)
    rw [more, List.map_cons] at shape
    obtain rfl := zero d (digits d (more ▸ List.mem_cons_self ..)) (List.cons.inj shape).1
    rw [(eq_zero_of_digits more).2] at shape
    cases (List.cons.inj shape).2
  have whole := whole?_append digits (Decimal.digits_ne_nil n) closes.ends
    (unpadded.append closes.ends)
  rw [Decimal.natText, unsigned_of_whole whole closes.fraction closes.exponent? rfl,
    if_neg (by rw [List.length_map]; omega), natOf_map digits, Decimal.value_digits]

/-- **A number is read back**, in front of what may come after it. -/
theorem plain_number [StandIns] {n : Number} (fits : Fits n) {rest : List Char}
    (closes : Closes rest) :
    plain (n.textIn jsonNotation ++ rest) = .ok (.number n, rest) := by
  cases n with
  | int n =>
    obtain ⟨c, d, tail, written, digit⟩ := ((numeral_natText n.natAbs).ends
      (List.length_pos_iff.2 (Decimal.digits_ne_nil _))).1
    have value : (if decide (n < 0) then -(n.natAbs : Int) else n.natAbs) = n := by
      simp only [decide_eq_true_eq]
      split <;> omega
    rw [Number.textIn, Number.intText_eq, written, List.append_assoc, List.cons_append]
    refine plain_of_unsigned _ digit fun left => ?_
    have read := unsigned_natText fits closes (decide (n < 0)) left
    rwa [value, written, List.cons_append] at read
  | float x =>
    cases x with
    | nan => rfl
    | infinite negative =>
      cases negative with
      | true => rfl
      | false => rfl
    | finite negative x =>
      obtain ⟨cs, ds, e, written, text, rounds⟩ := jsonNotation.exists_decimalText negative x
      obtain ⟨c, d, tail, rfl, digit⟩ := text.ends.1
      rw [Number.textIn, written, List.append_assoc, List.cons_append]
      refine plain_of_unsigned negative digit fun left => ?_
      have read := unsigned_decimalText closes negative left text
        (regular_text jsonNotation written)
      rwa [rounds, List.cons_append] at read

end Json

end DocumentFilter
