import DocumentFilter.Proofs.Document.Plain
import DocumentFilter.Proofs.Trace

/-!
# What a JSON text denotes

A document is **legible** if no integer in it has too many digits and no object two fields of one
name (`DocumentFilter.Document.Legible`). Whatever is read is legible: an integer of too many digits
is refused, and a name that is written twice keeps one field.

All steps of the reader are described in one way (`DocumentFilter.Json.Leaves`): a step gives
something and an end of the text that it read, or it finds a flaw, or it refuses an integer for its
size. The last happens only where the text has that many digits in a row. A step that calls others
in turn is described by what those leave (`DocumentFilter.Json.Leaves.bind`), so that one induction
says both what is read and what is refused.

* `DocumentFilter.Json.legible_of_document`: **every document that is read is legible**;
* `DocumentFilter.Json.hasLongRun_of_document`: **only long digits are refused for their size**.
-/

namespace DocumentFilter

namespace Document

/-- **A document that a JSON text can denote**: its integers do not have too many digits, and the
names of the fields of an object are different. -/
inductive Legible : Document → Prop
  | null : Legible .null
  | bool (b : Bool) : Legible (.bool b)
  | number {n : Number} (fits : Json.Fits n) : Legible (.number n)
  | string (s : String) : Legible (.string s)
  | array {items : List Document} (all : ∀ item ∈ items, Legible item) : Legible (.array items)
  | object {fields : List (String × Document)} (nodup : (fields.map Prod.fst).Nodup)
      (all : ∀ field ∈ fields, Legible field.2) : Legible (.object fields)

theorem mem_of_lookup {name : String} {value : Document} {fields : List (String × Document)}
    (found : lookup name fields = some value) : (name, value) ∈ fields := by
  induction fields with
  | nil => cases found
  | cons field rest ih =>
    obtain ⟨key, first⟩ := field
    rw [lookup] at found
    split at found
    · rename_i same
      cases found
      exact same ▸ List.mem_cons_self
    · exact List.mem_cons_of_mem _ (ih found)

end Document

namespace Json

open Document (Legible setField)

/-! ### What a step leaves -/

/-- A text with more digits in a row than an integer may have. -/
def HasLongRun (cs : List Char) : Prop :=
  ∃ ds, ds <:+: cs ∧ (∀ c ∈ ds, isDigit c = true) ∧ integerDigits < ds.length

theorem HasLongRun.mono {cs text : List Char} (long : HasLongRun cs) (inside : cs <:+: text) :
    HasLongRun text := by
  obtain ⟨ds, part, rest⟩ := long
  exact ⟨ds, part.trans inside, rest⟩

/-- A text with such a run is longer still. -/
theorem HasLongRun.lt_length {cs : List Char} (long : HasLongRun cs) :
    integerDigits < cs.length := by
  obtain ⟨ds, part, -, many⟩ := long
  exact many.trans_le part.length_le

/-- **What a step of the reader leaves** of a text: something of the given kind and an end of the
text, or a flaw, or digits that are too many. -/
def Leaves {α : Type} (kind : α → Prop) (cs : List Char) : Reading (α × List Char) → Prop
  | .ok (a, rest) => kind a ∧ rest <:+ cs
  | .error (.flaw _ _) => True
  | .error (.oversized _) => HasLongRun cs

section Leaves

variable {α β : Type} {kind : α → Prop} {cs before : List Char}

/-- What is left of an end of a text is left of the text. -/
theorem Leaves.mono {x : Reading (α × List Char)} (leaves : Leaves kind cs x)
    (suffix : cs <:+ before) : Leaves kind before x := by
  match x, leaves with
  | .ok (a, rest), ⟨is, shorter⟩ => exact ⟨is, shorter.trans suffix⟩
  | .error (.flaw _ _), _ => trivial
  | .error (.oversized _), long => exact HasLongRun.mono long suffix.isInfix

variable {next : β → Prop}

/-- Where a step stops, it says nothing about what it would have left. -/
theorem Leaves.error {stop : Stop} (leaves : Leaves kind cs (.error stop)) :
    Leaves next cs (.error stop) := by
  cases stop with
  | flaw => trivial
  | oversized => exact leaves

/-- **One step after the other.** -/
theorem Leaves.bind {x : Reading (α × List Char)} {f : α × List Char → Reading (β × List Char)}
    (first : Leaves kind cs x) (more : ∀ a rest, kind a → Leaves next rest (f (a, rest))) :
    Leaves next cs (x >>= f) := by
  match x, first with
  | .ok (a, rest), ⟨is, shorter⟩ => exact (more a rest is).mono shorter
  | .error _, stops => exact stops.error

end Leaves

theorem skip_suffix (cs : List Char) : skip cs <:+ cs :=
  List.dropWhile_suffix _

/-! ### Strings -/

/-- A character that is read, whatever it is. -/
abbrev Anything {α : Type} : α → Prop := fun _ => True

theorem leaves_secondHalf [StandIns] (high : Nat) (cs : List Char) :
    Leaves Anything cs (secondHalf high cs) := by
  unfold secondHalf
  split
  · rename_i a b c d next rest
    split
    · trivial
    · split
      · exact ⟨trivial, ['\\', 'u', a, b, c, d], rfl⟩
      · exact ⟨trivial, List.suffix_rfl⟩
  · exact ⟨trivial, List.suffix_rfl⟩

theorem leaves_unicodeEscape [StandIns] (cs : List Char) :
    Leaves Anything cs (unicodeEscape cs) := by
  unfold unicodeEscape
  split
  · rename_i a b c d next rest
    have suffix : next :: rest <:+ a :: b :: c :: d :: next :: rest := ⟨[a, b, c, d], rfl⟩
    split
    · trivial
    · split
      · exact (leaves_secondHalf _ _).mono suffix
      · exact ⟨trivial, suffix⟩
  · trivial

theorem leaves_string [StandIns] (start : Nat) (read cs : List Char) :
    Leaves Anything cs (string start read cs) := by
  have behind : ∀ (c d : Char) (rest : List Char), rest <:+ c :: d :: rest := fun c d _ =>
    ⟨[c, d], rfl⟩
  fun_induction string start read cs with
  | case1 => trivial
  | case2 read rest => exact ⟨trivial, List.suffix_cons _ _⟩
  | case3 => trivial
  | case4 read rest stop failed =>
    have escape := (leaves_unicodeEscape rest).mono (behind '\\' 'u' rest)
    rw [failed] at escape
    exact escape.error
  | case5 read rest c tail found ih =>
    have escape := leaves_unicodeEscape rest
    rw [found] at escape
    exact ih.mono (escape.2.trans (behind _ _ rest))
  | case6 read c rest _ d _ ih => exact ih.mono (behind _ _ rest)
  | case7 => trivial
  | case8 => trivial
  | case9 read c rest _ _ _ _ _ ih => exact ih.mono (List.suffix_cons _ _)

/-! ### Numbers -/

/-- Digits denote less than the power of ten that their number says. -/
theorem natOf_lt {cs : List Char} (digits : ∀ c ∈ cs, isDigit c = true) :
    natOf cs < 10 ^ cs.length := by
  obtain ⟨ds, below, rfl⟩ := exists_areDigits digits
  rw [natOf_map below, List.length_map]
  clear digits
  induction ds with
  | nil => decide
  | cons d ds ih =>
    obtain ⟨first, others⟩ := List.forall_mem_cons.1 below
    have rest := ih others
    rw [Decimal.value_cons, List.length_cons, Nat.pow_succ]
    calc d * 10 ^ ds.length + Decimal.value ds
        < d * 10 ^ ds.length + 10 ^ ds.length := Nat.add_lt_add_left rest _
      _ = (d + 1) * 10 ^ ds.length := by rw [Nat.add_mul, Nat.one_mul]
      _ ≤ 10 * 10 ^ ds.length := Nat.mul_le_mul_right _ first
      _ = 10 ^ ds.length * 10 := Nat.mul_comm ..

/-- The whole part of a number has digits, at least one, and comes first. -/
theorem append_of_whole? {cs ds rest : List Char} (h : whole? cs = some (ds, rest)) :
    cs = ds ++ rest ∧ ds ≠ [] ∧ ∀ c ∈ ds, isDigit c = true := by
  unfold whole? at h
  split at h
  · cases h
    exact ⟨rfl, List.cons_ne_nil _ _, List.forall_mem_singleton.2 rfl⟩
  · split at h
    · cases h
    · rename_i ne
      cases h
      exact ⟨List.takeWhile_append_dropWhile.symm, ne, fun c mem => List.mem_takeWhile_imp mem⟩

theorem fraction_suffix (cs : List Char) : (fraction cs).2 <:+ cs := by
  unfold fraction
  split
  · split
    · exact List.suffix_rfl
    · exact (List.dropWhile_suffix _).trans (List.suffix_cons _ _)
  · exact List.suffix_rfl

theorem exponentSign_suffix (cs : List Char) : (exponentSign cs).2 <:+ cs := by
  unfold exponentSign
  split
  · exact List.suffix_cons _ _
  · exact List.suffix_cons _ _
  · exact List.suffix_rfl

theorem exponent?_suffix {cs rest : List Char} {e : Int} (h : exponent? cs = some (e, rest)) :
    rest <:+ cs := by
  unfold exponent? at h
  split at h
  · cases h
  · rename_i c tail
    split at h
    · dsimp only at h
      split at h
      · cases h
      · cases h
        calc (spanDigits (exponentSign tail).2).2
            <:+ (exponentSign tail).2 := List.dropWhile_suffix _
          _ <:+ tail := exponentSign_suffix tail
          _ <:+ c :: tail := List.suffix_cons c tail
    · cases h

/-- **An integer that is read** does not have too many digits, and one that is refused has. -/
theorem leaves_unsigned (negative : Bool) (cs : List Char) (left : Nat) :
    Leaves Fits cs (unsigned negative cs left) := by
  cases found : whole? cs with
  | none =>
    rw [unsigned, found]
    trivial
  | some parts =>
    obtain ⟨ds, tail⟩ := parts
    obtain ⟨rfl, ne, digits⟩ := append_of_whole? found
    obtain ⟨fs, behind, pointed⟩ : ∃ fs behind, fraction tail = (fs, behind) := ⟨_, _, rfl⟩
    have whole : tail <:+ ds ++ tail := List.suffix_append ds tail
    have suffix : behind <:+ ds ++ tail := by
      have part := fraction_suffix tail
      rw [pointed] at part
      exact part.trans whole
    -- a number with a fraction or an exponent may have any number of digits
    cases exponent : exponent? behind with
    | some more =>
      rw [unsigned_of_exponent found pointed exponent]
      exact ⟨trivial, (exponent?_suffix exponent).trans suffix⟩
    | none =>
      by_cases nil : fs = []
      · rw [unsigned_of_whole found pointed exponent nil]
        split
        · rename_i long
          exact ⟨ds, (List.prefix_append ds tail).isInfix, digits, long⟩
        · rename_i short
          have few := Decimal.length_digits_le (natOf_lt digits) (List.length_pos_iff.2 ne)
          have same : (if negative then -(natOf ds : Int) else natOf ds).natAbs = natOf ds := by
            split <;> omega
          refine ⟨?_, suffix⟩
          rw [Fits, same]
          omega
      · rw [unsigned_of_fraction found pointed exponent nil]
        exact ⟨trivial, suffix⟩

theorem leaves_number (cs : List Char) : Leaves Fits cs (number cs) := by
  unfold number
  split
  · exact (leaves_unsigned ..).mono (List.suffix_cons _ _)
  · exact leaves_unsigned ..

/-! ### Values -/

theorem leaves_plain [StandIns] (cs : List Char) : Leaves Legible cs (plain cs) := by
  unfold plain
  split
  · refine ((leaves_string ..).bind fun s rest _ => ?_).mono (List.suffix_cons _ _)
    exact ⟨.string s, List.suffix_rfl⟩
  · exact ⟨.null, ['n', 'u', 'l', 'l'], rfl⟩
  · exact ⟨.bool true, ['t', 'r', 'u', 'e'], rfl⟩
  · exact ⟨.bool false, ['f', 'a', 'l', 's', 'e'], rfl⟩
  · exact ⟨.number trivial, ['N', 'a', 'N'], rfl⟩
  · exact ⟨.number trivial, ['I', 'n', 'f', 'i', 'n', 'i', 't', 'y'], rfl⟩
  · exact ⟨.number trivial, ['-', 'I', 'n', 'f', 'i', 'n', 'i', 't', 'y'], rfl⟩
  · refine (leaves_number _).bind fun n rest fits => ?_
    exact ⟨.number fits, List.suffix_rfl⟩

theorem leaves_fieldName [StandIns] (cs : List Char) : Leaves Anything cs (fieldName cs) := by
  unfold fieldName
  split
  · refine ((leaves_string ..).bind fun name rest _ => ?_).mono (List.suffix_cons _ _)
    dsimp only
    split
    · rename_i tail colon
      have behind : tail <:+ skip rest := colon ▸ List.suffix_cons ':' tail
      exact ⟨trivial, ((skip_suffix tail).trans behind).trans (skip_suffix rest)⟩
    · trivial
  · trivial

/-- The fields of an object that is being read: their names are different, and their values are
legible. -/
def LegibleFields (fields : List (String × Document)) : Prop :=
  (fields.map Prod.fst).Nodup ∧ ∀ field ∈ fields, Legible field.2

theorem legibleFields_nil : LegibleFields [] :=
  ⟨List.nodup_nil, fun _ mem => absurd mem List.not_mem_nil⟩

theorem mem_names_setField {name key : String} {value : Document}
    {fields : List (String × Document)} (mem : key ∈ (setField name value fields).map Prod.fst) :
    key = name ∨ key ∈ fields.map Prod.fst := by
  induction fields with
  | nil => exact .inl (List.mem_singleton.1 mem)
  | cons field rest ih =>
    obtain ⟨first, old⟩ := field
    rw [setField] at mem
    split at mem
    · exact .inr mem
    · rcases List.mem_cons.1 mem with rfl | mem
      · exact .inr (List.mem_cons_self ..)
      · exact (ih mem).imp id (List.mem_cons_of_mem first)

/-- A field that is read keeps the names different, whether its name is new or not. -/
theorem LegibleFields.setField {fields : List (String × Document)} (legible : LegibleFields fields)
    (name : String) {value : Document} (item : Legible value) :
    LegibleFields (setField name value fields) := by
  induction fields with
  | nil => exact ⟨List.nodup_singleton name, List.forall_mem_singleton.2 item⟩
  | cons field rest ih =>
    obtain ⟨key, old⟩ := field
    obtain ⟨nodup, all⟩ := legible
    rw [List.map_cons, List.nodup_cons] at nodup
    obtain ⟨first, others⟩ := List.forall_mem_cons.1 all
    rw [Document.setField]
    split
    · exact ⟨List.nodup_cons.2 nodup, List.forall_mem_cons.2 ⟨item, others⟩⟩
    · rename_i apart
      obtain ⟨nodup', all'⟩ := ih ⟨nodup.2, others⟩
      refine ⟨List.nodup_cons.2 ⟨fun mem => ?_, nodup'⟩, List.forall_mem_cons.2 ⟨first, all'⟩⟩
      exact (mem_names_setField mem).elim apart nodup.1

/-- What opens neither an array nor an object is plain. -/
theorem value_eq_plain [StandIns] {c : Char} (array : c ≠ '[') (object : c ≠ '\x7b') (fuel : Nat)
    (tail : List Char) : value (fuel + 1) (c :: tail) = plain (c :: tail) := by
  rw [value]
  · exact fun _ same => array (List.cons.inj same).1
  · exact fun _ same => object (List.cons.inj same).1

/-- What stands behind a mark, with or without space around it. -/
theorem suffix_of_skip {c : Char} {cs rest : List Char} (mark : skip cs = c :: rest) :
    rest <:+ cs := by
  have behind : rest <:+ skip cs := mark ▸ List.suffix_cons c rest
  exact behind.trans (skip_suffix cs)

/-- **What is read in a given number of steps** is legible: a value, an array whose items so far
are, and an object whose fields so far are. -/
theorem leaves_steps [StandIns] (fuel : Nat) :
    (∀ cs, Leaves Legible cs (value fuel cs)) ∧
    (∀ before cs, (∀ item ∈ before, Legible item) → Leaves Legible cs (items fuel before cs)) ∧
    (∀ before cs, LegibleFields before → Leaves Legible cs (members fuel before cs)) := by
  -- the three call each other with one step less, so one induction is about all of them
  induction fuel with
  | zero => exact ⟨fun _ => trivial, fun _ _ _ => trivial, fun _ _ _ => trivial⟩
  | succ fuel ih =>
    obtain ⟨of_value, of_items, of_members⟩ := ih
    refine ⟨fun cs => ?_, fun before cs all => ?_, fun before cs all => ?_⟩
    · rcases cs with _ | ⟨c, tail⟩
      · exact leaves_plain []
      by_cases array : c = '['
      · subst array
        rw [value]
        split
        · rename_i rest close
          refine ⟨.array fun _ mem => absurd mem List.not_mem_nil, ?_⟩
          exact (suffix_of_skip close).trans (List.suffix_cons _ _)
        · refine (of_items [] _ fun _ mem => absurd mem List.not_mem_nil).mono ?_
          exact (skip_suffix tail).trans (List.suffix_cons _ _)
      by_cases object : c = '\x7b'
      · subst object
        rw [value]
        split
        · rename_i rest close
          refine ⟨.object List.nodup_nil fun _ mem => absurd mem List.not_mem_nil, ?_⟩
          exact (suffix_of_skip close).trans (List.suffix_cons _ _)
        · refine (of_members [] _ legibleFields_nil).mono ?_
          exact (skip_suffix tail).trans (List.suffix_cons _ _)
      · rw [value_eq_plain array object]
        exact leaves_plain _
    · rw [items]
      refine (of_value cs).bind fun item rest legible => ?_
      have all' : ∀ one ∈ item :: before, Legible one := List.forall_mem_cons.2 ⟨legible, all⟩
      dsimp only
      split
      · rename_i close
        exact ⟨.array fun one mem => all' one (List.mem_reverse.1 mem), suffix_of_skip close⟩
      · rename_i comma
        exact (of_items _ _ all').mono ((skip_suffix _).trans (suffix_of_skip comma))
      · trivial
    · rw [members]
      refine (leaves_fieldName cs).bind fun name tail _ => ?_
      refine (of_value tail).bind fun item rest legible => ?_
      -- a name that came before keeps its place and gets the new value
      have all' := all.setField name legible
      dsimp only
      split
      · rename_i close
        exact ⟨.object all'.1 all'.2, suffix_of_skip close⟩
      · rename_i comma
        exact (of_members _ _ all').mono ((skip_suffix _).trans (suffix_of_skip comma))
      · trivial

/-! ### Whole texts -/

/-- **Every document that is read is legible.** -/
theorem legible_of_document [StandIns] {cs : List Char} {doc : Document}
    (read : document cs = .ok doc) : Legible doc := by
  have leaves := (leaves_steps (2 * cs.length + 1)).1 (skip cs)
  unfold document at read
  split at read
  · cases read
  · obtain ⟨⟨found, rest⟩, of_value, read⟩ := Except.bind_eq_ok.1 read
    rw [of_value] at leaves
    dsimp only at read
    split at read
    · cases read
      exact leaves.1
    · cases read

/-- **An integer is refused for its size** only where the text has as many digits in a row. -/
theorem hasLongRun_of_document [StandIns] {cs : List Char} {digits : Nat}
    (long : document cs = .error (.oversized digits)) : HasLongRun cs := by
  have leaves : Leaves Legible cs (value (2 * cs.length + 1) (skip cs)) :=
    ((leaves_steps _).1 _).mono (skip_suffix cs)
  unfold document at long
  split at long
  · cases long
  · cases found : value (2 * cs.length + 1) (skip cs) with
    | error stop =>
      rw [found] at leaves long
      cases long
      exact leaves
    | ok parts =>
      obtain ⟨doc, rest⟩ := parts
      simp only [found, bind, Except.bind] at long
      split at long
      · cases long
      · cases long

end Json

end DocumentFilter
