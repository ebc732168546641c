import DocumentFilter.Document.Text
import DocumentFilter.Proofs.Number.Reading
import DocumentFilter.Proofs.Text.Lines
import Mathlib.Data.Bool.AllAny

/-!
# A JSON text as a line

A document is written on a line of its own. Its text has no control character, since a string shows
those by escapes, so there is no end of a line in it. At both ends there is something that is not
blank, whatever a string in it may hold, so nothing is lost when the line is stripped.

* `DocumentFilter.Document.isLine_text`: **a JSON text is one line**;
* `DocumentFilter.Document.strip_chars`: **nothing is lost** when it is stripped;
* `DocumentFilter.Document.exists_leads_chars`: what it starts with.
-/

namespace DocumentFilter.Document

open Decimal (digitChar)
open Number (AreDigits DecimalText signText)

/-! ### The characters of a JSON text -/

/-- The digits of a number are visible characters. -/
theorem le_toNat_digitChar {d : Nat} (lt : d < 10) : 0x20 ≤ (digitChar d).toNat := by
  have all : ∀ d < 10, 0x20 ≤ (digitChar d).toNat := by decide
  exact all d lt

theorem le_toNat_of_areDigits {ds : List Nat} (digits : AreDigits ds) {c : Char}
    (mem : c ∈ ds.map digitChar) : 0x20 ≤ c.toNat := by
  obtain ⟨d, d_mem, rfl⟩ := List.mem_map.1 mem
  exact le_toNat_digitChar (digits d d_mem)

theorem le_toNat_of_decimalText {cs : List Char} {ds : List Nat} {e : Int}
    (text : DecimalText cs ds e) {c : Char} (mem : c ∈ cs) : 0x20 ≤ c.toNat := by
  have sign : ∀ negative, 0x20 ≤ (Number.exponentSign negative).toNat := by decide
  cases text with
  | positional whole fraction =>
    rcases List.mem_append.1 mem with mem | mem
    · exact le_toNat_of_areDigits whole mem
    · rcases List.mem_cons.1 mem with rfl | mem
      · decide
      · exact le_toNat_of_areDigits fraction mem
  | scientific whole exponent _ _ negative =>
    rcases List.mem_append.1 mem with mem | mem
    · exact le_toNat_of_areDigits whole mem
    · rcases List.mem_cons.1 mem with rfl | mem
      · decide
      · rcases List.mem_cons.1 mem with rfl | mem
        · exact sign negative
        · exact le_toNat_of_areDigits exponent mem
  | pointed whole fraction exponent _ _ negative =>
    rcases List.mem_append.1 mem with mem | mem
    · exact le_toNat_of_areDigits whole mem
    · rcases List.mem_cons.1 mem with rfl | mem
      · decide
      · rcases List.mem_append.1 mem with mem | mem
        · exact le_toNat_of_areDigits fraction mem
        · rcases List.mem_cons.1 mem with rfl | mem
          · decide
          · rcases List.mem_cons.1 mem with rfl | mem
            · exact sign negative
            · exact le_toNat_of_areDigits exponent mem

/-- **The text of a number**: no control character is in it, it starts with a sign, a digit or a
letter of the constants, and its last character is not blank. -/
structure IsNumberText (cs : List Char) : Prop where
  visible : ∀ c ∈ cs, 0x20 ≤ c.toNat
  first : ∃ c tail, cs = c :: tail ∧
    (c = '-' ∨ c = 'N' ∨ c = 'I' ∨ ∃ d, Text.asciiDigit? c = some d)
  last : ∃ front c, cs = front ++ [c] ∧ Text.isBlank c = false

theorem isNumberText_signed (negative : Bool) {cs : List Char} (visible : ∀ c ∈ cs, 0x20 ≤ c.toNat)
    (starts : StartsInDigit cs) (ends : EndsInDigit cs) :
    IsNumberText (signText negative ++ cs) := by
  obtain ⟨c, d, tail, rfl, digit⟩ := starts
  obtain ⟨last, d', front, shape, digit'⟩ := ends
  have solid := Text.isBlank_of_asciiDigit? digit'
  cases negative with
  | false =>
    exact ⟨visible, ⟨c, tail, rfl, .inr (.inr (.inr ⟨d, digit⟩))⟩, ⟨front, last, shape, solid⟩⟩
  | true =>
    refine ⟨List.forall_mem_cons.2 ⟨by decide, visible⟩, ⟨'-', c :: tail, rfl, .inl rfl⟩, ?_⟩
    exact ⟨'-' :: front, last, congrArg (List.cons '-') shape, solid⟩

theorem isNumberText_textIn (n : Number) : IsNumberText (n.textIn jsonNotation) := by
  cases n with
  | int n =>
    have digits := Number.areDigits_digits n.natAbs
    have ends := (numeral_natText n.natAbs).ends
      (List.length_pos_iff.2 (Decimal.digits_ne_nil _))
    rw [Number.textIn, Number.intText_eq]
    exact isNumberText_signed _ (fun c mem => le_toNat_of_areDigits digits mem) ends.1 ends.2
  | float x =>
    cases x with
    | nan =>
      exact ⟨List.all_iff_forall_prop.1 (by decide), ⟨'N', ['a', 'N'], rfl, .inr (.inl rfl)⟩,
        ⟨['N', 'a'], 'N', rfl, by decide⟩⟩
    | infinite negative =>
      cases negative with
      | true =>
        exact ⟨List.all_iff_forall_prop.1 (by decide), ⟨'-', "Infinity".toList, rfl, .inl rfl⟩,
          ⟨"-Infinit".toList, 'y', rfl, by decide⟩⟩
      | false =>
        exact ⟨List.all_iff_forall_prop.1 (by decide),
          ⟨'I', "nfinity".toList, rfl, .inr (.inr (.inl rfl))⟩,
          ⟨"Infinit".toList, 'y', rfl, by decide⟩⟩
    | finite negative x =>
      obtain ⟨cs, ds, e, written, text, -⟩ := jsonNotation.exists_decimalText negative x
      rw [Number.textIn, written]
      exact isNumberText_signed _ (fun c mem => le_toNat_of_decimalText text mem) text.ends.1
        text.ends.2

/-- A character that a value starts with: it is not blank, it closes no array, and it is not the
mark that a text must not start with. -/
def Leads (c : Char) : Prop :=
  Text.isBlank c = false ∧ c ≠ ']' ∧ c ≠ '\uFEFF'

instance : DecidablePred Leads := fun _ => inferInstanceAs (Decidable (_ ∧ _))

/-- What a number starts with opens neither an array nor an object. -/
theorem IsNumberText.leads {cs : List Char} (h : IsNumberText cs) :
    ∃ c tail, cs = c :: tail ∧ Leads c ∧ c ≠ '[' ∧ c ≠ '\x7b' := by
  obtain ⟨c, tail, rfl, first⟩ := h.first
  refine ⟨c, tail, rfl, ?_⟩
  rcases first with rfl | rfl | rfl | ⟨d, digit⟩
  · exact ⟨⟨by decide, by decide, by decide⟩, by decide, by decide⟩
  · exact ⟨⟨by decide, by decide, by decide⟩, by decide, by decide⟩
  · exact ⟨⟨by decide, by decide, by decide⟩, by decide, by decide⟩
  · have apart : ∀ other, Text.asciiDigit? other = none → c ≠ other := fun _ =>
      Text.ne_of_asciiDigit? digit
    exact ⟨⟨Text.isBlank_of_asciiDigit? digit, apart ']' rfl, apart '\uFEFF' rfl⟩, apart '[' rfl,
      apart '\x7b' rfl⟩

theorem le_toNat_jsonChar {c d : Char} (mem : d ∈ jsonChar c) : 0x20 ≤ d.toNat := by
  have control : ∀ n < 0x20, ('\\' :: 'u' :: Text.hex 4 n).all fun d => 0x20 ≤ d.toNat := by decide
  have short : ∀ letter : Char, 0x20 ≤ letter.toNat → ∀ d ∈ ['\\', letter], 0x20 ≤ d.toNat :=
    fun letter visible => List.forall_mem_cons.2 ⟨by decide, List.forall_mem_singleton.2 visible⟩
  unfold jsonChar at mem
  split at mem
  · exact short '"' (by decide) d mem
  · exact short '\\' (by decide) d mem
  · exact short 'n' (by decide) d mem
  · exact short 'r' (by decide) d mem
  · exact short 't' (by decide) d mem
  · exact short 'b' (by decide) d mem
  · exact short 'f' (by decide) d mem
  · split at mem
    · rename_i lt
      exact List.all_iff_forall_prop.1 (control c.toNat lt) d mem
    · rename_i ge
      rw [List.mem_singleton.1 mem]
      exact Nat.le_of_not_lt ge

theorem le_toNat_jsonString {s : String} {c : Char} (mem : c ∈ jsonString s) : 0x20 ≤ c.toNat := by
  rw [jsonString, List.cons_append, List.mem_cons, List.mem_append, List.mem_singleton] at mem
  rcases mem with rfl | mem | rfl
  · decide
  · obtain ⟨d, -, mem⟩ := List.mem_flatMap.1 mem
    exact le_toNat_jsonChar mem
  · decide

mutual

/-- **No control character is in a JSON text.** -/
theorem le_toNat_chars (doc : Document) : ∀ c ∈ doc.chars, 0x20 ≤ c.toNat := by
  cases doc with
  | null => exact List.all_iff_forall_prop.1 (by decide)
  | bool b =>
    cases b with
    | false => exact List.all_iff_forall_prop.1 (by decide)
    | true => exact List.all_iff_forall_prop.1 (by decide)
  | number n => exact (isNumberText_textIn n).visible
  | string s => exact fun c mem => le_toNat_jsonString mem
  | array items =>
    cases items with
    | nil => exact List.all_iff_forall_prop.1 (by decide)
    | cons item rest =>
      rw [chars, List.cons_append, List.forall_mem_cons, List.forall_mem_append]
      exact ⟨by decide, le_toNat_chars item, le_toNat_itemChars rest⟩
  | object fields =>
    cases fields with
    | nil => exact List.all_iff_forall_prop.1 (by decide)
    | cons field rest =>
      obtain ⟨name, value⟩ := field
      rw [chars, List.cons_append, List.forall_mem_cons, List.forall_mem_append, fieldChars,
        List.forall_mem_append, List.forall_mem_cons, List.forall_mem_cons]
      exact ⟨by decide, ⟨fun c mem => le_toNat_jsonString mem, by decide, by decide,
        le_toNat_chars value⟩, le_toNat_fieldsChars rest⟩

theorem le_toNat_itemChars (items : List Document) : ∀ c ∈ itemChars items, 0x20 ≤ c.toNat := by
  cases items with
  | nil => exact List.forall_mem_singleton.2 (by decide)
  | cons item rest =>
    rw [itemChars, List.cons_append, List.cons_append, List.forall_mem_cons, List.forall_mem_cons,
      List.forall_mem_append]
    exact ⟨by decide, by decide, le_toNat_chars item, le_toNat_itemChars rest⟩

theorem le_toNat_fieldsChars (fields : List (String × Document)) :
    ∀ c ∈ fieldsChars fields, 0x20 ≤ c.toNat := by
  cases fields with
  | nil => exact List.forall_mem_singleton.2 (by decide)
  | cons field rest =>
    obtain ⟨name, value⟩ := field
    rw [fieldsChars, List.cons_append, List.cons_append, List.forall_mem_cons,
      List.forall_mem_cons, List.forall_mem_append, fieldChars, List.forall_mem_append,
      List.forall_mem_cons, List.forall_mem_cons]
    exact ⟨by decide, by decide, ⟨fun c mem => le_toNat_jsonString mem, by decide, by decide,
      le_toNat_chars value⟩, le_toNat_fieldsChars rest⟩

end

/-! ### A JSON text as a line -/

theorem exists_leads_chars (doc : Document) : ∃ c tail, doc.chars = c :: tail ∧ Leads c := by
  have leads : ∀ c ∈ ['n', 't', 'f', '"', '[', '\x7b'], Leads c :=
    List.all_iff_forall_prop.1 (by decide)
  cases doc with
  | null => exact ⟨'n', _, rfl, leads 'n' (by decide)⟩
  | bool b =>
    cases b with
    | false => exact ⟨'f', _, rfl, leads 'f' (by decide)⟩
    | true => exact ⟨'t', _, rfl, leads 't' (by decide)⟩
  | number n =>
    obtain ⟨c, tail, written, lead, -, -⟩ := (isNumberText_textIn n).leads
    exact ⟨c, tail, written, lead⟩
  | string s => exact ⟨'"', _, rfl, leads '"' (by decide)⟩
  | array items =>
    cases items with
    | nil => exact ⟨'[', _, rfl, leads '[' (by decide)⟩
    | cons item rest => exact ⟨'[', _, rfl, leads '[' (by decide)⟩
  | object fields =>
    cases fields with
    | nil => exact ⟨'\x7b', _, rfl, leads '\x7b' (by decide)⟩
    | cons field rest => exact ⟨'\x7b', _, rfl, leads '\x7b' (by decide)⟩

theorem exists_itemChars (items : List Document) : ∃ front, itemChars items = front ++ [']'] := by
  induction items with
  | nil => exact ⟨[], rfl⟩
  | cons item rest ih =>
    obtain ⟨front, shape⟩ := ih
    exact ⟨',' :: ' ' :: item.chars ++ front, by rw [itemChars, shape, List.append_assoc]⟩

theorem exists_fieldsChars (fields : List (String × Document)) :
    ∃ front, fieldsChars fields = front ++ ['\x7d'] := by
  induction fields with
  | nil => exact ⟨[], rfl⟩
  | cons field rest ih =>
    obtain ⟨front, shape⟩ := ih
    exact ⟨',' :: ' ' :: fieldChars field ++ front, by rw [fieldsChars, shape, List.append_assoc]⟩

theorem exists_last_chars (doc : Document) :
    ∃ front c, doc.chars = front ++ [c] ∧ Text.isBlank c = false := by
  cases doc with
  | null => exact ⟨['n', 'u', 'l'], 'l', rfl, by decide⟩
  | bool b =>
    cases b with
    | false => exact ⟨['f', 'a', 'l', 's'], 'e', rfl, by decide⟩
    | true => exact ⟨['t', 'r', 'u'], 'e', rfl, by decide⟩
  | number n => exact (isNumberText_textIn n).last
  | string s => exact ⟨'"' :: s.toList.flatMap jsonChar, '"', rfl, by decide⟩
  | array items =>
    cases items with
    | nil => exact ⟨['['], ']', rfl, by decide⟩
    | cons item rest =>
      obtain ⟨front, shape⟩ := exists_itemChars rest
      exact ⟨'[' :: item.chars ++ front, ']', by rw [chars, shape, List.append_assoc], by decide⟩
  | object fields =>
    cases fields with
    | nil => exact ⟨['\x7b'], '\x7d', rfl, by decide⟩
    | cons field rest =>
      obtain ⟨front, shape⟩ := exists_fieldsChars rest
      exact ⟨'\x7b' :: fieldChars field ++ front, '\x7d',
        by rw [chars, shape, List.append_assoc], by decide⟩

theorem toList_text (doc : Document) : doc.text.toList = doc.chars :=
  String.toList_ofList

/-- **A JSON text is one line.** -/
theorem isLine_text (doc : Document) : Text.IsLine doc.text.toList := by
  have apart : ∀ {c : Char}, c.toNat < 0x20 → c ∉ doc.chars := fun lt mem =>
    Nat.not_le.2 lt (le_toNat_chars doc _ mem)
  rw [toList_text]
  exact ⟨apart (by decide), apart (by decide)⟩

/-- **Nothing is lost** when a JSON text is stripped. -/
theorem strip_chars (doc : Document) : Text.strip doc.chars = doc.chars := by
  obtain ⟨first, tail, starts, solid, -⟩ := exists_leads_chars doc
  obtain ⟨front, last, ends, solid'⟩ := exists_last_chars doc
  exact Text.strip_eq_self starts ends solid solid'

end DocumentFilter.Document
