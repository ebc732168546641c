import DocumentFilter.Proofs.Document.Legible
import DocumentFilter.Proofs.Document.Line

/-!
# Documents that are written and read

The documents that JSON texts denote are legible (`DocumentFilter.Json.legible_of_document`), and
the JSON text of a legible document is read as the document itself, down to the order of its fields
and the kind of its numbers.

Reading is bounded by a number of steps. The text is long enough a bound for what is written: an
array and each of its items take one step each, and at least one character.

* `DocumentFilter.Json.document_chars`: **a legible document is read back** from its text.
-/

namespace DocumentFilter

namespace Json

open Document (Legible chars itemChars fieldChars fieldsChars jsonString setField)

/-! ### Steps of the reader -/

/-- What is not blank is no space. -/
theorem isSpace_of_isBlank {c : Char} (solid : Text.isBlank c = false) : isSpace c = false := by
  have blanks : ∀ c ∈ [' ', '\t', '\n', '\r'], Text.isBlank c = true :=
    List.all_iff_forall_prop.1 (by decide)
  have apart : ∀ blank ∈ [' ', '\t', '\n', '\r'], c ≠ blank := by
    rintro blank mem rfl
    rw [blanks c mem] at solid
    cases solid
  simp [isSpace, apart]

theorem skip_cons {c : Char} (solid : isSpace c = false) (tail : List Char) :
    skip (c :: tail) = c :: tail :=
  List.dropWhile_cons_of_neg (by simp [solid])

/-- The space behind a comma or a colon is passed over. -/
theorem skip_space {c : Char} (solid : isSpace c = false) (tail : List Char) :
    skip (' ' :: c :: tail) = c :: tail := by
  rw [skip, List.dropWhile_cons_of_pos (by decide)]
  exact skip_cons solid tail

section Steps

variable [StandIns]

/-- An array that does not close at once has items. -/
theorem value_array {c : Char} (solid : isSpace c = false) (close : c ≠ ']') (fuel : Nat)
    (tail : List Char) : value (fuel + 1) ('[' :: c :: tail) = items fuel [] (c :: tail) := by
  rw [value, skip_cons solid]
  split
  · rename_i same
    exact absurd (List.cons.inj same).1 close
  · rfl

/-- An object that does not close at once has fields. -/
theorem value_object {c : Char} (solid : isSpace c = false) (close : c ≠ '\x7d') (fuel : Nat)
    (tail : List Char) : value (fuel + 1) ('\x7b' :: c :: tail) = members fuel [] (c :: tail) := by
  rw [value, skip_cons solid]
  split
  · rename_i same
    exact absurd (List.cons.inj same).1 close
  · rfl

variable {fuel : Nat} {item : Document} {cs rest : List Char}

/-- The last item closes the array. -/
theorem items_last (read : value fuel cs = .ok (item, ']' :: rest)) (before : List Document) :
    items (fuel + 1) before cs = .ok (.array (item :: before).reverse, rest) := by
  have close : skip (']' :: rest) = ']' :: rest := skip_cons (by decide) _
  rw [items, read]
  simp only [bind, Except.bind, close]
  rfl

/-- Behind a comma the items go on. -/
theorem items_next {c : Char} {tail : List Char} (solid : isSpace c = false)
    (read : value fuel cs = .ok (item, ',' :: ' ' :: c :: tail)) (before : List Document) :
    items (fuel + 1) before cs = items fuel (item :: before) (c :: tail) := by
  have comma : skip (',' :: ' ' :: c :: tail) = ',' :: ' ' :: c :: tail := skip_cons (by decide) _
  rw [items, read]
  simp only [bind, Except.bind, comma, skip_space solid]

variable {name : String} {behind : List Char} (named : fieldName cs = .ok (name, behind))
include named

/-- The last field closes the object. -/
theorem members_last (read : value fuel behind = .ok (item, '\x7d' :: rest))
    (before : List (String × Document)) :
    members (fuel + 1) before cs = .ok (.object (setField name item before), rest) := by
  have close : skip ('\x7d' :: rest) = '\x7d' :: rest := skip_cons (by decide) _
  rw [members, named]
  simp only [bind, Except.bind, read, close]
  rfl

/-- Behind a comma the fields go on. -/
theorem members_next {c : Char} {tail : List Char} (solid : isSpace c = false)
    (read : value fuel behind = .ok (item, ',' :: ' ' :: c :: tail))
    (before : List (String × Document)) :
    members (fuel + 1) before cs = members fuel (setField name item before) (c :: tail) := by
  have comma : skip (',' :: ' ' :: c :: tail) = ',' :: ' ' :: c :: tail := skip_cons (by decide) _
  rw [members, named]
  simp only [bind, Except.bind, read, comma, skip_space solid]

end Steps

/-- A name that is new comes at the end. -/
theorem setField_of_nodup {field : String × Document} {before others : List (String × Document)}
    (nodup : ((before ++ field :: others).map Prod.fst).Nodup) :
    setField field.1 field.2 before = before ++ [field] := by
  induction before with
  | nil => rfl
  | cons first before ih =>
    rw [List.cons_append, List.map_cons, List.nodup_cons] at nodup
    have new : first.1 ≠ field.1 := by
      intro same
      refine nodup.1 (same ▸ ?_)
      exact List.mem_map_of_mem (List.mem_append_right before (List.mem_cons_self ..))
    rw [setField, if_neg new, ih nodup.2, List.cons_append]

/-! ### Reading what is written -/

/-- **The text of a document is read back**, in front of whatever may come after a value. -/
def Reads [StandIns] (doc : Document) : Prop :=
  ∀ (fuel : Nat) (rest : List Char), doc.chars.length ≤ fuel → Closes rest →
    value fuel (doc.chars ++ rest) = .ok (doc, rest)

/-- A document whose text is plain is read back if its plain text is. -/
theorem reads_of_plain [StandIns] {doc : Document} {c : Char} {tail : List Char}
    (written : doc.chars = c :: tail) (array : c ≠ '[') (object : c ≠ '\x7b')
    (read : ∀ {rest}, Closes rest → plain (doc.chars ++ rest) = .ok (doc, rest)) : Reads doc := by
  intro fuel rest enough closes
  obtain ⟨fuel, rfl⟩ : ∃ n, fuel = n + 1 := by
    rw [written, List.length_cons] at enough
    exact ⟨fuel - 1, by omega⟩
  rw [← read closes, written, List.cons_append]
  exact value_eq_plain array object fuel _

theorem closes_itemChars (items : List Document) (rest : List Char) :
    Closes (itemChars items ++ rest) := by
  cases items with
  | nil => exact closes_cons (by decide) _
  | cons item others => exact closes_cons (by decide) _

theorem closes_fieldsChars (fields : List (String × Document)) (rest : List Char) :
    Closes (fieldsChars fields ++ rest) := by
  cases fields with
  | nil => exact closes_cons (by decide) _
  | cons field others => exact closes_cons (by decide) _

/-- What stands behind a comma or a colon starts with no space. -/
theorem exists_solid_append (doc : Document) (rest : List Char) :
    ∃ c tail, doc.chars ++ rest = c :: tail ∧ isSpace c = false := by
  obtain ⟨c, tail, starts, solid, -⟩ := Document.exists_leads_chars doc
  exact ⟨c, tail ++ rest, by rw [starts, List.cons_append], isSpace_of_isBlank solid⟩

/-- **The items of an array are read back**, behind those that were read. -/
theorem items_chars [StandIns] {item : Document} {others : List Document}
    (all : ∀ one ∈ item :: others, Reads one) (before : List Document) {fuel : Nat}
    (enough : (item.chars ++ itemChars others).length ≤ fuel) (rest : List Char) :
    items fuel before (item.chars ++ itemChars others ++ rest) =
      .ok (.array (before.reverse ++ item :: others), rest) := by
  -- the bound goes down by one an item, and the text that is left by at least as much
  induction others generalizing item before fuel with
  | nil =>
    rw [List.length_append, itemChars, List.length_singleton] at enough
    obtain ⟨fuel, rfl⟩ : ∃ n, fuel = n + 1 := ⟨fuel - 1, by omega⟩
    have read := all item (List.mem_cons_self ..) fuel _ (by omega) (closes_itemChars [] rest)
    rw [List.append_assoc, items_last read, List.reverse_cons]
    rfl
  | cons next others ih =>
    obtain ⟨reads, all⟩ := List.forall_mem_cons.1 all
    obtain ⟨c, tail, starts, solid⟩ := exists_solid_append next (itemChars others ++ rest)
    have comma : itemChars (next :: others) ++ rest = ',' :: ' ' :: c :: tail := by
      rw [← starts, itemChars, List.append_assoc]
      rfl
    rw [List.length_append, itemChars, List.length_append, List.length_cons,
      List.length_cons] at enough
    obtain ⟨fuel, rfl⟩ : ∃ n, fuel = n + 1 := ⟨fuel - 1, by omega⟩
    have read := reads fuel _ (by omega) (closes_itemChars (next :: others) rest)
    have behind : items fuel (item :: before) (next.chars ++ itemChars others ++ rest) = _ :=
      ih all (item :: before) (by rw [List.length_append]; omega)
    rw [comma] at read
    rw [List.append_assoc, starts, List.reverse_cons, List.append_assoc] at behind
    rw [List.append_assoc, comma, items_next solid read, behind, List.singleton_append]

/-- The name of a field is read, with what comes between it and its value. -/
theorem fieldName_fieldChars [StandIns] (field : String × Document) (rest : List Char) :
    fieldName (fieldChars field ++ rest) = .ok (field.1, field.2.chars ++ rest) := by
  obtain ⟨name, value⟩ := field
  obtain ⟨c, tail, starts, solid⟩ := exists_solid_append value rest
  have colon : skip (':' :: ' ' :: c :: tail) = ':' :: ' ' :: c :: tail := skip_cons (by decide) _
  have written : fieldChars (name, value) ++ rest =
      '"' :: (name.toList.flatMap Document.jsonChar ++ '"' :: ':' :: ' ' :: c :: tail) := by
    rw [← starts, fieldChars, jsonString, List.append_assoc, List.append_assoc]
    rfl
  rw [written, fieldName, starts]
  simp only [string_jsonString, bind, Except.bind, colon, skip_space solid]
  rfl

theorem length_lt_fieldChars (field : String × Document) :
    field.2.chars.length < (fieldChars field).length := by
  rw [fieldChars, List.length_append, List.length_cons, List.length_cons]
  omega

theorem exists_fieldChars (field : String × Document) (rest : List Char) :
    ∃ tail, fieldChars field ++ rest = '"' :: tail := by
  obtain ⟨name, value⟩ := field
  exact ⟨_, rfl⟩

/-- **The fields of an object are read back**, behind those that were read, if all names are
different. -/
theorem members_chars [StandIns] {field : String × Document} {others : List (String × Document)}
    (all : ∀ one ∈ field :: others, Reads one.2) {before : List (String × Document)}
    (nodup : ((before ++ field :: others).map Prod.fst).Nodup) {fuel : Nat}
    (enough : (fieldChars field ++ fieldsChars others).length ≤ fuel) (rest : List Char) :
    members fuel before (fieldChars field ++ fieldsChars others ++ rest) =
      .ok (.object (before ++ field :: others), rest) := by
  induction others generalizing field before fuel with
  | nil =>
    have long := length_lt_fieldChars field
    rw [List.length_append, fieldsChars, List.length_singleton] at enough
    obtain ⟨fuel, rfl⟩ : ∃ n, fuel = n + 1 := ⟨fuel - 1, by omega⟩
    have read := all field (List.mem_cons_self ..) fuel _ (by omega) (closes_fieldsChars [] rest)
    rw [List.append_assoc, members_last (fieldName_fieldChars field _) read,
      setField_of_nodup nodup]
    rfl
  | cons next others ih =>
    have long := length_lt_fieldChars field
    obtain ⟨reads, all⟩ := List.forall_mem_cons.1 all
    obtain ⟨tail, starts⟩ := exists_fieldChars next (fieldsChars others ++ rest)
    have comma : fieldsChars (next :: others) ++ rest = ',' :: ' ' :: '"' :: tail := by
      rw [← starts, fieldsChars, List.append_assoc]
      rfl
    rw [List.length_append, fieldsChars, List.length_append, List.length_cons,
      List.length_cons] at enough
    obtain ⟨fuel, rfl⟩ : ∃ n, fuel = n + 1 := ⟨fuel - 1, by omega⟩
    have read := reads fuel _ (by omega) (closes_fieldsChars (next :: others) rest)
    have shift : before ++ [field] ++ next :: others = before ++ field :: next :: others :=
      List.append_assoc ..
    have behind : members fuel (before ++ [field]) (fieldChars next ++ fieldsChars others ++ rest) =
        .ok (.object (before ++ [field] ++ next :: others), rest) :=
      ih all (shift ▸ nodup) (by rw [List.length_append]; omega)
    have named := fieldName_fieldChars field (fieldsChars (next :: others) ++ rest)
    rw [comma] at read named
    rw [List.append_assoc, starts, shift] at behind
    rw [List.append_assoc, comma, members_next named (by decide) read, setField_of_nodup nodup,
      behind]

/-- **A legible document is read back**, in front of whatever may come after a value. -/
theorem reads_of_legible [StandIns] {doc : Document} (legible : Legible doc) : Reads doc := by
  induction legible with
  | null => exact reads_of_plain rfl (by decide) (by decide) fun _ => rfl
  | bool b =>
    cases b with
    | false => exact reads_of_plain rfl (by decide) (by decide) fun _ => rfl
    | true => exact reads_of_plain rfl (by decide) (by decide) fun _ => rfl
  | @number n fits =>
    obtain ⟨c, tail, written, -, array, object⟩ := (Document.isNumberText_textIn n).leads
    refine reads_of_plain written array object fun closes => ?_
    rw [chars, plain_number fits closes]
  | string s =>
    refine reads_of_plain rfl (by decide) (by decide) fun _ => ?_
    rw [chars, jsonString, List.append_assoc, List.cons_append, List.singleton_append, plain,
      string_jsonString]
    rfl
  | @array items _ reads =>
    intro fuel rest enough _
    cases items with
    | nil =>
      obtain ⟨fuel, rfl⟩ : ∃ n, fuel = n + 1 := ⟨fuel - 1, by
        rw [chars, List.length_cons] at enough
        omega⟩
      rfl
    | cons item others =>
      rw [chars, List.cons_append, List.length_cons] at enough
      obtain ⟨fuel, rfl⟩ : ∃ n, fuel = n + 1 := ⟨fuel - 1, by omega⟩
      obtain ⟨c, tail, starts, solid, close, -⟩ := Document.exists_leads_chars item
      have read := items_chars reads [] (Nat.le_of_succ_le_succ enough) rest
      rw [starts, List.cons_append] at read
      rw [chars, starts]
      exact (value_array (isSpace_of_isBlank solid) close fuel _).trans read
  | @object fields nodup _ reads =>
    intro fuel rest enough _
    cases fields with
    | nil =>
      obtain ⟨fuel, rfl⟩ : ∃ n, fuel = n + 1 := ⟨fuel - 1, by
        rw [chars, List.length_cons] at enough
        omega⟩
      rfl
    | cons field others =>
      rw [chars, List.cons_append, List.length_cons] at enough
      obtain ⟨fuel, rfl⟩ : ∃ n, fuel = n + 1 := ⟨fuel - 1, by omega⟩
      obtain ⟨tail, starts⟩ := exists_fieldChars field (fieldsChars others)
      have read : members fuel [] (fieldChars field ++ fieldsChars others ++ rest) = _ :=
        members_chars reads nodup (Nat.le_of_succ_le_succ enough) rest
      rw [starts] at read
      rw [chars, List.cons_append, starts]
      exact (value_object (by decide) (by decide) fuel _).trans read

/-- **A legible document is read back** from its text. -/
theorem document_chars [StandIns] {doc : Document} (legible : Legible doc) :
    document doc.chars = .ok doc := by
  obtain ⟨c, tail, starts, solid, -, mark⟩ := Document.exists_leads_chars doc
  have read := reads_of_legible legible (2 * doc.chars.length + 1) [] (by omega) closes_nil
  have skipped : skip doc.chars = doc.chars := by
    rw [starts]
    exact skip_cons (isSpace_of_isBlank solid) tail
  rw [List.append_nil] at read
  unfold document
  split
  · rename_i shape
    rw [starts] at shape
    exact absurd (List.cons.inj shape).1 mark
  · rw [skipped, read]
    rfl

/-- The same on strings. -/
theorem read_text [StandIns] {doc : Document} (legible : Legible doc) :
    read doc.text = .ok doc := by
  rw [read, Document.toList_text, document_chars legible]

end Json

end DocumentFilter
