import DocumentFilter.Proofs.Query.Grammar

/-!
# The canonical text of a query

The canonical text writes the steps of a query in one way. It can be read back for the
sequences of steps that are well formed and for no others, and these are the sequences that
reading yields at all.

One half is a matter of the grammar alone: the steps that a tree denotes are well formed,
since a name has a piece, a shape has a name, and a shape is taken without its repetitions.
For the other half a tree is built that spells the canonical text: each character becomes
the piece that writes it, and the tree denotes the steps because a shape without repetitions
is not changed by taking them out.

* `DocumentFilter.Query.wellFormed_of_parse`: what is read is well formed;
* `DocumentFilter.Query.exists_derivation`: what is well formed has a tree for its text;
* `DocumentFilter.Query.parse_text`: that text is read as the same steps.
-/

namespace DocumentFilter.Query

/-! ### Shapes without repetitions -/

theorem nodup_foldl_addName (names : List String) {read : List String} (h : read.Nodup) :
    (names.foldl addName read).Nodup := by
  induction names generalizing read with
  | nil => exact h
  | cons name names ih =>
    -- Only what is not there yet is added, so the names read stay without repetitions.
    refine ih ?_
    by_cases known : name ∈ read
    · rwa [addName, if_pos known]
    · rw [addName, if_neg known, List.nodup_append]
      refine ⟨h, by simp, fun other mem last hlast same => known ?_⟩
      rwa [← List.mem_singleton.1 hlast, ← same]

/-- Nothing is taken out of a list without repetitions. -/
theorem foldl_addName_of_nodup (names : List String) {read : List String}
    (h : (read ++ names).Nodup) : names.foldl addName read = read ++ names := by
  induction names generalizing read with
  | nil => simp
  | cons name names ih =>
    have fresh : name ∉ read := fun known => by
      rw [List.nodup_append] at h
      exact h.2.2 name known name (List.mem_cons_self ..) rfl
    rw [List.foldl_cons, addName, if_neg fresh, ih (by simpa using h)]
    simp

theorem nodup_eraseDups (names : List String) : names.eraseDups.Nodup :=
  foldl_addName_nil names ▸ nodup_foldl_addName names List.nodup_nil

theorem eraseDups_of_nodup {names : List String} (h : names.Nodup) : names.eraseDups = names := by
  rw [← foldl_addName_nil]
  exact foldl_addName_of_nodup names h

/-! ### What a tree denotes is well formed -/

theorem Quoted.name_ne (quoted : Quoted) : quoted.name ≠ "" := by
  rw [Quoted.name, ne_eq, String.ofList_eq_empty_iff, Quoted.letters, List.map_eq_nil_iff]
  exact quoted.pieces_ne

theorem Part.wellFormed_step (part : Part) : WellFormedStep part.step := by
  cases part with
  | segment name => exact name.name_ne
  | aggregate first more =>
    refine ⟨?_, fun name mem => ?_, nodup_eraseDups _⟩
    · exact List.ne_nil_of_mem (List.mem_eraseDups.2 (List.mem_cons_self ..))
    · obtain ⟨quoted, -, rfl⟩ := List.mem_map.1 (List.mem_eraseDups.1 mem)
      exact quoted.name_ne

theorem Part.isAggregate_step (part : Part) : part.step.isAggregate = part.isAggregate := by
  cases part <;> rfl

/-- The aggregates of a tree are those among the steps that it denotes. -/
theorem Derivation.aggregates_eq (tree : Derivation) :
    tree.aggregates = (tree.steps.filter Step.isAggregate).length := by
  have same : Step.isAggregate ∘ Part.step = Part.isAggregate := funext Part.isAggregate_step
  rw [← List.countP_eq_length_filter, Derivation.steps,
    List.countP_cons_of_neg Bool.false_ne_true, List.countP_map, same]
  rfl

/-- **The steps that a tree denotes are well formed** if there is at most one aggregate. -/
theorem Derivation.wellFormed_steps {tree : Derivation} (few : tree.aggregates ≤ 1) :
    WellFormed tree.steps := by
  refine ⟨⟨_, _, rfl⟩, tree.aggregates_eq ▸ few, ?_⟩
  intro step mem
  rcases List.mem_cons.1 mem with rfl | mem
  · exact tree.first.name_ne
  · obtain ⟨part, -, rfl⟩ := List.mem_map.1 mem
    exact part.wellFormed_step

/-- **What is read is well formed.** -/
theorem wellFormed_of_parse {raw : String} {query : Query} (h : parse raw = .ok query) :
    WellFormed query.steps := by
  obtain ⟨tree, -, few, rfl⟩ := parse_eq_ok_iff.1 h
  exact Derivation.wellFormed_steps few

/-! ### What is well formed has a tree -/

/-- The piece that writes a character in the canonical text. -/
def Piece.ofChar (c : Char) : Piece :=
  if special : c = '"' ∨ c = '\\' then .escaped c else .plain c (not_or.1 special)

theorem Piece.chars_ofChar (c : Char) : (Piece.ofChar c).chars = Step.nameChar c := by
  by_cases special : c = '"' ∨ c = '\\' <;>
    simp only [Piece.ofChar, Step.nameChar, special, dif_pos, dif_neg, if_pos, if_neg,
      not_false_eq_true, Piece.chars]

theorem Piece.char_ofChar (c : Char) : (Piece.ofChar c).char = c := by
  by_cases special : c = '"' ∨ c = '\\' <;>
    simp only [Piece.ofChar, special, dif_pos, dif_neg, not_false_eq_true, Piece.char]

/-- A name that is not empty, as the canonical text writes it. -/
def Quoted.ofName (name : String) (ne : name ≠ "") : Quoted where
  pieces := name.toList.map Piece.ofChar
  pieces_ne := by
    rw [ne_eq, List.map_eq_nil_iff, String.toList_eq_nil_iff]
    exact ne

@[simp] theorem Quoted.chars_ofName (name : String) (ne : name ≠ "") :
    (Quoted.ofName name ne).chars = Step.nameChars name.toList := by
  have pieces : Piece.chars ∘ Piece.ofChar = Step.nameChar := funext Piece.chars_ofChar
  rw [Quoted.chars, Quoted.ofName, List.flatMap_map, ← Function.comp_def, pieces]
  rfl

@[simp] theorem Quoted.name_ofName (name : String) (ne : name ≠ "") :
    (Quoted.ofName name ne).name = name := by
  have pieces : Piece.char ∘ Piece.ofChar = id := funext Piece.char_ofChar
  rw [Quoted.name, Quoted.letters, Quoted.ofName, List.map_map, pieces, List.map_id,
    String.ofList_toList]

/-- Names that are not empty are spelt behind commas. -/
theorem exists_quoted {names : List String} (ne : ∀ name ∈ names, name ≠ "") :
    ∃ quoted : List Quoted,
      Quoted.commaChars quoted = Step.shapeChars names ∧ quoted.map Quoted.name = names := by
  induction names with
  | nil => exact ⟨[], rfl, rfl⟩
  | cons name names ih =>
    obtain ⟨first, ne⟩ := List.forall_mem_cons.1 ne
    obtain ⟨quoted, chars, same⟩ := ih ne
    refine ⟨.ofName name first :: quoted, ?_, ?_⟩
    · simp [Quoted.commaChars, Step.shapeChars, chars]
    · simp [same]

/-- A well-formed aggregate is spelt by a part. -/
theorem exists_aggregate {shape : List String} (h : WellFormedStep (.aggregate shape)) :
    ∃ part : Part, part.chars = Step.chars (.aggregate shape) ∧ part.step = .aggregate shape := by
  obtain ⟨ne, names_ne, nodup⟩ := h
  obtain ⟨name, names, rfl⟩ := List.exists_cons_of_ne_nil ne
  obtain ⟨first, names_ne⟩ := List.forall_mem_cons.1 names_ne
  obtain ⟨quoted, chars, same⟩ := exists_quoted names_ne
  refine ⟨.aggregate (.ofName name first) quoted, ?_, ?_⟩
  · simp [Part.chars, Step.chars, chars]
  · simp [Part.step, same, eraseDups_of_nodup nodup]

/-- Well-formed steps after the first are spelt by parts. -/
theorem exists_parts {steps : List Step} (h : ∀ step ∈ steps, WellFormedStep step) :
    ∃ parts : List Part,
      parts.flatMap Part.chars = tailChars steps ∧ parts.map Part.step = steps := by
  induction steps with
  | nil => exact ⟨[], rfl, rfl⟩
  | cons step steps ih =>
    obtain ⟨first, h⟩ := List.forall_mem_cons.1 h
    obtain ⟨parts, chars, same⟩ := ih h
    cases step with
    | key name =>
      have name_ne : name ≠ "" := first
      refine ⟨.segment (.ofName name name_ne) :: parts, ?_, ?_⟩
      · simp [Part.chars, tailChars, Step.chars, chars]
      · simp [Part.step, same]
    | aggregate shape =>
      obtain ⟨part, part_chars, part_step⟩ := exists_aggregate first
      refine ⟨part :: parts, ?_, ?_⟩
      · simp [tailChars, part_chars, chars]
      · simp [part_step, same]

/-- **Well-formed steps have a tree** that spells their canonical text. -/
theorem exists_derivation {query : Query} (h : WellFormed query.steps) :
    ∃ tree : Derivation,
      tree.text = query.text ∧ tree.aggregates ≤ 1 ∧ tree.steps = query.steps := by
  obtain ⟨raw, steps⟩ := query
  obtain ⟨⟨name, rest, rfl⟩, few, each⟩ := h
  obtain ⟨(name_ne : name ≠ ""), each⟩ := List.forall_mem_cons.1 each
  obtain ⟨parts, chars, same⟩ := exists_parts each
  have denotes : (Derivation.mk (.ofName name name_ne) parts).steps = .key name :: rest := by
    simp [Derivation.steps, same]
  refine ⟨⟨.ofName name name_ne, parts⟩, ?_, ?_, denotes⟩
  · simp [Derivation.text, Derivation.chars, text, stepsChars, Step.chars, chars]
  · rw [Derivation.aggregates_eq, denotes]
    exact few

/-- The canonical text of well-formed steps is read as these steps. -/
theorem parse_text {query : Query} (h : WellFormed query.steps) :
    parse query.text = .ok ⟨query.text, query.steps⟩ := by
  obtain ⟨tree, spelt, few, denotes⟩ := exists_derivation h
  exact parse_eq_ok_iff.2 ⟨tree, spelt, few, by rw [denotes]⟩

/-- **The canonical text can be read back exactly for well-formed steps.** What is read from
any text is well formed, and its canonical text is read as the same steps. -/
theorem parse_text_iff_wellFormed :
    (∀ query : Query,
      (∃ read, parse query.text = .ok read ∧ read.steps = query.steps) ↔
        WellFormed query.steps) ∧
    ∀ raw query, parse raw = .ok query →
      WellFormed query.steps ∧
        ∃ read, parse query.text = .ok read ∧ read.steps = query.steps := by
  refine ⟨fun query => ⟨?_, fun h => ⟨_, parse_text h, rfl⟩⟩, fun raw query h => ?_⟩
  · rintro ⟨read, h, same⟩
    exact same ▸ wellFormed_of_parse h
  · have wellFormed := wellFormed_of_parse h
    exact ⟨wellFormed, _, parse_text wellFormed, rfl⟩

/-- A needless escape and a repeated name are gone from the canonical text, which is read as
the same steps. -/
theorem wellFormed_repeated_name :
    let raw := "\"a\"|=\x7b\"x\",\"\\x\"\x7d"
    let query : Query := ⟨raw, [.key "a", .aggregate ["x"]]⟩
    parse raw = .ok query ∧ query.text = "\"a\"|=\x7b\"x\"\x7d" ∧ WellFormed query.steps ∧
      ∃ read, parse query.text = .ok read ∧ read.steps = query.steps := by
  intro raw query
  have read : parse raw = .ok query :=
    parse_eq_ok_iff.2 ⟨⟨⟨[.plain 'a' (by decide)], by decide⟩,
      [.aggregate ⟨[.plain 'x' (by decide)], by decide⟩ [⟨[.escaped 'x'], by decide⟩]]⟩,
      rfl, by decide, rfl⟩
  exact ⟨read, rfl, parse_text_iff_wellFormed.2 raw query read⟩

end DocumentFilter.Query
