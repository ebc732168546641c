import DocumentFilter.Proofs.Query.Canonical
import Mathlib.Order.Bounds.Basic

/-!
# The shortest spelling of a query

A query can be spelt in two wasteful ways: by a backslash in front of a character that needs none,
and by a name that its shape repeats. The canonical text does neither, and the texts of a query
differ in nothing else. So it is the shortest of them, and a text is the canonical one exactly if
it wastes nothing (`DocumentFilter.Query.Derivation.Sparing`).

Length and equality are carried through the tree of a text together. A list **condenses** another
one under a condition if it is that list where the condition holds and shorter where it does not
(`DocumentFilter.Query.Condenses`). What is put together of parts condenses under the conditions of
all parts, since no part can make up for the length that another one loses.

* `DocumentFilter.Query.Condenses.append`: two parts, one behind the other;
* `DocumentFilter.Query.shapeChars_condenses`: a shape without some of its names;
* `DocumentFilter.Query.Derivation.condenses`: the canonical text and the text of a tree;
* `DocumentFilter.Query.text_isLeast_of_parse`: **the canonical text is the shortest**.
-/

namespace DocumentFilter.Query

/-! ### Spellings without waste -/

/-- A piece with no needless escape: a backslash stands in front of a quote or a backslash. -/
def Piece.Needed : Piece → Prop
  | .plain _ _ => True
  | .escaped c => c = '"' ∨ c = '\\'

/-- A quoted name with no needless escape. -/
def Quoted.Needed (quoted : Quoted) : Prop :=
  ∀ piece ∈ quoted.pieces, piece.Needed

namespace Part

/-- The quoted names of a part. -/
def quoted : Part → List Quoted
  | .segment name => [name]
  | .aggregate first rest => first :: rest

/-- A part whose shape, if it has one, repeats no name. -/
def Distinct : Part → Prop
  | .segment _ => True
  | .aggregate first rest => ((first :: rest).map Quoted.name).Nodup

end Part

/-- The quoted names of a tree. -/
def Derivation.quoted (tree : Derivation) : List Quoted :=
  tree.first :: tree.rest.flatMap Part.quoted

/-- **A tree that wastes nothing**: no character is escaped without need, and no shape repeats a
name. -/
structure Derivation.Sparing (tree : Derivation) : Prop where
  escapes : ∀ quoted ∈ tree.quoted, quoted.Needed
  names : ∀ part ∈ tree.rest, part.Distinct

/-! ### Lists that condense others -/

/-- **A list condenses another one** under a condition: where it holds they are the same, and
where it does not the first is shorter. -/
inductive Condenses {α : Type} (short long : List α) (spare : Prop) : Prop
  | same (h : spare) (eq : short = long)
  | shorter (waste : ¬spare) (lt : short.length < long.length)

namespace Condenses

variable {α : Type} {short long short' long' : List α} {spare spare' : Prop}

theorem refl (as : List α) : Condenses as as True :=
  .same trivial rfl

theorem congr (h : Condenses short long spare) (iff : spare ↔ spare') :
    Condenses short long spare' :=
  propext iff ▸ h

theorem length_le (h : Condenses short long spare) : short.length ≤ long.length := by
  cases h with
  | same _ eq => exact (congrArg List.length eq).le
  | shorter _ lt => exact lt.le

theorem eq_iff (h : Condenses short long spare) : short = long ↔ spare := by
  cases h with
  | same spare eq => exact iff_of_true eq spare
  | shorter waste lt => exact iff_of_false (fun eq => lt.ne (congrArg List.length eq)) waste

/-- **Two parts**, one behind the other. -/
theorem append (h : Condenses short long spare) (h' : Condenses short' long' spare') :
    Condenses (short ++ short') (long ++ long') (spare ∧ spare') := by
  have le' := h'.length_le
  cases h with
  | shorter waste lt =>
    refine .shorter (fun both => waste both.1) ?_
    rw [List.length_append, List.length_append]
    omega
  | same spare eq =>
    cases h' with
    | same spare' eq' => exact .same ⟨spare, spare'⟩ (by rw [eq, eq'])
    | shorter waste lt =>
      refine .shorter (fun both => waste both.2) ?_
      rw [eq, List.length_append, List.length_append]
      omega

/-- The same in front of both. -/
theorem append_left (as : List α) (h : Condenses short long spare) :
    Condenses (as ++ short) (as ++ long) spare :=
  ((refl as).append h).congr (iff_of_eq (true_and spare))

/-- The same behind both. -/
theorem append_right (h : Condenses short long spare) (as : List α) :
    Condenses (short ++ as) (long ++ as) spare :=
  (h.append (refl as)).congr (iff_of_eq (and_true spare))

/-- A list that condenses one which condenses a third. -/
theorem trans {longest : List α} (h : Condenses short long spare)
    (h' : Condenses long longest spare') : Condenses short longest (spare ∧ spare') := by
  cases h with
  | shorter waste lt => exact .shorter (fun both => waste both.1) (lt.trans_le h'.length_le)
  | same spare eq =>
    subst eq
    exact h'.congr (by simp [spare])

/-- Parts of a row, each of them condensed. -/
theorem flatMap {β : Type} {f g : β → List α} {Spare : β → Prop} {bs : List β}
    (each : ∀ b ∈ bs, Condenses (f b) (g b) (Spare b)) :
    Condenses (bs.flatMap f) (bs.flatMap g) (∀ b ∈ bs, Spare b) := by
  induction bs with
  | nil => exact (refl []).congr (by simp)
  | cons b bs ih =>
    obtain ⟨first, others⟩ := List.forall_mem_cons.1 each
    rw [List.flatMap_cons, List.flatMap_cons]
    exact (first.append (ih others)).congr List.forall_mem_cons.symm

end Condenses

/-! ### Names -/

/-- A character as the canonical text writes it, and the piece that it was read from. -/
theorem Piece.condenses (piece : Piece) :
    Condenses (Step.nameChar piece.char) piece.chars piece.Needed := by
  cases piece with
  | plain c ordinary =>
    exact .same trivial (if_neg (not_or.2 ordinary))
  | escaped c =>
    by_cases special : c = '"' ∨ c = '\\'
    · exact .same special (if_pos special)
    · refine .shorter special ?_
      rw [Piece.char, Step.nameChar, if_neg special]
      exact Nat.lt_succ_self 1

/-- A name as the canonical text writes it, and the quoted name that it was read from. -/
theorem Quoted.condenses (quoted : Quoted) :
    Condenses (Step.nameChars quoted.name.toList) quoted.chars quoted.Needed := by
  have pieces := Condenses.flatMap fun piece (_ : piece ∈ quoted.pieces) => piece.condenses
  have written : Step.nameChars quoted.name.toList =
      ['"'] ++ quoted.pieces.flatMap (fun piece => Step.nameChar piece.char) ++ ['"'] := by
    rw [Quoted.name, String.toList_ofList, Quoted.letters, Step.nameChars, List.flatMap_map]
    rfl
  rw [written]
  exact (pieces.append_left ['"']).append_right ['"']

/-! ### Shapes -/

/-- The names of a shape behind commas. -/
theorem commaChars_condenses (names : List Quoted) :
    Condenses (Step.shapeChars (names.map Quoted.name)) (Quoted.commaChars names)
      (∀ name ∈ names, name.Needed) := by
  induction names with
  | nil => exact (Condenses.refl []).congr (by simp)
  | cons name names ih =>
    exact ((name.condenses.append_left [',']).append ih).congr List.forall_mem_cons.symm

/-- **A shape without some of its names** has a shorter text, for each name takes up room. -/
theorem shapeChars_condenses {kept names : List String} (sub : kept.Sublist names) :
    Condenses (Step.shapeChars kept) (Step.shapeChars names) (kept = names) := by
  induction sub with
  | slnil => exact (Condenses.refl []).congr (by simp)
  | @cons kept names name sub ih =>
    have longer := sub.length_le
    refine .shorter (fun same => ?_) ?_
    · rw [same, List.length_cons] at longer
      omega
    · have le := ih.length_le
      rw [Step.shapeChars, List.length_append, List.length_cons]
      omega
  | @cons_cons kept names name sub ih =>
    exact (ih.append_left (',' :: Step.nameChars name.toList)).congr (by simp)

/-- Names that are added to a shape stand behind those that it has. -/
theorem foldl_addName_sublist (names read : List String) :
    (names.foldl addName read).Sublist (read ++ names) := by
  induction names generalizing read with
  | nil => simp
  | cons name names ih =>
    have added : (addName read name).Sublist (read ++ [name]) := by
      unfold addName
      split
      · exact List.sublist_append_left _ _
      · exact List.Sublist.refl _
    calc (names.foldl addName (addName read name)).Sublist (addName read name ++ names) := ih _
      List.Sublist _ (read ++ [name] ++ names) := added.append_right names
      _ = read ++ name :: names := by simp

/-- A shape without its repetitions. Its first name is kept, and it stands in front of the
commas. -/
theorem eraseDups_condenses (name : String) (names : List String) :
    Condenses (Step.chars (.aggregate (name :: names).eraseDups))
      (Step.chars (.aggregate (name :: names))) (name :: names).Nodup := by
  obtain ⟨kept, erased⟩ : ∃ kept, (name :: names).eraseDups = name :: kept :=
    ⟨_, List.eraseDups_cons⟩
  have sub : (name :: names).eraseDups.Sublist (name :: names) :=
    foldl_addName_nil (name :: names) ▸ foldl_addName_sublist (name :: names) []
  have whole : name :: kept = name :: names ↔ (name :: names).Nodup :=
    erased ▸ ⟨fun same => same ▸ nodup_eraseDups _, eraseDups_of_nodup⟩
  rw [erased, List.cons_sublist_cons] at sub
  rw [List.cons_inj_right] at whole
  have commas := (shapeChars_condenses sub).congr whole
  rw [erased]
  exact (commas.append_left _).append_right ['\x7d']

/-! ### Queries -/

/-- The text of the steps after the first, one by one. -/
theorem tailChars_eq_flatMap (steps : List Step) :
    tailChars steps = steps.flatMap fun step => tailChars [step] := by
  induction steps with
  | nil => rfl
  | cons step steps ih => cases step <;> simp [tailChars, ih]

/-- A part as the canonical text writes its step. -/
theorem Part.condenses (part : Part) : Condenses (tailChars [part.step]) part.chars
    ((∀ quoted ∈ part.quoted, quoted.Needed) ∧ part.Distinct) := by
  cases part with
  | segment name =>
    have written : tailChars [(segment name).step] = ['.'] ++ Step.nameChars name.name.toList :=
      List.append_nil _
    rw [written]
    exact (name.condenses.append_left ['.']).congr (by simp [quoted, Distinct])
  | aggregate first rest =>
    have names := first.condenses.append (commaChars_condenses rest)
    have spelt : Condenses (Step.chars (.aggregate ((first :: rest).map Quoted.name)))
        (aggregate first rest).chars (∀ quoted ∈ first :: rest, quoted.Needed) := by
      have braces := (names.append_left ['|', '=', '\x7b']).append_right ['\x7d']
      rw [← List.append_assoc, ← List.append_assoc] at braces
      exact braces.congr List.forall_mem_cons.symm
    have written : tailChars [(aggregate first rest).step] =
        Step.chars (.aggregate ((first :: rest).map Quoted.name).eraseDups) := List.append_nil _
    rw [written]
    exact ((eraseDups_condenses _ _).trans spelt).congr and_comm

/-- **The canonical text condenses** what a tree spells, under the condition that the tree wastes
nothing. -/
theorem Derivation.condenses (tree : Derivation) :
    Condenses (stepsChars tree.steps) tree.chars tree.Sparing := by
  have parts := Condenses.flatMap fun part (_ : part ∈ tree.rest) => part.condenses
  have written : stepsChars tree.steps = Step.nameChars tree.first.name.toList ++
      tree.rest.flatMap fun part => tailChars [part.step] := by
    rw [steps, stepsChars, tailChars_eq_flatMap, List.flatMap_map]
    rfl
  rw [written]
  refine (tree.first.condenses.append parts).congr ⟨fun needed => ?_, fun sparing => ?_⟩
  · obtain ⟨first, rest⟩ := needed
    refine ⟨List.forall_mem_cons.2 ⟨first, fun quoted mem => ?_⟩, fun part mem => (rest part mem).2⟩
    obtain ⟨part, part_mem, mem⟩ := List.mem_flatMap.1 mem
    exact (rest part part_mem).1 quoted mem
  · obtain ⟨first, rest⟩ := List.forall_mem_cons.1 sparing.escapes
    exact ⟨first, fun part mem =>
      ⟨fun quoted inside => rest quoted (List.mem_flatMap.2 ⟨part, mem, inside⟩),
        sparing.names part mem⟩⟩

/-- The canonical text of what was read from a tree. -/
theorem text_condenses {raw : String} {tree : Derivation} (spelt : tree.text = raw) :
    Condenses (Query.mk raw tree.steps).text.toList raw.toList tree.Sparing := by
  rw [Derivation.text_eq_iff.1 spelt, text, String.toList_ofList]
  exact tree.condenses

/-- **The canonical text says which steps a query has**: two queries that were read have the same
one exactly if they have the same steps. -/
theorem text_eq_text_iff {raw other : String} {query query' : Query}
    (h : parse raw = .ok query) (h' : parse other = .ok query') :
    query.text = query'.text ↔ query.steps = query'.steps := by
  constructor
  · intro same
    have read := parse_text (wellFormed_of_parse h)
    rw [same, parse_text (wellFormed_of_parse h')] at read
    exact (congrArg Query.steps (Except.ok.inj read)).symm
  · intro same
    rw [text, text, same]

/-- A query is read from no text that is shorter than its canonical one. -/
theorem length_text_le {raw : String} {query : Query} (h : parse raw = .ok query) :
    query.text.length ≤ raw.length := by
  obtain ⟨tree, spelt, -, rfl⟩ := parse_eq_ok_iff.1 h
  have le := (text_condenses spelt).length_le
  rwa [String.length_toList, String.length_toList] at le

/-- **The canonical text is the shortest spelling of a query.** No text that is read as its steps
is shorter. A text that is read is spelt by a tree, and it is the canonical text exactly if that
tree escapes nothing without need and repeats no name within a shape. Two texts that are read have
the same canonical text exactly if they have the same steps. -/
theorem text_isLeast_of_parse {raw : String} {query : Query} (h : parse raw = .ok query) :
    query.text.length ≤ raw.length ∧
    IsLeast { n | ∃ other read, parse other = .ok read ∧ read.steps = query.steps ∧
      other.length = n } query.text.length ∧
    (∃ tree : Derivation, tree.text = raw ∧ tree.aggregates ≤ 1) ∧
    (∀ tree : Derivation, tree.text = raw → tree.aggregates ≤ 1 →
      (query.text = raw ↔ tree.Sparing)) ∧
    ∀ other query', parse other = .ok query' →
      (query.text = query'.text ↔ query.steps = query'.steps) := by
  refine ⟨length_text_le h, ⟨?_, ?_⟩, ?_, ?_, fun other query' => text_eq_text_iff h⟩
  · exact ⟨query.text, _, parse_text (wellFormed_of_parse h), rfl, rfl⟩
  · rintro _ ⟨other, read, h', same, rfl⟩
    rw [← (text_eq_text_iff h' h).2 same]
    exact length_text_le h'
  · obtain ⟨tree, spelt, few, -⟩ := parse_eq_ok_iff.1 h
    exact ⟨tree, spelt, few⟩
  · intro tree spelt few
    have read := parse_eq_ok_iff.2 ⟨tree, spelt, few, rfl⟩
    rw [h] at read
    cases read
    rw [← String.toList_inj]
    exact (text_condenses spelt).eq_iff

/-- A needless escape and a repeated name take up six characters. -/
theorem text_isLeast_of_parse_repeated :
    let raw := "\"\\a\"|=\x7b\"x\",\"\\x\"\x7d"
    let query : Query := ⟨raw, [.key "a", .aggregate ["x"]]⟩
    let tree : Derivation := ⟨⟨[.escaped 'a'], by decide⟩,
      [.aggregate ⟨[.plain 'x' (by decide)], by decide⟩ [⟨[.escaped 'x'], by decide⟩]]⟩
    parse raw = .ok query ∧ tree.text = raw ∧ ¬tree.Sparing ∧ raw.length = 16 ∧
      IsLeast { n | ∃ other read, parse other = .ok read ∧ read.steps = query.steps ∧
        other.length = n } 10 := by
  intro raw query tree
  have spelt : tree.text = raw := rfl
  have read : parse raw = .ok query := parse_eq_ok_iff.2 ⟨tree, spelt, by decide, rfl⟩
  obtain ⟨-, least, -, sparing, -⟩ := text_isLeast_of_parse read
  have other : query.text ≠ raw := by decide
  have ten : query.text.length = 10 := by decide
  rw [ten] at least
  exact ⟨read, spelt, fun h => other ((sparing tree spelt (by decide)).2 h), by decide, least⟩

end DocumentFilter.Query
