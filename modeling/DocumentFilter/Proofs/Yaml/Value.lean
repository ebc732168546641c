import DocumentFilter.Proofs.Config.Defects
import DocumentFilter.Proofs.Yaml.Node

/-!
# The value of a JSON text in YAML

The tree of a JSON text has a value in YAML whenever there is a tree: no tag is unknown, no key is a
collection and none merges another mapping, for a name is a string even where it is spelt like the
mark for merging. What is left of the text then is the value of each scalar
(`DocumentFilter.Json.Scalar.yaml`) and the entries of each object, written one after the other.

* `DocumentFilter.Json.Tree.yaml`: the value of a tree;
* `DocumentFilter.Json.builds_tree`: it is built without faults;
* `DocumentFilter.Json.read_layout`: **the value of a text**, if it is one that YAML reads.
-/

namespace DocumentFilter

namespace Yaml

/-! ### Nodes without faults -/

/-- **A node that has a value**, with no fault in it. -/
def Builds (node : Node) (value : Value) : Prop :=
  (build node).errors = [] ∧ (build node).value = value

theorem Builds.valueOf_eq {node : Node} {value : Value} (builds : Builds node value) :
    valueOf node = .ok value := by
  have none : Levels.first? ((build node).faults :: (build node).inside) = none := by
    rw [Levels.first?, List.flatten_cons]
    exact List.head?_eq_none_iff.2 builds.1
  rw [valueOf, none, builds.2]

theorem builds_scalar {tag : Tag} {text : List Char} {value : Value}
    (scalar : tag ≠ .sequence ∧ tag ≠ .mapping) (read : scalarValue tag text = .ok value) :
    Builds (.scalar tag text) value := by
  rw [Builds, build, buildScalar, read, if_neg (not_or.2 scalar)]
  exact ⟨rfl, rfl⟩

/-- Items without faults make a sequence without them. -/
theorem errors_buildSequence {items : List Built} (clean : ∀ item ∈ items, item.errors = []) :
    (buildSequence .sequence items).errors = [] := by
  refine List.eq_nil_iff_forall_not_mem.2 fun error mem => ?_
  obtain ⟨item, mem, found⟩ := mem_parts mem
  have found : error ∈ item.errors := found
  rw [clean item mem] at found
  cases found

/-- Entries without faults make a mapping without them. -/
theorem errors_buildMapping {text : Option (List Char)} {own : List BuiltEntry}
    (clean : ∀ entry ∈ own, entry.errors = []) :
    (buildMapping .mapping text ⟨[], own, true⟩).errors = [] := by
  refine List.eq_nil_iff_forall_not_mem.2 fun error mem => ?_
  obtain ⟨entry, mem, found⟩ := mem_parts mem
  have found : error ∈ entry.errors := found
  rw [clean entry mem] at found
  cases found

/-- An entry has no faults if its key and its value have none. -/
theorem errors_buildEntry {key value : Built} (fits : canBeKey key.value = true)
    (clean : key.errors = []) (clean' : value.errors = []) :
    (buildEntry key value).errors = [] := by
  obtain ⟨own, inner⟩ := List.append_eq_nil_iff.1 clean
  obtain ⟨own', inner'⟩ := List.append_eq_nil_iff.1 clean'
  have beside : (Levels.beside key.inside value.inside).flatten = [] :=
    List.eq_nil_iff_forall_not_mem.2 fun error mem =>
      (mem_beside mem).elim (by simp [inner]) (by simp [inner'])
  simp [BuiltEntry.errors, buildEntry, fits, own, own', beside]

end Yaml

namespace Json

open Yaml (Node Builds)

/-! ### Values -/

/-- The key that YAML makes of a name. -/
def Name.yaml (name : Name) : Value :=
  .string (String.ofList (name.pieces.flatMap Piece.yaml))

mutual

/-- **The value of a text in YAML.** -/
def Tree.yaml : Tree → Value
  | .scalar s => s.yaml
  | .emptyArray _ => .list []
  | .array _ items => .list items.yaml
  | .emptyObject _ => .map []
  | .object _ members => .map (members.yaml [])

/-- The values of items. -/
def Items.yaml : Items → List Value
  | .last item _ => [item.yaml]
  | .more item _ _ rest => item.yaml :: rest.yaml

/-- The entries of a mapping, after those that come before. -/
def Members.yaml (before : List (Value × Value)) : Members → List (Value × Value)
  | .last name value _ => Value.setEntry name.yaml value.yaml before
  | .more name value _ _ rest => rest.yaml (Value.setEntry name.yaml value.yaml before)

end

/-- No scalar is taken for a collection. -/
theorem Scalar.tag_ne (s : Scalar) : s.tag ≠ .sequence ∧ s.tag ≠ .mapping := by
  have plain : ∀ cs, Yaml.Tag.ofPlain cs ≠ .sequence ∧ Yaml.Tag.ofPlain cs ≠ .mapping := by
    intro cs
    rw [Yaml.Tag.ofPlain]
    split_ifs <;> decide
  rw [Scalar.tag]
  split
  · exact plain s.text
  · decide

theorem builds_name (name : Name) : Builds name.node name.yaml :=
  Yaml.builds_scalar (by decide) rfl

/-- The entry of a field, if its value has no faults. -/
theorem buildEntries_cons (name : Name) {node : Node} {value : Value} (builds : Builds node value)
    (rest : List (Node × Node)) :
    ∃ entry : Yaml.BuiltEntry, entry.errors = [] ∧ entry.key = name.yaml ∧ entry.value = value ∧
      Yaml.buildEntries ((name.node, node) :: rest) =
        ⟨(Yaml.buildEntries rest).merged, entry :: (Yaml.buildEntries rest).own,
          (Yaml.buildEntries rest).mergeable⟩ := by
  refine ⟨Yaml.buildEntry (Yaml.build name.node) (Yaml.build node),
    Yaml.errors_buildEntry rfl (builds_name name).1 builds.1, (builds_name name).2, builds.2, ?_⟩
  have plain : name.node.tag ≠ .merge := Yaml.Tag.noConfusion
  rw [Yaml.buildEntries, if_neg plain]

mutual

/-- **The value of a tree.** -/
theorem builds_tree (tree : Tree) : Builds tree.node tree.yaml := by
  match tree with
  | .scalar s => exact Yaml.builds_scalar s.tag_ne s.scalarValue_text
  | .emptyArray inside => exact ⟨rfl, rfl⟩
  | .array inside items =>
    obtain ⟨clean, values⟩ := builds_items items
    rw [Tree.node, Tree.yaml, Builds, Yaml.build]
    exact ⟨Yaml.errors_buildSequence clean, congrArg Value.list values⟩
  | .emptyObject inside => exact ⟨rfl, rfl⟩
  | .object inside members =>
    obtain ⟨own, built, clean, entries⟩ := builds_members members
    rw [Tree.node, Tree.yaml, Builds, Yaml.build, built]
    exact ⟨Yaml.errors_buildMapping clean, congrArg Value.map (entries [])⟩

/-- **The values of items.** -/
theorem builds_items (items : Items) :
    (∀ built ∈ Yaml.buildItems items.nodes, built.errors = []) ∧
      (Yaml.buildItems items.nodes).map (·.value) = items.yaml := by
  match items with
  | .last item after =>
    obtain ⟨clean, value⟩ := builds_tree item
    exact ⟨List.forall_mem_singleton.2 clean, congrArg ([·]) value⟩
  | .more item after behind more =>
    obtain ⟨clean, value⟩ := builds_tree item
    obtain ⟨others, values⟩ := builds_items more
    rw [Items.nodes, Items.yaml, Yaml.buildItems, List.map_cons, value, values]
    exact ⟨List.forall_mem_cons.2 ⟨clean, others⟩, rfl⟩

/-- **The entries of fields**, after those that come before. -/
theorem builds_members (members : Members) :
    ∃ own, Yaml.buildEntries members.entries = ⟨[], own, true⟩ ∧
      (∀ entry ∈ own, entry.errors = []) ∧ ∀ before,
        own.foldl (fun map entry => Value.setEntry entry.key entry.value map) before =
          members.yaml before := by
  match members with
  | .last name value after =>
    obtain ⟨entry, clean, key, same, built⟩ := buildEntries_cons name (builds_tree value) []
    rw [Members.entries, built]
    exact ⟨_, rfl, List.forall_mem_singleton.2 clean, fun before => by
      rw [Members.yaml, ← key, ← same]; rfl⟩
  | .more name value after behind more =>
    obtain ⟨entry, clean, key, same, built⟩ :=
      buildEntries_cons name (builds_tree value) more.entries
    obtain ⟨own, read, others, folded⟩ := builds_members more
    rw [read] at built
    rw [Members.entries, built]
    refine ⟨_, rfl, List.forall_mem_cons.2 ⟨clean, others⟩, fun before => ?_⟩
    rw [Members.yaml, List.foldl_cons, key, same, folded]

end

/-! ### Texts -/

/-- **A text that YAML reads**: all of its characters are allowed there, there is no tab in it, and
all names are attached to their colons. -/
def Layout.isYaml (layout : Layout) : Bool :=
  layout.chars.all Yaml.isAllowed && !layout.chars.contains '\t' && layout.tree.attached

/-- **The value of a JSON text in YAML**, unless the text is malformed there. -/
theorem read_layout (layout : Layout) (unbroken : Yaml.Unbroken layout.chars) :
    Yaml.read layout.chars = if layout.isYaml then .ok layout.tree.yaml else .error .malformed := by
  rw [Yaml.read, tokens_layout layout unbroken]
  by_cases allowed : layout.chars.all Yaml.isAllowed = true ∧ '\t' ∉ layout.chars
  · have whole : layout.isYaml = layout.tree.attached := by
      rw [Layout.isYaml, allowed.1, List.contains_eq_mem, decide_eq_false allowed.2]
      rfl
    rw [if_pos allowed, whole]
    dsimp only
    rw [ofTokens?_tokens]
    cases layout.tree.attached with
    | true => exact (builds_tree layout.tree).valueOf_eq
    | false => rfl
  · have partly : layout.isYaml = false := by
      refine Bool.eq_false_iff.2 fun whole => allowed ?_
      simp only [Layout.isYaml, Bool.and_eq_true, Bool.not_eq_true', List.contains_eq_mem,
        decide_eq_false_iff_not] at whole
      exact whole.1
    rw [if_neg allowed, partly, if_neg Bool.false_ne_true]
    rfl

end Json

end DocumentFilter
