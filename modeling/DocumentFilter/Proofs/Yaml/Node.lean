import DocumentFilter.Proofs.Yaml.Token
import DocumentFilter.Yaml.Node

/-!
# The tree of a JSON text in YAML

The tokens of a JSON text make up a tree with a sequence for each array and a mapping for each
object, if all names are attached to their colons. A name that is not has no key in front of it, so
it is an entry without a value, and the colon behind it is no comma: there is no tree then.

What is left of the tokens behind a value is arbitrary, and the steps that are needed are bounded by
three times the number of its tokens, as they are for a whole text.

* `DocumentFilter.Json.Tree.node`: the node of a value;
* `DocumentFilter.Json.node_tree`: it is read off its tokens if all names are attached;
* `DocumentFilter.Json.ofTokens?_tokens`: **the tree of a text**.
-/

namespace DocumentFilter

namespace Yaml

namespace Building

variable {tokens : List Token} {token : Token} {anchors : List (List Char × Node)}

/-! ### Steps -/

/-- A token that starts a value of a JSON text. -/
def isOpening : Token → Bool
  | .scalar _ _ => true
  | .flowSequenceStart => true
  | .flowMappingStart => true
  | _ => false

/-- What comes in front of an entry: a comma, unless it is the first. -/
def entryMark (first : Bool) : List Token :=
  if first then [] else [.flowEntry]

theorem accept_self :
    (accept token).run ⟨token :: tokens, anchors⟩ = some (true, ⟨tokens, anchors⟩) := by
  simp [accept, sees, peek, skip]

theorem accept_of_ne {other : Token} (ne : token ≠ other) :
    (accept other).run ⟨token :: tokens, anchors⟩ = some (false, ⟨token :: tokens, anchors⟩) := by
  simp [accept, sees, peek, ne]

theorem require_self :
    (require token).run ⟨token :: tokens, anchors⟩ = some ((), ⟨tokens, anchors⟩) := by
  simp [require, accept_self]

theorem require_of_ne {other : Token} (ne : token ≠ other) :
    (require other).run ⟨token :: tokens, anchors⟩ = none := by
  simp [require, accept_of_ne ne]

theorem peek_cons :
    peek.run ⟨token :: tokens, anchors⟩ = some (some token, ⟨token :: tokens, anchors⟩) :=
  rfl

theorem skip_cons : skip.run ⟨token :: tokens, anchors⟩ = some ((), ⟨tokens, anchors⟩) :=
  rfl

/-- A value has neither an anchor nor a tag. -/
theorem properties_of_isOpening (opening : isOpening token = true) :
    properties.run ⟨token :: tokens, anchors⟩ =
      some ((none, none), ⟨token :: tokens, anchors⟩) := by
  cases token with
  | scalar isPlain text => rfl
  | flowSequenceStart => rfl
  | flowMappingStart => rfl
  | _ => cases opening

theorem node_scalar (fuel : Nat) (inBlock indentless isPlain : Bool) (text : List Char) :
    (node (fuel + 1) inBlock indentless).run ⟨.scalar isPlain text :: tokens, anchors⟩ =
      some (.scalar (if isPlain then .ofPlain text else .text) text, ⟨tokens, anchors⟩) := by
  rw [node]
  simp only [StateT.run_bind, peek_cons, Option.bind_eq_bind, Option.bind_some]
  rw [properties_of_isOpening rfl]
  simp [peek_cons, skip_cons, scalarTag, mark]

theorem node_sequence (fuel : Nat) (inBlock indentless : Bool) :
    (node (fuel + 1) inBlock indentless).run ⟨.flowSequenceStart :: tokens, anchors⟩ =
      ((flowItems fuel true).run ⟨tokens, anchors⟩).map fun (items, p) =>
        (.sequence .sequence items, p) := by
  rw [node]
  simp only [StateT.run_bind, peek_cons, Option.bind_eq_bind, Option.bind_some]
  rw [properties_of_isOpening rfl]
  simp [peek_cons, skip_cons, tagOr, mark, complete, Option.map_eq_bind]

theorem node_mapping (fuel : Nat) (inBlock indentless : Bool) :
    (node (fuel + 1) inBlock indentless).run ⟨.flowMappingStart :: tokens, anchors⟩ =
      ((flowEntries fuel true).run ⟨tokens, anchors⟩).map fun (entries, p) =>
        (.mapping .mapping entries, p) := by
  rw [node]
  simp only [StateT.run_bind, peek_cons, Option.bind_eq_bind, Option.bind_some]
  rw [properties_of_isOpening rfl]
  simp [peek_cons, skip_cons, tagOr, mark, complete, Option.map_eq_bind]

theorem nodeUnless_of_isOpening (fuel : Nat) (inBlock indentless : Bool) {endings : List Token}
    (opening : isOpening token = true) (none : (endings.all fun other => !isOpening other) = true) :
    (nodeUnless (fuel + 1) endings inBlock indentless).run ⟨token :: tokens, anchors⟩ =
      (node fuel inBlock indentless).run ⟨token :: tokens, anchors⟩ := by
  have apart : token ∉ endings := fun mem => by
    simpa [opening] using List.all_eq_true.1 none token mem
  simp [nodeUnless, sees, peek, apart]

/-- **A sequence ends** at its bracket. -/
theorem flowItems_end (fuel : Nat) (first : Bool) :
    (flowItems (fuel + 1) first).run ⟨.flowSequenceEnd :: tokens, anchors⟩ =
      some ([], ⟨tokens, anchors⟩) := by
  simp [flowItems, accept_self]

/-- **An item** is a node, and further ones follow. -/
theorem flowItems_item (fuel : Nat) (first : Bool) (opening : isOpening token = true) :
    (flowItems (fuel + 1) first).run ⟨entryMark first ++ token :: tokens, anchors⟩ =
      ((node fuel false false).run ⟨token :: tokens, anchors⟩).bind fun (item, p) =>
        ((flowItems fuel false).run p).map fun (items, p) => (item :: items, p) := by
  have apart : token ≠ .key ∧ token ≠ .flowSequenceEnd := by
    constructor <;> rintro rfl <;> cases opening
  cases first with
  | true =>
    simp [flowItems, entryMark, accept_of_ne apart.1, accept_of_ne apart.2, Option.map_eq_bind]
  | false =>
    simp [flowItems, entryMark, accept_of_ne, require_self, apart, Option.map_eq_bind]

/-- **A mapping ends** at its brace. -/
theorem flowEntries_end (fuel : Nat) (first : Bool) :
    (flowEntries (fuel + 1) first).run ⟨.flowMappingEnd :: tokens, anchors⟩ =
      some ([], ⟨tokens, anchors⟩) := by
  simp [flowEntries, accept_self]

/-- **An entry with a key** has a node as its value, and further ones follow. -/
theorem flowEntries_key (fuel : Nat) (first isPlain : Bool) (text : List Char)
    (opening : isOpening token = true) :
    (flowEntries (fuel + 3) first).run
        ⟨entryMark first ++ .key :: .scalar isPlain text :: .value :: token :: tokens, anchors⟩ =
      ((node fuel false false).run ⟨token :: tokens, anchors⟩).bind fun (value, p) =>
        ((flowEntries (fuel + 2) false).run p).map fun (entries, p) =>
          ((.scalar (if isPlain then .ofPlain text else .text) text, value) :: entries, p) := by
  have key : ∀ {tokens : List Token}, (nodeUnless (fuel + 2) [.value, .flowEntry, .flowMappingEnd]
      false false).run ⟨.scalar isPlain text :: tokens, anchors⟩ =
        some (.scalar (if isPlain then .ofPlain text else .text) text, ⟨tokens, anchors⟩) :=
    fun {_} => (nodeUnless_of_isOpening (fuel + 1) false false rfl rfl).trans (node_scalar ..)
  have value : (flowValue (fuel + 2) .flowMappingEnd).run ⟨.value :: token :: tokens, anchors⟩ =
      (node fuel false false).run ⟨token :: tokens, anchors⟩ := by
    have opens : (nodeUnless (fuel + 1) [.flowEntry, .flowMappingEnd] false false).run
        ⟨token :: tokens, anchors⟩ = (node fuel false false).run ⟨token :: tokens, anchors⟩ :=
      nodeUnless_of_isOpening fuel false false opening rfl
    simp [flowValue, accept_self, opens]
  rw [flowEntries]
  cases first with
  | true => simp [entryMark, accept_self, accept_of_ne, key, value, Option.map_eq_bind]
  | false =>
    simp [entryMark, accept_self, accept_of_ne, require_self, key, value, Option.map_eq_bind]

/-- **What is no key has no value**: another entry must come behind it. -/
theorem flowEntries_value (fuel : Nat) (first isPlain : Bool) (text : List Char) :
    (flowEntries fuel first).run
      ⟨entryMark first ++ .scalar isPlain text :: .value :: tokens, anchors⟩ = none := by
  have rest : ∀ fuel, (flowEntries fuel false).run ⟨.value :: tokens, anchors⟩ = none := by
    intro fuel
    cases fuel with
    | zero => rfl
    | succ fuel => simp [flowEntries, accept_of_ne, require_of_ne]
  cases fuel with
  | zero => rfl
  | succ fuel =>
    have key :
        ((node fuel false false).run ⟨.scalar isPlain text :: .value :: tokens, anchors⟩).bind
        (fun (key, p) => ((flowEntries fuel false).run p).map fun (entries, p) =>
          ((key, Node.empty) :: entries, p)) = none := by
      cases fuel with
      | zero => rfl
      | succ fuel => simp [node_scalar, rest]
    rw [flowEntries]
    cases first with
    | true => simpa [entryMark, accept_of_ne, Option.map_eq_bind] using key
    | false => simpa [entryMark, accept_of_ne, require_self, Option.map_eq_bind] using key

/-- **A document that starts with a value** is that value, if nothing comes behind it. -/
theorem document_of_isOpening (opening : isOpening token = true) (fuel : Nat) :
    (document (fuel + 1)).run ⟨token :: tokens, anchors⟩ =
      ((node (fuel + 1) true false).run ⟨token :: tokens, anchors⟩).bind fun (root, p) =>
        ((documentEnds (fuel + 1)).run p).bind fun (_, p) =>
          if p.tokens.head?.isNone then some (some root, p) else none := by
  have ends : ∀ (root : Node) (p : Pending), (if p.tokens = [] then pure (some root) else failure :
      Building (Option Node)).run p = if p.tokens = [] then some (some root, p) else none := by
    intro root p
    split
    · rfl
    · rfl
  cases token with
  | scalar isPlain text => simp [document, atEnd, peek, ends]
  | flowSequenceStart => simp [document, atEnd, peek, ends]
  | flowMappingStart => simp [document, atEnd, peek, ends]
  | _ => cases opening

end Building

end Yaml

namespace Json

open Yaml (Node Token)

/-! ### Trees -/

mutual

/-- **All names are attached** to their colons. -/
def Tree.attached : Tree → Bool
  | .scalar _ => true
  | .emptyArray _ => true
  | .array _ items => items.attached
  | .emptyObject _ => true
  | .object _ members => members.attached

/-- The same of items. -/
def Items.attached : Items → Bool
  | .last item _ => item.attached
  | .more item _ _ rest => item.attached && rest.attached

/-- The same of fields. -/
def Members.attached : Members → Bool
  | .last name value _ => name.attached && value.attached
  | .more name value _ _ rest => name.attached && (value.attached && rest.attached)

end

/-- The node of a name. -/
def Name.node (name : Name) : Node :=
  .scalar .text (name.pieces.flatMap Piece.yaml)

mutual

/-- The node of a value. -/
def Tree.node : Tree → Node
  | .scalar s => .scalar s.tag s.text
  | .emptyArray _ => .sequence .sequence []
  | .array _ items => .sequence .sequence items.nodes
  | .emptyObject _ => .mapping .mapping []
  | .object _ members => .mapping .mapping members.entries

/-- The nodes of items. -/
def Items.nodes : Items → List Node
  | .last item _ => [item.node]
  | .more item _ _ rest => item.node :: rest.nodes

/-- The entries of fields. -/
def Members.entries : Members → List (Node × Node)
  | .last name value _ => [(name.node, value.node)]
  | .more name value _ _ rest => (name.node, value.node) :: rest.entries

end

open Yaml Yaml.Building

theorem Tree.exists_tokens (tree : Tree) :
    ∃ token tokens, tree.tokens = token :: tokens ∧ isOpening token = true := by
  cases tree with
  | scalar s => exact ⟨_, [], rfl, rfl⟩
  | emptyArray inside => exact ⟨_, _, rfl, rfl⟩
  | array inside items => exact ⟨_, items.tokens, by rw [Tree.tokens], rfl⟩
  | emptyObject inside => exact ⟨_, _, rfl, rfl⟩
  | object inside members => exact ⟨_, members.tokens, by rw [Tree.tokens], rfl⟩

/-- A name has tokens. -/
theorem Name.tokens_pos (name : Name) : 0 < name.tokens.length := by
  rw [Name.tokens]
  split
  · exact Nat.succ_pos _
  · exact Nat.succ_pos _

section Steps

variable {fuel : Nat} {rest : List Token} {anchors : List (List Char × Node)}

/-- An item of an array, with what follows it. -/
theorem flowItems_tree (item : Tree) (first : Bool)
    (read : (Building.node fuel false false).run ⟨item.tokens ++ rest, anchors⟩ =
      if item.attached then some (item.node, ⟨rest, anchors⟩) else none) :
    (flowItems (fuel + 1) first).run ⟨entryMark first ++ (item.tokens ++ rest), anchors⟩ =
      if item.attached then ((flowItems fuel false).run ⟨rest, anchors⟩).map fun (items, p) =>
        (item.node :: items, p) else none := by
  obtain ⟨token, tokens, shape, opening⟩ := item.exists_tokens
  rw [shape, List.cons_append] at read ⊢
  rw [flowItems_item fuel first opening, read]
  cases item.attached with
  | true => rfl
  | false => rfl

/-- A field of an object, with what follows it. -/
theorem flowEntries_tree (name : Name) (value : Tree) (first : Bool)
    (read : (Building.node fuel false false).run ⟨value.tokens ++ rest, anchors⟩ =
      if value.attached then some (value.node, ⟨rest, anchors⟩) else none) :
    (flowEntries (fuel + 3) first).run
        ⟨entryMark first ++ (name.tokens ++ (value.tokens ++ rest)), anchors⟩ =
      if name.attached && value.attached then
        ((flowEntries (fuel + 2) false).run ⟨rest, anchors⟩).map fun (entries, p) =>
          ((name.node, value.node) :: entries, p)
      else none := by
  rw [Name.tokens]
  cases name.attached with
  | true =>
    obtain ⟨token, tokens, shape, opening⟩ := value.exists_tokens
    rw [shape, List.cons_append] at read ⊢
    refine (flowEntries_key fuel first false _ opening).trans ?_
    rw [read]
    cases value.attached with
    | true => rfl
    | false => rfl
  | false => exact flowEntries_value (fuel + 3) first false _

end Steps

mutual

/-- **The node of a value** is read off its tokens if all names are attached, else there is none. -/
theorem node_tree (tree : Tree) {fuel : Nat} (enough : 3 * tree.tokens.length ≤ fuel)
    (inBlock indentless : Bool) (rest : List Token) (anchors : List (List Char × Node)) :
    (Building.node fuel inBlock indentless).run ⟨tree.tokens ++ rest, anchors⟩ =
      if tree.attached then some (tree.node, ⟨rest, anchors⟩) else none := by
  match tree with
  | .scalar s =>
    rw [Tree.tokens, List.length_singleton] at enough
    obtain ⟨fuel, rfl⟩ := Nat.exists_eq_add_of_le' (Nat.le_of_lt enough)
    exact node_scalar ..
  | .emptyArray inside =>
    rw [Tree.tokens, List.length_cons] at enough
    obtain ⟨fuel, rfl⟩ : ∃ n, fuel = n + 2 := ⟨fuel - 2, by omega⟩
    rw [Tree.tokens, Tree.attached, Tree.node, List.cons_append, List.cons_append, node_sequence,
      flowItems_end]
    rfl
  | .array inside items =>
    rw [Tree.tokens, List.length_cons] at enough
    obtain ⟨fuel, rfl⟩ : ∃ n, fuel = n + 1 := ⟨fuel - 1, by omega⟩
    have read := flowItems_items items (by omega : 3 * items.tokens.length ≤ fuel) true rest anchors
    rw [entryMark, if_pos rfl, List.nil_append] at read
    rw [Tree.tokens, Tree.attached, Tree.node, List.cons_append, node_sequence, read]
    split
    · rfl
    · rfl
  | .emptyObject inside =>
    rw [Tree.tokens, List.length_cons] at enough
    obtain ⟨fuel, rfl⟩ : ∃ n, fuel = n + 2 := ⟨fuel - 2, by omega⟩
    rw [Tree.tokens, Tree.attached, Tree.node, List.cons_append, List.cons_append, node_mapping,
      flowEntries_end]
    rfl
  | .object inside members =>
    rw [Tree.tokens, List.length_cons] at enough
    obtain ⟨fuel, rfl⟩ : ∃ n, fuel = n + 1 := ⟨fuel - 1, by omega⟩
    have read :=
      flowEntries_members members (by omega : 3 * members.tokens.length ≤ fuel) true rest anchors
    rw [entryMark, if_pos rfl, List.nil_append] at read
    rw [Tree.tokens, Tree.attached, Tree.node, List.cons_append, node_mapping, read]
    split
    · rfl
    · rfl

/-- **The nodes of items**, and the bracket behind them. -/
theorem flowItems_items (items : Items) {fuel : Nat} (enough : 3 * items.tokens.length ≤ fuel)
    (first : Bool) (rest : List Token) (anchors : List (List Char × Node)) :
    (flowItems fuel first).run ⟨entryMark first ++ (items.tokens ++ rest), anchors⟩ =
      if items.attached then some (items.nodes, ⟨rest, anchors⟩) else none := by
  match items with
  | .last item after =>
    rw [Items.tokens, List.length_append, List.length_singleton] at enough
    obtain ⟨fuel, rfl⟩ : ∃ n, fuel = n + 2 := ⟨fuel - 2, by omega⟩
    have read := node_tree item (by omega : 3 * item.tokens.length ≤ fuel + 1) false false
      (.flowSequenceEnd :: rest) anchors
    rw [Items.tokens, Items.attached, Items.nodes, List.append_assoc, List.singleton_append,
      flowItems_tree item first read, flowItems_end]
    rfl
  | .more item after behind more =>
    rw [Items.tokens, List.length_append, List.length_cons] at enough
    obtain ⟨fuel, rfl⟩ : ∃ n, fuel = n + 1 := ⟨fuel - 1, by omega⟩
    have read := node_tree item (by omega : 3 * item.tokens.length ≤ fuel) false false
      (.flowEntry :: (more.tokens ++ rest)) anchors
    have next : (flowItems fuel false).run ⟨.flowEntry :: (more.tokens ++ rest), anchors⟩ = _ :=
      flowItems_items more (by omega) false rest anchors
    rw [Items.tokens, Items.attached, Items.nodes, List.append_assoc, List.cons_append,
      flowItems_tree item first read, next]
    cases item.attached with
    | true => cases more.attached <;> rfl
    | false => rfl

/-- **The entries of fields**, and the brace behind them. -/
theorem flowEntries_members (members : Members) {fuel : Nat}
    (enough : 3 * members.tokens.length ≤ fuel) (first : Bool) (rest : List Token)
    (anchors : List (List Char × Node)) :
    (flowEntries fuel first).run ⟨entryMark first ++ (members.tokens ++ rest), anchors⟩ =
      if members.attached then some (members.entries, ⟨rest, anchors⟩) else none := by
  match members with
  | .last name value after =>
    rw [Members.tokens, List.length_append, List.length_append, List.length_singleton] at enough
    have name_pos := name.tokens_pos
    obtain ⟨fuel, rfl⟩ : ∃ n, fuel = n + 3 := ⟨fuel - 3, by omega⟩
    have read := node_tree value (by omega : 3 * value.tokens.length ≤ fuel) false false
      (.flowMappingEnd :: rest) anchors
    rw [Members.tokens, Members.attached, Members.entries, List.append_assoc, List.append_assoc,
      List.singleton_append, flowEntries_tree name value first read, flowEntries_end]
    rfl
  | .more name value after behind more =>
    rw [Members.tokens, List.length_append, List.length_append, List.length_cons] at enough
    have name_pos := name.tokens_pos
    obtain ⟨fuel, rfl⟩ : ∃ n, fuel = n + 3 := ⟨fuel - 3, by omega⟩
    have read := node_tree value (by omega : 3 * value.tokens.length ≤ fuel) false false
      (.flowEntry :: (more.tokens ++ rest)) anchors
    have next :
        (flowEntries (fuel + 2) false).run ⟨.flowEntry :: (more.tokens ++ rest), anchors⟩ = _ :=
      flowEntries_members more (by omega) false rest anchors
    rw [Members.tokens, Members.attached, Members.entries, List.append_assoc, List.append_assoc,
      List.cons_append, flowEntries_tree name value first read, next]
    cases name.attached <;> cases value.attached <;> cases more.attached <;> rfl

end

/-- **The tree of the tokens** of a value. -/
theorem ofTokens?_tokens (tree : Tree) :
    Node.ofTokens? tree.tokens = if tree.attached then some (some tree.node) else none := by
  obtain ⟨token, tokens, shape, opening⟩ := tree.exists_tokens
  have read := node_tree tree (Nat.le_add_right _ 3) true false [] []
  rw [List.append_nil] at read
  rw [Node.ofTokens?]
  have document : (Yaml.Building.document (3 * tree.tokens.length + 3)).run
      ⟨token :: tokens, []⟩ = _ := document_of_isOpening opening _
  rw [← shape] at document
  rw [document, read]
  cases tree.attached with
  | true => rfl
  | false => rfl

end Json

end DocumentFilter
