import DocumentFilter.Proofs.Document.Lexeme

/-!
# The layouts of a JSON text

A JSON text is a tree of scalars, arrays and objects, with space between its tokens. A tree of the
grammar (`DocumentFilter.Json.Tree`) keeps that space, as well as the way in which each scalar is
written, so that it has exactly one text and one document. Arrays and objects that are empty are
cases of their own, since only they have one space and not two inside of their brackets.

In a tree the fields of an object are those that are written, in their order; the document has one
field for each name.

* `DocumentFilter.Json.exists_layout_of_document`: **whatever is read is laid out in some way**, and
  the layout denotes what is read.
-/

namespace DocumentFilter

namespace Json

open Document (setField)

/-! ### Trees -/

/-- Space between tokens. -/
structure Space where
  chars : List Char
  blank : ∀ c ∈ chars, isSpace c = true

/-- The space that is skipped. -/
theorem exists_space_of_skip (cs : List Char) : ∃ space : Space, cs = space.chars ++ skip cs :=
  ⟨⟨cs.takeWhile isSpace, fun _ mem => List.mem_takeWhile_imp mem⟩,
    List.takeWhile_append_dropWhile.symm⟩

/-- The same, in front of what is read then. -/
theorem exists_space {cs rest : List Char} (h : skip cs = rest) :
    ∃ space : Space, cs = space.chars ++ rest :=
  h ▸ exists_space_of_skip cs

variable [StandIns]

/-- The name of a field, with the colon behind it and the space around that. -/
structure Name where
  pieces : List Piece
  before : Space
  behind : Space

/-- The text of a name. -/
def Name.chars (name : Name) : List Char :=
  '"' :: (piecesChars name.pieces ++ (name.before.chars ++ ':' :: name.behind.chars))

/-- The name that is denoted. -/
def Name.text (name : Name) : String :=
  String.ofList (name.pieces.map Piece.letter)

mutual

/-- **A value as it is written.** -/
inductive Tree
  | scalar (s : Scalar)
  | emptyArray (inside : Space)
  | array (inside : Space) (items : Items)
  | emptyObject (inside : Space)
  | object (inside : Space) (members : Members)

/-- The items of an array, with the bracket that closes it. -/
inductive Items
  | last (item : Tree) (after : Space)
  | more (item : Tree) (after behind : Space) (rest : Items)

/-- The fields of an object, with the brace that closes it. -/
inductive Members
  | last (name : Name) (value : Tree) (after : Space)
  | more (name : Name) (value : Tree) (after behind : Space) (rest : Members)

end

mutual

/-- The text of a value. -/
def Tree.chars : Tree → List Char
  | .scalar s => s.chars
  | .emptyArray inside => '[' :: (inside.chars ++ [']'])
  | .array inside items => '[' :: (inside.chars ++ items.chars)
  | .emptyObject inside => '\x7b' :: (inside.chars ++ ['\x7d'])
  | .object inside members => '\x7b' :: (inside.chars ++ members.chars)

/-- The text of items. -/
def Items.chars : Items → List Char
  | .last item after => item.chars ++ (after.chars ++ [']'])
  | .more item after behind rest =>
    item.chars ++ (after.chars ++ ',' :: (behind.chars ++ rest.chars))

/-- The text of fields. -/
def Members.chars : Members → List Char
  | .last name value after => name.chars ++ (value.chars ++ (after.chars ++ ['\x7d']))
  | .more name value after behind rest =>
    name.chars ++ (value.chars ++ (after.chars ++ ',' :: (behind.chars ++ rest.chars)))

end

mutual

/-- The document that a value denotes. -/
def Tree.document : Tree → Document
  | .scalar s => s.document
  | .emptyArray _ => .array []
  | .array _ items => .array items.documents
  | .emptyObject _ => .object []
  | .object _ members => .object (members.fields [])

/-- The documents that items denote. -/
def Items.documents : Items → List Document
  | .last item _ => [item.document]
  | .more item _ _ rest => item.document :: rest.documents

/-- The fields of an object, after those that come before. -/
def Members.fields (before : List (String × Document)) : Members → List (String × Document)
  | .last name value _ => setField name.text value.document before
  | .more name value _ _ rest => rest.fields (setField name.text value.document before)

end

/-- **A JSON text as it is written.** -/
structure Layout where
  before : Space
  tree : Tree
  after : Space

/-- The text of a layout. -/
def Layout.chars (layout : Layout) : List Char :=
  layout.before.chars ++ (layout.tree.chars ++ layout.after.chars)

/-! ### Reading -/

/-- **A name that is read** is spelt by one that denotes it. -/
theorem exists_name_of_fieldName {cs rest : List Char} {s : String}
    (h : fieldName cs = .ok (s, rest)) :
    ∃ name : Name, cs = name.chars ++ rest ∧ s = name.text := by
  unfold fieldName at h
  split at h
  · rename_i tail
    obtain ⟨⟨s', behind⟩, read, h⟩ := Except.bind_eq_ok.1 h
    obtain ⟨pieces, rfl, rfl⟩ := exists_pieces_of_string read
    dsimp only at h
    split at h
    · rename_i more colon
      cases h
      obtain ⟨before, rfl⟩ := exists_space colon
      obtain ⟨after, shape⟩ := exists_space_of_skip more
      refine ⟨⟨pieces, before, after⟩, ?_, rfl⟩
      rw [Name.chars, List.cons_append, List.append_assoc, List.append_assoc, List.cons_append,
        ← shape]
    · cases h
  · cases h

/-- **What is read in a given number of steps** is spelt by a tree that denotes it: a value, the
items that are left, and the fields that are left. -/
structure Spelt (fuel : Nat) : Prop where
  ofValue {cs rest : List Char} {doc : Document} (read : value fuel cs = .ok (doc, rest)) :
    ∃ tree : Tree, cs = tree.chars ++ rest ∧ doc = tree.document
  ofItems {before : List Document} {cs rest : List Char} {doc : Document}
    (read : items fuel before cs = .ok (doc, rest)) :
    ∃ more : Items, cs = more.chars ++ rest ∧ doc = .array (before.reverse ++ more.documents)
  ofMembers {before : List (String × Document)} {cs rest : List Char} {doc : Document}
    (read : members fuel before cs = .ok (doc, rest)) :
    ∃ more : Members, cs = more.chars ++ rest ∧ doc = .object (more.fields before)

section Steps

variable {fuel : Nat} {cs rest : List Char} {doc : Document}

/-- What starts with a bracket is an array. -/
theorem Spelt.array (spelt : Spelt fuel) (read : value (fuel + 1) ('[' :: cs) = .ok (doc, rest)) :
    ∃ tree : Tree, '[' :: cs = tree.chars ++ rest ∧ doc = tree.document := by
  rw [value] at read
  split at read
  · rename_i behind close
    cases read
    obtain ⟨inside, rfl⟩ := exists_space close
    refine ⟨.emptyArray inside, ?_, rfl⟩
    rw [Tree.chars, List.cons_append, List.append_assoc, List.singleton_append]
  · obtain ⟨inside, shape⟩ := exists_space_of_skip cs
    obtain ⟨more, split, rfl⟩ := spelt.ofItems read
    refine ⟨.array inside more, ?_, rfl⟩
    rw [Tree.chars, List.cons_append, List.append_assoc, ← split, ← shape]

/-- What starts with a brace is an object. -/
theorem Spelt.object (spelt : Spelt fuel)
    (read : value (fuel + 1) ('\x7b' :: cs) = .ok (doc, rest)) :
    ∃ tree : Tree, '\x7b' :: cs = tree.chars ++ rest ∧ doc = tree.document := by
  rw [value] at read
  split at read
  · rename_i behind close
    cases read
    obtain ⟨inside, rfl⟩ := exists_space close
    refine ⟨.emptyObject inside, ?_, rfl⟩
    rw [Tree.chars, List.cons_append, List.append_assoc, List.singleton_append]
  · obtain ⟨inside, shape⟩ := exists_space_of_skip cs
    obtain ⟨more, split, rfl⟩ := spelt.ofMembers read
    refine ⟨.object inside more, ?_, rfl⟩
    rw [Tree.chars, List.cons_append, List.append_assoc, ← split, ← shape]

/-- **A value that is read in one step more**: anything else is a scalar. -/
theorem Spelt.value_succ (spelt : Spelt fuel) (read : value (fuel + 1) cs = .ok (doc, rest)) :
    ∃ tree : Tree, cs = tree.chars ++ rest ∧ doc = tree.document := by
  have plainly (same : value (fuel + 1) cs = plain cs) :
      ∃ tree : Tree, cs = tree.chars ++ rest ∧ doc = tree.document := by
    obtain ⟨s, rfl, rfl⟩ := exists_scalar_of_plain (same ▸ read)
    exact ⟨.scalar s, rfl, rfl⟩
  rcases cs with _ | ⟨c, tail⟩
  · exact plainly rfl
  by_cases array : c = '['
  · subst array
    exact spelt.array read
  by_cases object : c = '\x7b'
  · subst object
    exact spelt.object read
  · exact plainly (value_eq_plain array object fuel tail)

/-- **Items that are read in one step more**: the first of them, and what comes behind its comma. -/
theorem Spelt.items_succ (spelt : Spelt fuel) {before : List Document}
    (read : items (fuel + 1) before cs = .ok (doc, rest)) :
    ∃ more : Items, cs = more.chars ++ rest ∧ doc = .array (before.reverse ++ more.documents) := by
  rw [items] at read
  obtain ⟨⟨item, tail⟩, first, next⟩ := Except.bind_eq_ok.1 read
  obtain ⟨tree, rfl, rfl⟩ := spelt.ofValue first
  dsimp only at next
  split at next
  · rename_i behind close
    cases next
    obtain ⟨after, rfl⟩ := exists_space close
    refine ⟨.last tree after, ?_, ?_⟩
    · rw [Items.chars, List.append_assoc, List.append_assoc, List.singleton_append]
    · rw [List.reverse_cons]
      rfl
  · rename_i behind comma
    obtain ⟨after, rfl⟩ := exists_space comma
    obtain ⟨between, shape⟩ := exists_space_of_skip behind
    obtain ⟨more, split, rfl⟩ := spelt.ofItems next
    refine ⟨.more tree after between more, ?_, ?_⟩
    · rw [Items.chars, List.append_assoc, List.append_assoc, List.cons_append, List.append_assoc,
        ← split, ← shape]
    · rw [List.reverse_cons, List.append_assoc]
      rfl
  · cases next

/-- **Fields that are read in one step more**: the first of them, and what comes behind its
comma. -/
theorem Spelt.members_succ (spelt : Spelt fuel) {before : List (String × Document)}
    (read : members (fuel + 1) before cs = .ok (doc, rest)) :
    ∃ more : Members, cs = more.chars ++ rest ∧ doc = .object (more.fields before) := by
  rw [members] at read
  obtain ⟨⟨s, tail⟩, named, valued⟩ := Except.bind_eq_ok.1 read
  obtain ⟨⟨item, tail⟩, first, next⟩ := Except.bind_eq_ok.1 valued
  obtain ⟨name, rfl, rfl⟩ := exists_name_of_fieldName named
  obtain ⟨tree, rfl, rfl⟩ := spelt.ofValue first
  dsimp only at next
  split at next
  · rename_i behind close
    cases next
    obtain ⟨after, rfl⟩ := exists_space close
    refine ⟨.last name tree after, ?_, rfl⟩
    rw [Members.chars, List.append_assoc, List.append_assoc, List.append_assoc,
      List.singleton_append]
  · rename_i behind comma
    obtain ⟨after, rfl⟩ := exists_space comma
    obtain ⟨between, shape⟩ := exists_space_of_skip behind
    obtain ⟨more, split, rfl⟩ := spelt.ofMembers next
    refine ⟨.more name tree after between more, ?_, rfl⟩
    rw [Members.chars, List.append_assoc, List.append_assoc, List.append_assoc, List.cons_append,
      List.append_assoc, ← split, ← shape]
  · cases next

end Steps

/-- **However many steps are taken**, what is read is spelt by a tree. -/
theorem spelt_of_steps (fuel : Nat) : Spelt fuel := by
  -- the three call each other with one step less, so one induction is about all of them
  induction fuel with
  | zero =>
    refine ⟨fun read => ?_, fun read => ?_, fun read => ?_⟩
    · cases read
    · cases read
    · cases read
  | succ fuel ih => exact ⟨ih.value_succ, ih.items_succ, ih.members_succ⟩

/-- **Whatever is read is laid out in some way**, and the layout denotes what is read. -/
theorem exists_layout_of_document {cs : List Char} {doc : Document} (h : document cs = .ok doc) :
    ∃ layout : Layout, layout.chars = cs ∧ layout.tree.document = doc := by
  unfold document at h
  split at h
  · cases h
  · obtain ⟨⟨doc', tail⟩, read, h⟩ := Except.bind_eq_ok.1 h
    obtain ⟨tree, spelt, rfl⟩ := (spelt_of_steps _).ofValue read
    dsimp only at h
    split at h
    · rename_i close
      cases h
      obtain ⟨before, shape⟩ := exists_space_of_skip cs
      obtain ⟨after, rfl⟩ := exists_space close
      refine ⟨⟨before, tree, after⟩, ?_, rfl⟩
      rw [Layout.chars]
      conv_rhs => rw [shape, spelt, List.append_nil]
    · cases h

end Json

end DocumentFilter
