import DocumentFilter.Proofs.Config.Reading

/-!
# Configurations that fail otherwise than reported

A configuration that cannot be loaded is to be reported as such, whatever is wrong with it. What is
found at the values themselves always is. But before there is a value a file is decoded and read,
and not every failure there is foreseen: bytes that are not UTF-8 are not, nor is an integer of too
many digits in JSON, nor a scalar of YAML that looks like a number or a date and is none.

The faults of a YAML tree come from two places. A node may have a tag that does not fit, or a key
that can be none; these are malformed. Everything else is said by the nodes that are read as
scalars, and a fault of the tree that is not malformed is the fault of one of them
(`DocumentFilter.Yaml.valueOf_eq_error`), wherever merging may have taken it.

Of a YAML file all of this is said if nothing in it is left open here
(`DocumentFilter.Yaml.isUsual`). Left open are the tags `binary`, `set`, `omap` and `pairs`, aliases
inside of the node that they stand for, directives other than the version, escapes in tags, and
default keys in a text with aliases, since a default key is one no more once a mapping with it is
merged or read. Left open are also texts with a number that nothing can be made of, such as that of
a character beyond all: whether it is met before a fault of the tree depends on how far ahead of the
tree the text is scanned.

* `DocumentFilter.Yaml.Node.Unread`: the nodes of a tree that are read as scalars and are none;
* `DocumentFilter.ConfigDefect`: the ways in which loading fails and does not report it;
* `DocumentFilter.load_defect_iff`: **there are no others**, for filters and for GitHub.
-/

namespace DocumentFilter

namespace Yaml

/-! ### Faults of a tree -/

/-- **A node of a tree that is read as a scalar and is none**, by its fault: a scalar that is not
what its tag says, or a mapping of which this is true by the text under its default key. -/
inductive Node.Unread : Node → Error → Prop
  | scalar {tag : Tag} {text : List Char} {error : Error}
      (fails : scalarValue tag text = .error error) : Unread (.scalar tag text) error
  | default {tag : Tag} {entries : List (Node × Node)} {text : List Char} {error : Error}
      (other : tag ≠ .timestamp) (found : defaultText entries = some text)
      (fails : scalarValue tag text = .error error) : Unread (.mapping tag entries) error
  | notText {entries : List (Node × Node)} {text : List Char}
      (found : defaultText entries = some text) : Unread (.mapping .timestamp entries) .notText
  | item {tag : Tag} {items : List Node} {item : Node} {error : Error} (mem : item ∈ items)
      (inside : Unread item error) : Unread (.sequence tag items) error
  | key {tag : Tag} {entries : List (Node × Node)} {key value : Node} {error : Error}
      (mem : (key, value) ∈ entries) (inside : Unread key error) :
      Unread (.mapping tag entries) error
  | value {tag : Tag} {entries : List (Node × Node)} {key value : Node} {error : Error}
      (mem : (key, value) ∈ entries) (inside : Unread value error) :
      Unread (.mapping tag entries) error

/-- All faults of a node. -/
def Built.errors (built : Built) : List Error := built.faults ++ built.inside.flatten

/-- All faults of an entry. -/
def BuiltEntry.errors (entry : BuiltEntry) : List Error := entry.faults ++ entry.inside.flatten

variable {error : Error}

theorem mem_beside {levels levels' : Levels}
    (mem : error ∈ (Levels.beside levels levels').flatten) :
    error ∈ levels.flatten ∨ error ∈ levels'.flatten := by
  fun_induction Levels.beside levels levels' with
  | case1 => exact .inr mem
  | case2 => exact .inl mem
  | case3 level levels level' levels' ih =>
    simp only [List.flatten_cons, List.mem_append] at mem ⊢
    rcases mem with (first | second) | deeper
    · exact .inl (.inl first)
    · exact .inr (.inl second)
    · exact (ih deeper).imp .inr .inr

/-- The faults of several values side by side, those of the values themselves in front. -/
theorem mem_parts {α : Type} {faults : α → List Error} {inside : α → Levels} {parts : List α}
    (mem : error ∈ ((parts.map faults).flatten ::
      parts.foldr (fun part levels => Levels.beside (inside part) levels) []).flatten) :
    ∃ part ∈ parts, error ∈ faults part ++ (inside part).flatten := by
  rw [List.flatten_cons, List.mem_append] at mem
  rcases mem with own | inner
  · obtain ⟨_, listed, found⟩ := List.mem_flatten.1 own
    obtain ⟨part, mem, rfl⟩ := List.mem_map.1 listed
    exact ⟨part, mem, List.mem_append_left _ found⟩
  · induction parts with
    | nil => cases inner
    | cons part rest ih =>
      rcases mem_beside inner with here | there
      · exact ⟨part, List.mem_cons_self .., List.mem_append_right _ here⟩
      · obtain ⟨other, mem, found⟩ := ih there
        exact ⟨other, List.mem_cons_of_mem _ mem, found⟩

theorem mem_errors_buildScalar {tag : Tag} {text : List Char}
    (mem : error ∈ (buildScalar tag text).errors) :
    error = .malformed ∨ scalarValue tag text = .error error := by
  have inside : error ∈ (if tag = .sequence ∨ tag = .mapping then [[Error.malformed]]
      else []).flatten → error = .malformed := by
    split <;> simp
  rw [Built.errors, buildScalar] at mem
  split at mem
  · exact .inl (inside (by simpa using mem))
  · rename_i fault failed
    rcases List.mem_append.1 mem with here | there
    · exact .inr (by rw [List.mem_singleton.1 here, failed])
    · exact .inl (inside there)

theorem mem_errors_buildSequence {tag : Tag} {items : List Built}
    (mem : error ∈ (buildSequence tag items).errors) :
    error = .malformed ∨ ∃ item ∈ items, error ∈ item.errors := by
  unfold Built.errors buildSequence at mem
  split at mem
  · exact .inr (mem_parts mem)
  · exact .inl (by simpa using mem)
  · exact absurd mem List.not_mem_nil
  · exact .inl (by simpa using mem)

theorem mem_errors_buildDefault {tag : Tag} {text : Option (List Char)}
    (mem : error ∈ (buildDefault tag text).errors) :
    error = .malformed ∨ ∃ cs, text = some cs ∧
      (tag ≠ .timestamp ∧ scalarValue tag cs = .error error ∨
        tag = .timestamp ∧ error = .notText) := by
  cases text with
  | none => exact .inl (by simpa [Built.errors, buildDefault] using mem)
  | some cs =>
    rw [buildDefault] at mem
    split at mem
    · rename_i date
      exact .inr ⟨cs, rfl, .inr ⟨date, by simpa [Built.errors] using mem⟩⟩
    · rename_i other
      exact (mem_errors_buildScalar mem).imp_right fun fails => ⟨cs, rfl, .inl ⟨other, fails⟩⟩

theorem mem_errors_buildMapping {tag : Tag} {text : Option (List Char)} {entries : BuiltEntries}
    (mem : error ∈ (buildMapping tag text entries).errors) :
    error = .malformed ∨ (∃ entry ∈ entries.all, error ∈ entry.errors) ∨
      error ∈ (buildDefault tag text).errors := by
  have inside : ∀ {faults : Levels}, error ∈ (if entries.mergeable then faults
      else [[Error.malformed]]).flatten → error = .malformed ∨ error ∈ faults.flatten := by
    intro faults mem
    split at mem
    · exact .inr mem
    · exact .inl (by simpa using mem)
  unfold Built.errors buildMapping at mem
  dsimp only at mem
  split at mem
  · exact (inside mem).imp_right fun mem => .inl (mem_parts mem)
  · exact .inl (by simpa using mem)
  · exact absurd mem List.not_mem_nil
  · exact .inr (.inr mem)

theorem mem_errors_buildEntry {key value : Built}
    (mem : error ∈ (buildEntry key value).errors) :
    error = .malformed ∨ error ∈ key.errors ∨ error ∈ value.errors := by
  have unfit : error ∈ (if canBeKey key.value then [] else [Error.malformed]) →
      error = .malformed := by
    split <;> simp
  rcases List.mem_append.1 mem with own | inner
  · have own : error ∈ key.faults ++ (if canBeKey key.value then [] else [Error.malformed]) ++
        value.faults := own
    simp only [List.mem_append] at own
    rcases own with (here | none) | there
    · exact .inr (.inl (List.mem_append_left _ here))
    · exact .inl (unfit none)
    · exact .inr (.inr (List.mem_append_left _ there))
  · exact .inr ((mem_beside inner).imp (List.mem_append_right _) (List.mem_append_right _))

/-! ### Every fault is that of a node -/

section Faults

variable (allowed : Error → Prop)

/-- The faults of all nodes that are read as scalars are allowed. -/
def Node.Allows (node : Node) : Prop :=
  ∀ error, node.Unread error → allowed error

variable {allowed}

mutual

/-- **The faults of a node** are malformed or those of nodes that are read as scalars. -/
theorem allowed_build (node : Node) (allows : node.Allows allowed) :
    ∀ error ∈ (build node).errors, error = .malformed ∨ allowed error := by
  intro error mem
  cases node with
  | scalar tag text =>
    rw [build] at mem
    exact (mem_errors_buildScalar mem).imp_right fun fails => allows error (.scalar fails)
  | sequence tag items =>
    rw [build] at mem
    rcases mem_errors_buildSequence mem with rfl | ⟨item, mem, found⟩
    · exact .inl rfl
    · exact allowed_buildItems items (fun node mem _ inside => allows _ (.item mem inside))
        item mem error found
  | mapping tag entries =>
    rw [build] at mem
    rcases mem_errors_buildMapping mem with rfl | ⟨entry, mem, found⟩ | fails
    · exact .inl rfl
    · exact allowed_buildEntries entries
        (fun key value mem => ⟨fun _ inside => allows _ (.key mem inside),
          fun _ inside => allows _ (.value mem inside)⟩) entry mem error found
    · refine (mem_errors_buildDefault fails).imp_right ?_
      rintro ⟨text, found, ⟨other, fails⟩ | ⟨rfl, rfl⟩⟩
      · exact allows error (.default other found fails)
      · exact allows _ (.notText found)

theorem allowed_buildItems (items : List Node) (allow : ∀ item ∈ items, item.Allows allowed) :
    ∀ item ∈ buildItems items, ∀ error ∈ item.errors, error = .malformed ∨ allowed error := by
  cases items with
  | nil => exact fun item mem => absurd mem List.not_mem_nil
  | cons item rest =>
    obtain ⟨first, others⟩ := List.forall_mem_cons.1 allow
    rw [buildItems]
    exact List.forall_mem_cons.2 ⟨allowed_build item first, allowed_buildItems rest others⟩

theorem allowed_buildEntries (entries : List (Node × Node))
    (allow : ∀ key value, (key, value) ∈ entries → key.Allows allowed ∧ value.Allows allowed) :
    ∀ entry ∈ (buildEntries entries).all, ∀ error ∈ entry.errors,
      error = .malformed ∨ allowed error := by
  match entries with
  | [] => exact fun entry mem => absurd mem List.not_mem_nil
  | (key, value) :: rest =>
    have first := allow key value (List.mem_cons_self ..)
    have others := allowed_buildEntries rest
      (fun key value mem => allow key value (List.mem_cons_of_mem _ mem))
    rw [BuiltEntries.all, List.forall_mem_append] at others
    rw [buildEntries, BuiltEntries.all]
    split
    · split
      · rename_i merged found
        -- what is merged was written elsewhere, but it is built of nodes in the value
        have taken := allowed_mergedBy value first.2 found
        exact List.forall_mem_append.2 ⟨List.forall_mem_append.2 ⟨taken, others.1⟩, others.2⟩
      · exact fun entry mem => absurd mem List.not_mem_nil
    · refine List.forall_mem_append.2 ⟨others.1, List.forall_mem_cons.2 ⟨?_, others.2⟩⟩
      intro error mem
      rcases mem_errors_buildEntry mem with rfl | inKey | inValue
      · exact .inl rfl
      · exact allowed_build key first.1 error inKey
      · exact allowed_build value first.2 error inValue

/-- Merged entries are entries of mappings in the value of the merging key. -/
theorem allowed_mergedBy (node : Node) (allows : node.Allows allowed) {merged : List BuiltEntry}
    (found : mergedBy node = some merged) :
    ∀ entry ∈ merged, ∀ error ∈ entry.errors, error = .malformed ∨ allowed error := by
  cases node with
  | scalar tag text => cases found
  | mapping tag entries =>
    rw [mergedBy] at found
    split at found
    · cases found
      exact allowed_buildEntries entries fun key value mem =>
        ⟨fun _ inside => allows _ (.key mem inside),
          fun _ inside => allows _ (.value mem inside)⟩
    · cases found
  | sequence tag items =>
    rw [mergedBy, Option.map_eq_some_iff] at found
    obtain ⟨lists, found, rfl⟩ := found
    have each := allowed_mergedByEach items
      (fun node mem _ inside => allows _ (.item mem inside)) found
    intro entry mem
    obtain ⟨list, listed, mem⟩ := List.mem_flatten.1 mem
    exact each list (List.mem_reverse.1 listed) entry mem

theorem allowed_mergedByEach (nodes : List Node) (allow : ∀ node ∈ nodes, node.Allows allowed)
    {merged : List (List BuiltEntry)} (found : mergedByEach nodes = some merged) :
    ∀ entries ∈ merged, ∀ entry ∈ entries, ∀ error ∈ entry.errors,
      error = .malformed ∨ allowed error := by
  match nodes with
  | [] =>
    cases found
    exact fun entries mem => absurd mem List.not_mem_nil
  | .mapping tag entries :: rest =>
    obtain ⟨first, others⟩ := List.forall_mem_cons.1 allow
    rw [mergedByEach] at found
    split at found
    · obtain ⟨lists, more, rfl⟩ := Option.map_eq_some_iff.1 found
      refine List.forall_mem_cons.2 ⟨?_, allowed_mergedByEach rest others more⟩
      exact allowed_buildEntries entries fun key value mem =>
        ⟨fun _ inside => first _ (.key mem inside),
          fun _ inside => first _ (.value mem inside)⟩
    · cases found
  | .scalar tag text :: rest => cases found
  | .sequence tag items :: rest => cases found

end

end Faults

/-- **A fault of a tree is malformed or that of a node** which is read as a scalar. -/
theorem valueOf_eq_error {node : Node} {error : Error} (fails : valueOf node = .error error) :
    error = .malformed ∨ node.Unread error := by
  have mem : error ∈ (build node).errors := by
    rw [valueOf] at fails
    split at fails
    · rename_i first
      cases fails
      have head := List.mem_of_head? first
      rwa [List.flatten_cons] at head
    · cases fails
  have own : node.Allows node.Unread := fun _ unread => unread
  exact allowed_build node own error mem

/-! ### Faults of a text -/

mutual

/-- The tags of the nodes of a tree. -/
def Node.tags : Node → List Tag
  | .scalar tag _ => [tag]
  | .sequence tag items => tag :: itemTags items
  | .mapping tag entries => tag :: entryTags entries

/-- The tags of items. -/
def itemTags : List Node → List Tag
  | [] => []
  | item :: rest => item.tags ++ itemTags rest

/-- The tags of entries. -/
def entryTags : List (Node × Node) → List Tag
  | [] => []
  | (key, value) :: rest => key.tags ++ value.tags ++ entryTags rest

end

/-- A token that stands for a node. -/
def Token.isAlias : Token → Bool
  | .alias _ => true
  | _ => false

/-- A token whose meaning is not left open: no directive but the version, and no tag with an escape
in it. -/
def Token.isUsual : Token → Bool
  | .directive version => version.isSome
  | .tag (.handled _ suffix) => !suffix.toList.contains '%'
  | .tag (.verbatim full) => !full.toList.contains '%'
  | _ => true

/-- **A text in which nothing is left open**, see the head of this file. -/
def isUsual (text : List Char) : Bool :=
  match tokens text with
  | .error flaw => flaw = .malformed
  | .ok tokens =>
    tokens.all Token.isUsual &&
      match Node.ofTokens? tokens with
      | some (some node) =>
        !node.tags.contains .special && !node.tags.contains .itself &&
          (!tokens.any Token.isAlias || !node.tags.contains .default)
      | _ => true

/-- **A YAML text that is well formed but has no value**: there is a node in its tree that is read
as a scalar and is none, and no fault of the tree comes before this one. -/
structure Defect (text : List Char) (error : Error) : Prop where
  tree : ∃ read node, tokens text = .ok read ∧ Node.ofTokens? read = some (some node) ∧
    node.Unread error ∧ valueOf node = .error error
  formed : error ≠ .malformed

theorem Defect.read_eq {text : List Char} {error : Error} (defect : Defect text error) :
    read text = .error error := by
  obtain ⟨⟨found, node, reads, tree, -, first⟩, -⟩ := defect
  rw [read, reads]
  simp only [tree]
  exact first

/-- **A text that is not malformed fails** for no other reason. -/
theorem defect_of_read_eq {text : List Char} (usual : isUsual text = true) {error : Error}
    (fails : read text = .error error) (formed : error ≠ .malformed) : Defect text error := by
  rw [read] at fails
  split at fails
  · rename_i flaw stops
    cases fails
    rw [isUsual, stops] at usual
    obtain rfl : flaw = .malformed := by simpa using usual
    exact absurd rfl formed
  · rename_i found reads
    split at fails
    · cases fails
      exact absurd rfl formed
    · cases fails
    · rename_i node tree
      have unread := (valueOf_eq_error fails).resolve_left formed
      exact ⟨⟨found, node, reads, tree, unread, fails⟩, formed⟩

end Yaml

/-! ### Failures of a file -/

/-- **A file whose loading fails otherwise than reported**, by the kind of the failure: its path
holds a zero character, its bytes are those of no text, it is JSON with an integer of too many
digits, or YAML that is well formed but has no value. -/
inductive ConfigDefect (files : Files) (path : String) : ConfigFailure → Prop
  | badPath (zero : '\x00' ∈ (normalPath path).toList) : ConfigDefect files path .badPath
  | notUtf8 {bytes : List UInt8} (named : '\x00' ∉ (normalPath path).toList)
      (given : files (normalPath path) = .ok bytes) (none : ∀ text, bytes ≠ Utf8.encode text) :
      ConfigDefect files path .badEncoding
  | json {text : String} {digits : Nat} (named : '\x00' ∉ (normalPath path).toList)
      (given : files (normalPath path) = .ok (Utf8.encode text))
      (isJson : isJsonPath (normalPath path) = true)
      (long : Json.document (Text.lineFeeds text.toList) = .error (.oversized digits)) :
      ConfigDefect files path .badScalar
  | yaml {text : String} {error : Yaml.Error} (named : '\x00' ∉ (normalPath path).toList)
      (given : files (normalPath path) = .ok (Utf8.encode text))
      (isYaml : isJsonPath (normalPath path) = false)
      (defect : Yaml.Defect (Text.lineFeeds text.toList) error) :
      ConfigDefect files path (ConfigError.yaml (normalPath path) error).failure

/-- The kind of a failure, if it is one. -/
def failure? {α : Type} : Except ConfigError α → Option ConfigFailure
  | .ok _ => none
  | .error error => some error.failure

/-- **A failure of a given kind that is not reported.** -/
def FailsWith {α : Type} (failure : ConfigFailure) (x : Except ConfigError α) : Prop :=
  failure? x = some failure ∧ failure ≠ .reported

instance {α : Type} (failure : ConfigFailure) (x : Except ConfigError α) :
    Decidable (FailsWith failure x) :=
  inferInstanceAs (Decidable (_ ∧ _))

/-- A JSON text is refused for the size of an integer if its characters are. -/
theorem Json.read_eq_oversized_iff {cs : List Char} {digits : Nat} :
    Json.read (String.ofList cs) = .error (.oversized digits) ↔
      Json.document cs = .error (.oversized digits) := by
  rw [Json.read, String.toList_ofList]
  split
  · rename_i found
    simp [found]
  · rename_i found
    simp [found]
  · rename_i found
    simp [found]

variable {files : Files} {path : String} {failure : ConfigFailure}

theorem failsWith_iff {α : Type} {x : Except ConfigError α} :
    FailsWith failure x ↔ ∃ error, x = .error error ∧ error.failure = failure ∧
      failure ≠ .reported := by
  rw [FailsWith]
  cases x with
  | ok value => simp [failure?]
  | error error => simp [failure?]

theorem ConfigDefect.failsWith (defect : ConfigDefect files path failure) :
    FailsWith failure (readConfig files path) := by
  rw [failsWith_iff]
  cases defect with
  | badPath zero =>
    have read : readText files (normalPath path) = .error .noPath :=
      if_pos (by simpa using zero)
    exact ⟨_, readConfig_of_error read, rfl, nofun⟩
  | notUtf8 named given none =>
    exact ⟨_, readConfig_of_error (readText_of_bytes named given none), rfl, nofun⟩
  | @json text digits named given isJson long =>
    refine ⟨.json (normalPath path) (.oversized digits), ?_, rfl, nofun⟩
    rw [readConfig_of_json (readText_of_text named given) isJson,
      Json.read_eq_oversized_iff.2 long]
    rfl
  | @yaml text error named given isYaml defect =>
    refine ⟨.yaml (normalPath path) error, ?_, rfl, ?_⟩
    · rw [readConfig_of_yaml (readText_of_text named given) isYaml, defect.read_eq]
      rfl
    · cases error with
      | malformed => exact absurd rfl defect.formed
      | _ => nofun

/-- **A file in which nothing is left open** if it is YAML. -/
def IsUsual (files : Files) (path : String) : Prop :=
  ∀ text, files (normalPath path) = .ok (Utf8.encode text) → isJsonPath (normalPath path) = false →
    Yaml.isUsual (Text.lineFeeds text.toList) = true

section Texts

variable {text : String} {error : ConfigError} (named : '\x00' ∉ (normalPath path).toList)
  (given : files (normalPath path) = .ok (Utf8.encode text))
  (unreported : error.failure ≠ .reported)
include named given unreported

/-- Of JSON only an integer is not reported. -/
theorem configDefect_of_json (isJson : isJsonPath (normalPath path) = true)
    (fails : readConfig files path = .error error) : ConfigDefect files path error.failure := by
  rw [readConfig_of_json (readText_of_text named given) isJson] at fails
  cases found : Json.read (String.ofList (Text.lineFeeds text.toList)) with
  | ok doc =>
    rw [found] at fails
    cases fails
  | error problem =>
    rw [found] at fails
    cases fails
    cases problem with
    | malformed flaw place => exact absurd rfl unreported
    | oversized digits => exact .json named given isJson (Json.read_eq_oversized_iff.1 found)

/-- Of YAML it is a scalar. -/
theorem configDefect_of_yaml (isYaml : isJsonPath (normalPath path) = false)
    (usual : Yaml.isUsual (Text.lineFeeds text.toList) = true)
    (fails : readConfig files path = .error error) : ConfigDefect files path error.failure := by
  rw [readConfig_of_yaml (readText_of_text named given) isYaml] at fails
  cases found : Yaml.read (Text.lineFeeds text.toList) with
  | ok value =>
    rw [found] at fails
    cases fails
  | error problem =>
    rw [found] at fails
    cases fails
    refine .yaml named given isYaml (Yaml.defect_of_read_eq usual found ?_)
    rintro rfl
    exact unreported rfl

end Texts

/-- **A file that fails otherwise than reported** has one of these defects. -/
theorem configDefect_of_failsWith (usual : IsUsual files path)
    (stops : FailsWith failure (readConfig files path)) : ConfigDefect files path failure := by
  obtain ⟨error, fails, rfl, unreported⟩ := failsWith_iff.1 stops
  clear stops
  rcases readText_cases files (normalPath path) with
    ⟨zero, read⟩ | ⟨named, ⟨fault, read⟩ | ⟨bytes, given, none, read⟩ | ⟨text, given, read⟩⟩
  · rw [readConfig_of_error read] at fails
    cases fails
    exact .badPath zero
  · rw [readConfig_of_error read] at fails
    cases fails
    exact absurd rfl unreported
  · rw [readConfig_of_error read] at fails
    cases fails
    exact .notUtf8 named given none
  · cases isJson : isJsonPath (normalPath path) with
    | true => exact configDefect_of_json named given unreported isJson fails
    | false =>
      exact configDefect_of_yaml named given unreported isJson (usual text given isJson) fails

/-! ### Loading -/

/-- Behind a file that is read, every failure is one that is reported. -/
theorem failsWith_bind_iff {α ε : Type} {x : Except ConfigError Value} {f : Value → Except ε α}
    {toError : ε → ConfigError} (reports : ∀ error, (toError error).failure = .reported) :
    FailsWith failure (x >>= fun value => (f value).mapError toError) ↔ FailsWith failure x := by
  cases x with
  | error error => rfl
  | ok value =>
    change FailsWith failure ((f value).mapError toError) ↔ _
    cases f value with
    | ok found => rfl
    | error error =>
      constructor
      · rintro ⟨kind, unreported⟩
        exact absurd ((Option.some.inj kind).symm.trans (reports error)) unreported
      · rintro ⟨⟨⟩, _⟩

/-- **Which failures of loading are not reported**, for filters and for what to watch on GitHub:
those of the file, and the same ones for both. Everything else that fails is reported as an error
of the configuration. -/
theorem load_defect_iff {files : Files} {path : String} (usual : IsUsual files path)
    (failure : ConfigFailure) :
    (FailsWith failure (loadFilters files path) ↔ ConfigDefect files path failure) ∧
      (FailsWith failure (GitHub.loadConfig files path) ↔ ConfigDefect files path failure) := by
  have file : FailsWith failure (readConfig files path) ↔ ConfigDefect files path failure :=
    ⟨configDefect_of_failsWith usual, ConfigDefect.failsWith⟩
  rw [← file]
  exact ⟨failsWith_bind_iff fun _ => rfl, failsWith_bind_iff fun _ => rfl⟩

/-- A date that is read from a mapping, which is not the text that its reader expects. -/
theorem load_defect_notText :
    let files : Files := fun _ => .ok (Utf8.encode "!!timestamp \x7b=: x\x7d")
    IsUsual files "f.yaml" ∧ FailsWith .notText (loadFilters files "f.yaml") ∧
      ConfigDefect files "f.yaml" .notText := by
  intro files
  have usual : IsUsual files "f.yaml" := by
    intro text given _
    have same := congrArg Utf8.decode? (Except.ok.inj given)
    rw [Utf8.decode?_encode, Utf8.decode?_encode, Option.some.injEq] at same
    rw [← same]
    decide +kernel
  have fails : FailsWith .notText (loadFilters files "f.yaml") := by decide +kernel
  exact ⟨usual, fails, (load_defect_iff usual .notText).1.1 fails⟩

/-- **Bytes that are not UTF-8 are not reported**, nor is a date of YAML that is out of range. -/
theorem load_defect_notUtf8 :
    FailsWith .badEncoding (loadFilters (fun _ => .ok [0xFF]) "f.yaml") ∧
      FailsWith .badEncoding (GitHub.loadConfig (fun _ => .ok [0xFF]) "g.json") ∧
      FailsWith .badScalar (loadFilters (fun _ => .ok (Utf8.encode "2022-13-45")) "f.yaml") := by
  decide +kernel

end DocumentFilter
