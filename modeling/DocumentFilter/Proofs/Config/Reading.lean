import DocumentFilter.Config.Load
import DocumentFilter.Proofs.Document.RoundTrip
import DocumentFilter.Proofs.Text.Utf8

/-!
# What a configuration file holds

A configuration file is read in two steps: its bytes are decoded, and the text is read as JSON or as
YAML, whichever its name says. What each step gives is said here once, so that nothing else has to
look into them.

* `DocumentFilter.readText_cases`: **the text of a file**, or why there is none;
* `DocumentFilter.readConfig_of_json`, `DocumentFilter.readConfig_of_yaml`: the value of the text;
* `DocumentFilter.readConfig_text`: a JSON file that holds the text of a document.
-/

namespace DocumentFilter

/-! ### The text -/

section Texts

variable {files : Files} {path : String} (named : '\x00' ∉ path.toList)
include named

theorem readText_of_text {text : String} (given : files path = .ok (Utf8.encode text)) :
    readText files path = .ok (Text.lineFeeds text.toList) := by
  rw [readText, if_neg (by simpa using named), given]
  simp only [Utf8.decode?_encode]

theorem readText_of_bytes {bytes : List UInt8} (given : files path = .ok bytes)
    (none : ∀ text, bytes ≠ Utf8.encode text) : readText files path = .error .notUtf8 := by
  rw [readText, if_neg (by simpa using named), given]
  simp only [Utf8.decode?_eq_none_iff.2 none]

end Texts

/-- **The text of a file** is read, or it is known why not. -/
theorem readText_cases (files : Files) (path : String) :
    '\x00' ∈ path.toList ∧ readText files path = .error .noPath ∨
      '\x00' ∉ path.toList ∧
        ((∃ fault, readText files path = .error (.unreadable path fault)) ∨
          (∃ bytes, files path = .ok bytes ∧ (∀ text, bytes ≠ Utf8.encode text) ∧
            readText files path = .error .notUtf8) ∨
          ∃ text, files path = .ok (Utf8.encode text) ∧
            readText files path = .ok (Text.lineFeeds text.toList)) := by
  by_cases zero : '\x00' ∈ path.toList
  · exact .inl ⟨zero, by rw [readText, if_pos (by simpa using zero)]⟩
  · refine .inr ⟨zero, ?_⟩
    cases given : files path with
    | error fault =>
      refine .inl ⟨fault, ?_⟩
      rw [readText, if_neg (by simpa using zero), given]
    | ok bytes =>
      refine .inr ?_
      by_cases isText : ∃ text, bytes = Utf8.encode text
      · obtain ⟨text, rfl⟩ := isText
        exact .inr ⟨text, rfl, readText_of_text zero given⟩
      · have none : ∀ text, bytes ≠ Utf8.encode text := fun text same => isText ⟨text, same⟩
        exact .inl ⟨bytes, rfl, none, readText_of_bytes zero given none⟩

/-! ### The value -/

variable {files : Files} {path : String} {cs : List Char}

/-- A file without a text has no value. -/
theorem readConfig_of_error {error : ConfigError}
    (fails : readText files (normalPath path) = .error error) :
    readConfig files path = .error error := by
  simp only [readConfig, fails, bind, Except.bind]

/-- **The value of a JSON file.** -/
theorem readConfig_of_json (read : readText files (normalPath path) = .ok cs)
    (isJson : isJsonPath (normalPath path) = true) :
    readConfig files path =
      ((Json.read (String.ofList cs)).map Value.ofDocument).mapError (.json (normalPath path)) := by
  simp only [readConfig, read, bind, Except.bind, if_pos isJson]
  cases Json.read (String.ofList cs) <;> rfl

/-- **The value of a YAML file.** -/
theorem readConfig_of_yaml (read : readText files (normalPath path) = .ok cs)
    (isYaml : isJsonPath (normalPath path) = false) :
    readConfig files path = (Yaml.read cs).mapError (.yaml (normalPath path)) := by
  simp only [readConfig, read, bind, Except.bind, isYaml, Bool.false_eq_true, if_false]
  cases Yaml.read cs <;> rfl

/-- A JSON file is read like its text, with line feeds at the ends of the lines. -/
theorem readConfig_of_read (named : '\x00' ∉ (normalPath path).toList)
    (isJson : isJsonPath (normalPath path) = true) {text : String} {doc : Document}
    (holds : files (normalPath path) = .ok (Utf8.encode text))
    (read : Json.read (String.ofList (Text.lineFeeds text.toList)) = .ok doc) :
    readConfig files path = .ok (.ofDocument doc) := by
  rw [readConfig_of_json (readText_of_text named holds) isJson, read]
  rfl

/-- The text of a document is one line. -/
theorem Document.lineFeeds_text (doc : Document) :
    Text.lineFeeds doc.text.toList = doc.text.toList := by
  have line := Text.lineFeeds_append doc.isLine_text []
  rwa [Text.lineFeeds, List.append_nil] at line

/-- The text of a document is read as the document, in a file as well. -/
theorem Document.read_lineFeeds_text {doc : Document} (legible : doc.Legible) :
    Json.read (String.ofList (Text.lineFeeds doc.text.toList)) = .ok doc := by
  rw [doc.lineFeeds_text, String.ofList_toList, Json.read_text legible]

/-- **A JSON file that holds the text of a document** is read as the document. -/
theorem readConfig_text {doc : Document} (legible : doc.Legible)
    (named : '\x00' ∉ (normalPath path).toList) (json : isJsonPath (normalPath path) = true)
    (holds : files (normalPath path) = .ok (Utf8.encode doc.text)) :
    readConfig files path = .ok (.ofDocument doc) :=
  readConfig_of_read named json holds (doc.read_lineFeeds_text legible)

end DocumentFilter
