import DocumentFilter.Config.Files
import DocumentFilter.Config.Filters
import DocumentFilter.Document.Reader
import DocumentFilter.GitHub.Config
import DocumentFilter.Text.Lines
import DocumentFilter.Text.Utf8
import DocumentFilter.Yaml.Value

/-!
# Configuration files

A configuration file holds UTF-8. A file whose name ends in `.json` is read as JSON, every
other one as YAML.

* `DocumentFilter.readConfig`: the value that a file holds;
* `DocumentFilter.loadFilters`: the filters that a file describes;
* `DocumentFilter.GitHub.loadConfig`: what a file says to watch on GitHub.
-/

namespace DocumentFilter

/-- Why a configuration cannot be loaded. -/
inductive ConfigError
  /-- The file cannot be read. -/
  | unreadable (path : String) (fault : FileFault)
  /-- The path is none, for it holds a zero character. -/
  | noPath
  /-- The file does not hold UTF-8. -/
  | notUtf8
  /-- The file does not hold JSON. -/
  | json (path : String) (error : Json.Error)
  /-- The file does not hold a YAML value. -/
  | yaml (path : String) (error : Yaml.Error)
  /-- The value does not describe filters. -/
  | filters (error : FiltersError)
  /-- The value does not say what to watch. -/
  | watch (path : String) (faults : List Fault)

/-- What kind of failure it is when a configuration cannot be loaded: one that is reported
as a configuration error, or one that is not foreseen. -/
inductive ConfigFailure
  | reported
  | badPath
  | badEncoding
  | badScalar
  | hugeNumber
  | emptyNumber
  | badWord
  | noDate
  | notText
deriving DecidableEq

namespace ConfigError

/-- The kind of a failure. -/
def failure : ConfigError → ConfigFailure
  | .noPath => .badPath
  | .notUtf8 => .badEncoding
  | .json _ (.oversized _) => .badScalar
  | .yaml _ .noCharacter => .badScalar
  | .yaml _ .badNumber => .badScalar
  | .yaml _ .badDate => .badScalar
  | .yaml _ .hugeNumber => .hugeNumber
  | .yaml _ .emptyNumber => .emptyNumber
  | .yaml _ .badWord => .badWord
  | .yaml _ .noDate => .noDate
  | .yaml _ .notText => .notText
  | _ => .reported

/-- The words for an error, its details apart. -/
def message : ConfigError → String
  | .unreadable path fault =>
    "Cannot read config file " ++ path ++ ": " ++ fault.message ++ ": " ++ Text.quoted path
  | .noPath => "embedded null byte"
  | .notUtf8 => "invalid UTF-8"
  | .json path error => "Invalid config file " ++ path ++ ": " ++ error.message
  | .yaml path _ => "Invalid config file " ++ path
  | .filters error => error.message
  | .watch path _ => "Invalid GitHub config " ++ path

/-- The faults of the value. -/
def faults : ConfigError → List Fault
  | .filters (.faults faults) => faults
  | .watch _ faults => faults
  | _ => []

/-- The words for an error, with the heading of the report on its faults. -/
def headline (e : ConfigError) : String :=
  match e with
  | .filters (.faults faults) => e.message ++ ": " ++ faultHeading "list[Filter]" faults
  | .watch _ faults => e.message ++ ": " ++ faultHeading "GitHubConfig" faults
  | e => e.message

end ConfigError

/-- A file that is read as JSON. -/
def isJsonPath (path : String) : Bool :=
  (pathSuffix path).map Operation.lowerChar = ".json".toList

/-- The text of a file, with line feeds at the ends of its lines. -/
def readText (files : Files) (path : String) : Except ConfigError (List Char) :=
  if path.toList.contains '\x00' then .error .noPath
  else
    match files path with
    | .error fault => .error (.unreadable path fault)
    | .ok bytes =>
      match Utf8.decode? bytes with
      | none => .error .notUtf8
      | some cs => .ok (Text.lineFeeds cs)

variable [StandIns]

/-- **The value that a file holds.** -/
def readConfig (files : Files) (path : String) : Except ConfigError Value := do
  let path := normalPath path
  let cs ← readText files path
  if isJsonPath path then
    match Json.read (String.ofList cs) with
    | .ok doc => return .ofDocument doc
    | .error error => .error (.json path error)
  else
    match Yaml.read cs with
    | .ok value => return value
    | .error error => .error (.yaml path error)

/-- **The filters that a file describes.** -/
def loadFilters (files : Files) (path : String) : Except ConfigError (List Filter) := do
  (filtersOfValue (← readConfig files path)).mapError .filters

/-- **What a file says to watch** on GitHub. -/
def GitHub.loadConfig (files : Files) (path : String) : Except ConfigError GitHub.Config := do
  (GitHub.Config.ofValue (← readConfig files path)).mapError (.watch path)

end DocumentFilter
