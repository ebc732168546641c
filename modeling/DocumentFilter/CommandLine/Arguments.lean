/-!
# Options and words of a command line

A command line is a list of words. A word that starts with a dash and has more than the
dash gives options; after the word `--` no word does. An option is given by its name, as
in `--name`, and where it takes a value as in `--name value` or `--name=value`; or by its
letter, as in `-n value` or `-nvalue`. Letters of options that take no value may share a
dash with others. The value of an option is the next word whatever that looks like.

Where the options of a command are not mixed with its other words, they end at the first
word that gives none.

* `DocumentFilter.CommandLine.Arguments`: what a command line says;
* `DocumentFilter.CommandLine.Arguments.read`: reads it off the words, unless an option is
  unknown, lacks its value or has one that it does not take.
-/

namespace DocumentFilter.CommandLine

/-- An option that a command has: its name, without dashes; its letter, if any; and whether
it takes a value. -/
structure Switch where
  name : String
  letter : Option Char
  takesValue : Bool
deriving DecidableEq

/-- What one word says: it is a word of its own, it ends the options, or it gives options.
Of these, only the last may take a value; the value may be part of the word or be still to
come. -/
inductive Reading
  | plain
  | endOfOptions
  | flags (names : List String)
  | valued (flags : List String) (name : String) (value : Option String)
deriving DecidableEq

namespace Reading

/-- Puts an option without a value before others. -/
def addFlag (name : String) : Reading → Reading
  | .flags names => .flags (name :: names)
  | .valued names last value => .valued (name :: names) last value
  | reading => reading

/-- The options that are given by letters. -/
def ofLetters (switches : List Switch) : List Char → Option Reading
  | [] => some (.flags [])
  | c :: rest =>
    match switches.find? fun switch => switch.letter = some c with
    | none => none
    | some switch =>
      if switch.takesValue then
        some (.valued [] switch.name (if rest = [] then none else some (String.ofList rest)))
      else (ofLetters switches rest).map (addFlag switch.name)

/-- The option that is given by its name, with the value behind an equals sign; none where
no option has the name, and nothing within where the value does not fit the option. -/
def ofName? (switches : List Switch) (cs : List Char) : Option (Option Reading) :=
  let name := String.ofList (cs.takeWhile (· ≠ '='))
  (switches.find? fun switch => "--" ++ switch.name = name).map fun switch =>
    match switch.takesValue, cs.dropWhile (· ≠ '=') with
    | true, [] => some (.valued [] switch.name none)
    | true, _ :: value => some (.valued [] switch.name (some (String.ofList value)))
    | false, [] => some (.flags [switch.name])
    | false, _ :: _ => none

/-- **What a word says**; none where it gives an option that it must not. -/
def ofWord (switches : List Switch) (word : String) : Option Reading :=
  match word.toList with
  | ['-', '-'] => some .endOfOptions
  | '-' :: c :: rest =>
    match ofName? switches ('-' :: c :: rest) with
    | some reading => reading
    | none => if c = '-' then none else ofLetters switches (c :: rest)
  | _ => some .plain

end Reading

/-- **What a command line says**: the options without a value, those with one and the other
words, each in order. -/
structure Arguments where
  flags : List String
  values : List (String × String)
  words : List String
deriving DecidableEq

namespace Arguments

/-- Nothing but words. -/
def ofWords (words : List String) : Arguments := ⟨[], [], words⟩

/-- Puts options without a value before the others. -/
def addFlags (names : List String) (arguments : Arguments) : Arguments :=
  { arguments with flags := names ++ arguments.flags }

/-- Puts an option with its value before the others. -/
def addValue (name value : String) (arguments : Arguments) : Arguments :=
  { arguments with values := (name, value) :: arguments.values }

/-- Puts a word before the others. -/
def addWord (word : String) (arguments : Arguments) : Arguments :=
  { arguments with words := word :: arguments.words }

/-- **Reads a command line.** If `mixed`, options may come after other words. -/
def read (switches : List Switch) (mixed : Bool) : List String → Option Arguments
  | [] => some (ofWords [])
  | word :: rest =>
    match Reading.ofWord switches word with
    | none => none
    | some .endOfOptions => some (ofWords rest)
    | some .plain =>
      if mixed then (read switches mixed rest).map (addWord word)
      else some (ofWords (word :: rest))
    | some (.flags names) => (read switches mixed rest).map (addFlags names)
    | some (.valued names name (some value)) =>
      (read switches mixed rest).map fun more => (more.addValue name value).addFlags names
    | some (.valued names name none) =>
      match rest with
      | [] => none
      | value :: rest =>
        (read switches mixed rest).map fun more => (more.addValue name value).addFlags names

/-- Whether an option without a value is given. -/
def has (arguments : Arguments) (name : String) : Bool :=
  arguments.flags.contains name

/-- All values of an option. -/
def all (arguments : Arguments) (name : String) : List String :=
  (arguments.values.filter fun given => given.1 = name).map (·.2)

/-- The value of an option: the last one that is given. -/
def last? (arguments : Arguments) (name : String) : Option String :=
  (arguments.all name).getLast?

end Arguments

end DocumentFilter.CommandLine
