import DocumentFilter.Text.Quoted

/-!
# Files

What a path names among some files. Paths are relative to the directory that holds them;
what lies outside of it is taken not to be there.

* `DocumentFilter.Files`: what every path names;
* `DocumentFilter.Files.ofList`: the files with given names;
* `DocumentFilter.normalPath`: a path without what means nothing in it.
-/

namespace DocumentFilter

/-- Why a path names no file. -/
inductive FileFault
  | missing
  | notDirectory
  | directory
  | nameTooLong
deriving DecidableEq

/-- The system's number and words for a fault. -/
def FileFault.message : FileFault → String
  | .missing => "[Errno 2] No such file or directory"
  | .notDirectory => "[Errno 20] Not a directory"
  | .directory => "[Errno 21] Is a directory"
  | .nameTooLong => "[Errno 36] File name too long"

/-- What every path names: the bytes of a file, or nothing that can be read. -/
abbrev Files := String → Except FileFault (List UInt8)

/-- The parts of a text between slashes. -/
def slashParts : List Char → List (List Char)
  | [] => [[]]
  | c :: rest =>
    match slashParts rest with
    | [] => [[c]]
    | part :: parts => if c = '/' then [] :: part :: parts else (c :: part) :: parts

/-- The slashes that an absolute path starts with: two stay two, and more are one. -/
def rootText (cs : List Char) : List Char :=
  match (cs.takeWhile (· = '/')).length with
  | 0 => []
  | 2 => ['/', '/']
  | _ => ['/']

/-- The parts of a path that mean something. -/
def pathParts (cs : List Char) : List (List Char) :=
  (slashParts cs).filter fun part => part ≠ [] && part ≠ ['.']

/-- **A path without what means nothing in it**; a dot stands for an empty one. -/
def normalPath (path : String) : String :=
  let cs := path.toList
  match rootText cs, pathParts cs with
  | [], [] => "."
  | root, parts => String.ofList (root ++ (parts.intersperse ['/']).flatten)

/-- The last part of a path from its last point on, unless it starts or ends there. -/
def pathSuffix (path : String) : List Char :=
  let name := (pathParts path.toList).getLast?.getD []
  let behind := (name.reverse.takeWhile (· ≠ '.')).reverse
  if behind = [] ∨ name.length ≤ behind.length + 1 then [] else '.' :: behind

/-- A part of a path that is too long: more than 255 bytes. -/
def isTooLong (part : List Char) : Bool :=
  255 < (String.ofList part).utf8ByteSize

namespace Files

/-- What is named by parts of a path from somewhere above the directory that holds the
files, where there is nothing but directories. -/
def above (parts : List (List Char)) : Except FileFault (List UInt8) :=
  match parts.find? fun part => part ≠ [] && part ≠ ['.'] && part ≠ ['.', '.'] with
  | none => .error .directory
  | some part => if isTooLong part then .error .nameTooLong else .error .missing

/-- What is named by parts of a path from a directory on, which is given by its own parts
in reverse; `files` holds the parts of the names of all files. -/
def walk (files : List (List (List Char) × List UInt8)) :
    List (List Char) → List (List Char) → Except FileFault (List UInt8)
  | _, [] => .error .directory
  | here, part :: rest =>
    if part = [] ∨ part = ['.'] then walk files here rest
    else if part = ['.', '.'] then
      match here with
      | [] => above rest
      | _ :: outer => walk files outer rest
    else if isTooLong part then .error .nameTooLong
    else
      let here := part :: here
      match files.find? fun file => file.1 = here.reverse with
      | some file => if rest = [] then .ok file.2 else .error .notDirectory
      | none =>
        if files.any fun file => here.reverse.isPrefixOf file.1 then walk files here rest
        else .error .missing

/-- **The files with the given names.** -/
def ofList (files : List (String × List UInt8)) : Files := fun path =>
  let cs := path.toList
  if cs = [] then .error .missing
  else if 4095 < path.utf8ByteSize then .error .nameTooLong
  else if cs.head? = some '/' then above (slashParts cs)
  else walk (files.map fun (name, bytes) => (pathParts name.toList, bytes)) [] (slashParts cs)

end Files

end DocumentFilter
