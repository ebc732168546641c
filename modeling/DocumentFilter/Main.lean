import DocumentFilter.CommandLine.Report
import Std.Time.DateTime.Timestamp

/-!
# The program

Reads what a command line names, runs it and prints the report. There is no connection to
the GitHub interface, so no request to it gets a reply.
-/

namespace DocumentFilter.CommandLine

/-- How the program is called. -/
def usageText : String :=
  "Usage: [--debug] COMMAND\n\n" ++
  "Commands:\n" ++
  "  filter [INPUT] [-c FILE] [-q QUERY -o OPERATION -v VALUE ...]\n" ++
  "  explain [INPUT] [-c FILE] [-q QUERY -o OPERATION -v VALUE ...]\n" ++
  "  query QUERY [INPUT]\n" ++
  "  github CONFIG [-m MINUTES] [--host HOST] [--token TOKEN]"

/-- The words for a failure that is not foreseen. -/
def Defect.message : Defect → String
  | .encoding => "a text is not UTF-8"
  | .unwritable => "a text holds half of a pair"
  | .value => "a value is out of its bounds"
  | .place => "a number has no digits"
  | .name => "a word is unknown"
  | .kind => "a value has a wrong kind"
  | .range => "a number or a time is out of range"
  | .absence => "a date is none"

/-- What a file holds, or why it cannot be read. -/
def readFile (path : String) : IO (Except FileFault (List UInt8)) := do
  match ← (IO.FS.readBinFile path).toBaseIO with
  | .ok bytes => return .ok bytes.toList
  | .error (.inappropriateType ..) => return .error .directory
  | .error _ => return .error .missing

/-- The files under several paths. -/
def readFiles (paths : List String) : IO Files := do
  let found ← paths.mapM fun path => return (path, ← readFile path)
  return fun path => (found.lookup path).getD (.error .missing)

/-- The present. -/
def present : IO Moment := do
  let nanoseconds := (← Std.Time.Timestamp.now).toNanosecondsSinceUnixEpoch.val
  return (Moment.ofMicros? (Check.unixEpoch + nanoseconds / 1000)).getD ⟨0, by decide⟩

/-- The surrounding of a command line. -/
def world (words : List String) : IO World := do
  let task := taskOf? words
  let input ←
    if task.any Task.readsInput then pure (← (← IO.getStdin).readBinToEnd).toList else pure []
  return {
    files := ← readFiles ((task.map Task.paths).getD [])
    input := input
    environment := ⟨← IO.getEnv "GITHUB_TOKEN", ← IO.getEnv "WEBQL_GITHUB_HOST"⟩
    api := fun _ => [.unreachable "no connection"]
    now := ← present }

/-- The texts at hand: the words, the input and the files that the words name. Of bytes that are not
UTF-8, it is what comes before them. -/
def textsAtHand (words : List String) (world : World) : List Char :=
  let paths := ((taskOf? words).map Task.paths).getD []
  let contents := world.input :: paths.filterMap fun path => (world.files path).toOption
  words.flatMap String.toList ++
    contents.flatMap fun bytes => (Utf8.decodeBlocks .between (Utf8.blocks blockSize bytes)).1

/-- The report on a command line, with stand-ins that keep away from the texts at hand. -/
def reportOn (words : List String) (world : World) : Report :=
  letI : StandIns := .avoiding (textsAtHand words world)
  execute world none words

/-- Prints what a report holds besides its messages. -/
def tellEnding : Ending → IO Unit
  | .stopped (.noTask .help) => IO.println usageText
  | .stopped (.noTask .usage) => IO.eprintln usageText
  | .stopped (.defect defect) => IO.eprintln ("Error: " ++ defect.message)
  | _ => return ()

end DocumentFilter.CommandLine

open DocumentFilter.CommandLine in
/-- Runs the command line. -/
def main (words : List String) : IO UInt32 := do
  let report := reportOn words (← world words)
  report.printed.forM fun line => IO.println line
  report.messages.forM fun line => IO.eprintln line
  tellEnding report.ending
  return report.ending.status.toUInt32
