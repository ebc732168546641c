/-!
# Log records

What the library has to say beside its results: a record has a level, the name of the
part that writes it and a message.
-/

namespace DocumentFilter

/-- The level of a record. -/
inductive LogLevel
  | debug
  | warning
deriving DecidableEq

/-- The word for a level. -/
def LogLevel.name : LogLevel → String
  | .debug => "DEBUG"
  | .warning => "WARNING"

/-- A record of the log. -/
structure LogRecord where
  level : LogLevel
  part : String
  message : String
deriving DecidableEq

/-- A record as it is written. -/
def LogRecord.line (r : LogRecord) : String :=
  r.level.name ++ " " ++ r.part ++ ": " ++ r.message

/-- The first line of the written record. -/
def LogRecord.head (r : LogRecord) : String :=
  String.ofList (r.line.toList.takeWhile (· ≠ '\n'))

/-- Records that are at least warnings. -/
def LogRecord.isWarning (r : LogRecord) : Bool :=
  r.level = .warning

end DocumentFilter
