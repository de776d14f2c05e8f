/-!
# Log entries

A run leaves a log. Entries are values: every part of the library that has something to say about
its work says it by a function beside the one that does the work, and the command line decides what
is shown.
-/

namespace ModelSchemas

/-- How much an entry matters. -/
inductive LogLevel where
  | debug
  | info
  | warning
  | error
deriving DecidableEq, Repr

namespace LogLevel

/-- The rank of a level. -/
def rank : LogLevel → Nat
  | debug => 10
  | info => 20
  | warning => 30
  | error => 40

/-- The word for a level. -/
def word : LogLevel → String
  | debug => "DEBUG"
  | info => "INFO"
  | warning => "WARNING"
  | error => "ERROR"

/-- Whether a level matters at least as much as another. -/
def atLeast (level threshold : LogLevel) : Bool := threshold.rank ≤ level.rank

end LogLevel

/-- One entry: its level, the part of the program that wrote it, and the message. -/
structure LogEntry where
  level : LogLevel
  source : String
  message : String
deriving DecidableEq, Repr

/-- An entry as one line that starts with the time of day. -/
def LogEntry.line (time : String) (entry : LogEntry) : String :=
  let word := entry.level.word ++ String.ofList (List.replicate (8 - entry.level.word.length) ' ')
  s!"{time} │ {word} │ {entry.source} │ {entry.message}"

/-- The entries of a run, in order. -/
abbrev Log := List LogEntry

namespace Log

/-- The entries that matter at least as much as `threshold`. -/
def atLeast (threshold : LogLevel) (log : Log) : Log :=
  log.filter fun entry => entry.level.atLeast threshold

end Log

end ModelSchemas
