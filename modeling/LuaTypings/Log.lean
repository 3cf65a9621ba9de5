import LuaTypings.Host.Basic

/-!
# The log

A record says what happened, how much it matters and which part of the program says so. Records go to the stream
for errors and, when one is given, to a log file, where they are timed.
-/

namespace LuaTypings

/-- How much a record matters, the least first. -/
inductive LogLevel where
  | debug
  | info
  | warning
  | error
  deriving DecidableEq, Repr

/-- The name of a level. -/
def LogLevel.name : LogLevel → Text
  | debug => "DEBUG"
  | info => "INFO"
  | warning => "WARNING"
  | error => "ERROR"

/-- One record. -/
structure LogRecord where
  level : LogLevel
  /-- The part of the program that it is from. -/
  source : Text
  message : Text
  deriving DecidableEq, Repr

/-- Where records go. -/
structure Log where
  /-- Whether records that matter least are kept too. -/
  verbose : Bool
  /-- The log file. -/
  file : Option Path
  deriving DecidableEq, Repr

namespace Log

/-- The line of a record on the stream for errors. -/
def consoleLine (r : LogRecord) : Text := "[dtsgen] " ++ r.level.name ++ " " ++ r.message ++ "\n"

/-- The line of a record in a log file. -/
def fileLine (time : Text) (r : LogRecord) : Text :=
  time ++ " " ++ r.level.name ++ " dtsgen." ++ r.source ++ ": " ++ r.message ++ "\n"

/-- Whether a record is kept. -/
def keeps (log : Log) (r : LogRecord) : Bool := log.verbose || r.level ≠ .debug

variable {m : Type → Type} [Monad m] [Host m]

/-- Writes a record. A log file that can no longer be written to is no reason to stop. -/
def record (log : Log) (level : LogLevel) (source message : Text) : m Unit := do
  let r : LogRecord := ⟨level, source, message⟩
  if log.keeps r then
    Host.print .errors (consoleLine r)
    if let some file := log.file then
      let _ ← Host.append file (Text.encode (fileLine (← Host.timestamp) r))

/-- Starts a log. The log file and the directories above it are made when they do not exist. -/
def start (verbose : Bool) (file : Option Path) : m (Except FileError Log) := do
  match file with
  | none => return .ok ⟨verbose, none⟩
  | some p =>
    match ← Host.ensureDirectories p.parent with
    | .error e => return .error e
    | .ok () =>
      let file ← Host.resolve p
      match ← Host.append file [] with
      | .error e => return .error e
      | .ok () => return .ok ⟨verbose, some file⟩

end Log

end LuaTypings
