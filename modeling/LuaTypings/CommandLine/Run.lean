import LuaTypings.Batch
import LuaTypings.CommandLine.Invocation

/-!
# Running a command

A run reads the command line and carries the command out on a host. It answers with an exit code: 0 when all went
well, 1 when the command failed, 2 when the command line is wrong.
-/

namespace LuaTypings.CommandLine

/-- Why a run stops without an exit code. -/
inductive RunError where
  /-- The log file cannot be written to. -/
  | log (error : FileError)
  /-- There is no path to a configuration. -/
  | noConfigPath
  /-- The configuration cannot be read. -/
  | load (error : LoadError)
  /-- The declaration cannot be written. -/
  | write (error : FileError)
  deriving DecidableEq, Repr

/-- The words for a run's error. -/
def RunError.message : RunError → Text
  | log error => error.message
  | noConfigPath => "expected str, bytes or os.PathLike object, not list"
  | load error => error.message
  | write error => error.message

variable {m : Type → Type} [Monad m] [Host m]

/-- Says why a run fails, and gives the exit code for it. -/
def fail (code : Nat) (reason : Text) : m (Except RunError Nat) := do
  Host.print .errors (reason ++ ['\n'])
  return .ok code

/-- The variables that a configuration asks for, as the host has them. -/
def hostEnvironment : m (Text → Option Text) := do
  let api ← Host.environmentValue apiVariable
  let output ← Host.environmentValue outputVariable
  return fun name => if name = apiVariable then api else if name = outputVariable then output else none

/-- Goes on with the configuration that a path names. What the configuration gets wrong is a failure of the command;
what keeps it from being read stops the run. -/
def withSettings (path : Option Path) (go : Settings → m (Except RunError Nat)) : m (Except RunError Nat) := do
  match path with
  | none => return .error .noConfigPath
  | some p =>
    match ← Settings.load p (← hostEnvironment) with
    | .ok settings => go settings
    | .error (.settings e) => fail 1 e.message
    | .error e => return .error (.load e)

/-- Generates declarations. -/
def generate (log : Log) (module : Option Text) (settings : Settings) : m (Except RunError Nat) := do
  match ← Batch.run log settings module with
  | .error e => fail 1 e.message
  | .ok report =>
    Host.print .output ("Done! " ++ report.countsText ++ "\n")
    return .ok report.exitCode

/-- The line for a module in a list of modules. -/
def listLine (module : ModuleSpec) : Text :=
  Text.join "\t" [module.name, module.sourceFile, module.flagsText] ++ "\n"

/-- Lists modules. -/
def showModules (settings : Settings) : m (Except RunError Nat) := do
  settings.registry.modules.forM fun module => Host.print .output (listLine module)
  return .ok 0

/-- A path as the user sees it: below the current directory when it leads there. -/
def shownPath (p : Path) : m Path := do
  let resolved ← Host.resolve p
  return (Path.below? (← Host.currentDirectory) resolved).getD p

/-- Writes a declaration to a file, or prints it. -/
def deliver (declaration : Text) : (output : Option Path) → m (Except RunError Nat)
  | none => do
    Host.print .output declaration
    return .ok 0
  | some output => do
    match ← Batch.writeDeclaration output declaration with
    | .error e => return .error (.write e.error)
    | .ok () =>
      Host.print .output ("Declaration written to " ++ (← shownPath output).toText ++ "\n")
      return .ok 0

/-- The renderer under a filter that breaks off: a pattern is missing behind those of the module. A class that passes
none of these has nothing more to be compared with. -/
def brokenFilterRenderer : Renderer := fun m spec =>
  if m.classes.all fun c => Declaration.passesFilter c.name spec.classFilter then plainRenderer m spec
  else .error ⟨"AttributeError", "'list' object has no attribute 'endswith'"⟩

/-- Declares one file with a renderer. -/
def declareFile (log : Log) (renderer : Renderer) (file : Path) (module : ModuleSpec) (output : Option Path) :
    m (Except RunError Nat) := do
  if !(← Host.exists? file) then fail 1 (Batch.missingReason file)
  else match ← Host.readText file with
    | .error e => fail 1 (Batch.unreadableReason file e)
    | .ok source =>
      let outcome ← Batch.outcomeLogged log renderer source module
      match outcome with
      | .generated declaration => deliver declaration output
      | .skipped reason | .failed reason => fail 1 (outcome.status ++ ": " ++ reason)

/-- Carries out a command. -/
def execute (log : Log) : Command → m (Except RunError Nat)
  | .generate config module => withSettings config (generate log module)
  | .list config => withSettings config showModules
  | .translate file module filterBreaksOff output =>
    declareFile log (if filterBreaksOff then brokenFilterRenderer else plainRenderer) file module output
  | .serve host portNumber => fail 1 ("Cannot listen on " ++ host ++ ":" ++ portNumber)
  | .help text => do
    Host.print .output (text ++ "\n")
    return .ok 0

/-- Runs the program with its arguments. -/
def run (arguments : List Text) : m (Except RunError Nat) := do
  match Invocation.ofArguments arguments with
  | .error failure => fail 2 failure.message
  | .ok invocation =>
    match ← Log.start invocation.verbose invocation.logFile with
    | .error e => return .error (.log e)
    | .ok log => execute log invocation.command

end LuaTypings.CommandLine
