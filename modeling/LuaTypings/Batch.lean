import LuaTypings.Settings
import LuaTypings.Log
import LuaTypings.Outcome

/-!
# Batches

A batch reads the sources of a registry's modules, or of one of them, and writes a declaration file for each. What
goes wrong with one module is counted and never stops the others.
-/

namespace LuaTypings

/-- What a batch did. -/
structure BatchReport where
  generated : Nat
  skipped : Nat
  errors : Nat
  /-- The paths of the declaration files, in order. -/
  outputs : List Path
  deriving DecidableEq, Repr

namespace BatchReport

/-- Nothing is done yet. -/
def empty : BatchReport := ⟨0, 0, 0, []⟩

/-- The exit code of a program that did the batch. -/
def exitCode (s : BatchReport) : Nat := if s.errors = 0 then 0 else 1

/-- The counts in words. -/
def countsText (s : BatchReport) : Text :=
  Text.ofNat s.generated ++ " generated, " ++ Text.ofNat s.skipped ++ " skipped, " ++ Text.ofNat s.errors ++
    " errors"

/-- Counts what became of one module. -/
def add (s : BatchReport) (output : Path) : Outcome → BatchReport
  | .generated _ => { s with generated := s.generated + 1, outputs := s.outputs ++ [output] }
  | .skipped _ => { s with skipped := s.skipped + 1 }
  | .failed _ => { s with errors := s.errors + 1 }

end BatchReport

/-- Why a batch did not start. -/
inductive BatchError where
  | settings (error : SettingsFault)
  | registry (error : RegistryError)
  deriving DecidableEq, Repr

/-- The words for a batch's error. -/
def BatchError.message : BatchError → Text
  | settings error => error.message
  | registry error => error.message

namespace Batch

/-- The part of the program that a batch's records are from. -/
def logSource : Text := "orchestrator"

/-- Where a module's declaration goes. -/
def declarationPath (outputDirectory : Path) (module : ModuleSpec) : Path :=
  outputDirectory.join (.ofText (module.name ++ ".d.ts"))

/-- Why a source that does not exist has no declaration. -/
def missingReason (p : Path) : Text := "API file not found: " ++ p.toText

/-- Why a source that is no text has no declaration. -/
def unreadableReason (p : Path) (e : ReadError) : Text := "Failed to read " ++ p.toText ++ ": " ++ e.message

/-- Why a declaration does not reach its file. -/
def unwritableReason (p : Path) (e : FileError) : Text := "Failed to write " ++ p.toText ++ ": " ++ e.message

variable {m : Type → Type} [Monad m] [Host m]

/-- What becomes of a source, given a renderer. What the declaration holds, or that there is none, goes to the log. -/
def outcomeLogged (log : Log) (renderer : Renderer) (source : Text) (spec : ModuleSpec) : m Outcome := do
  let outcome := Outcome.ofSourceBy renderer source spec
  match outcome with
  | .generated _ =>
    log.record .debug "emitter" (Declaration.File.ofModel (Model.ofSource source) spec).summary
  | .skipped _ => pure ()
  | .failed _ => log.record .debug "translate" ("Emission failed for " ++ spec.name)
  return outcome

/-- Writes a declaration, the directories above it being made. -/
def writeDeclaration (output : Path) (declaration : Text) : m (Except WriteError Unit) := do
  match ← Host.ensureDirectories output.parent with
  | .error e => return .error (.unopened e)
  | .ok () => Host.writeText output declaration

/-- What becomes of the source of a module. -/
def translateModule (log : Log) (apiDirectory : Path) (module : ModuleSpec) : m Outcome := do
  let input := apiDirectory.join (.ofText module.sourceFile)
  if !(← Host.exists? input) then return .failed (missingReason input)
  match ← Host.readText input with
  | .error e => return .failed (unreadableReason input e)
  | .ok source => outcomeLogged log plainRenderer source module

/-- Reads the source of one module and writes its declaration. -/
def processModule (log : Log) (apiDirectory output : Path) (module : ModuleSpec) : m Outcome := do
  match ← translateModule log apiDirectory module with
  | .generated declaration =>
    match ← writeDeclaration output declaration with
    | .error e => return .failed (unwritableReason output e.error)
    | .ok () =>
      log.record .info logSource ("  Generated: " ++ output.toText)
      return .generated declaration
  | outcome => return outcome

/-- Processes one module, logs what becomes of it and counts it. -/
def step (log : Log) (apiDirectory outputDirectory : Path) (report : BatchReport) (module : ModuleSpec) :
    m BatchReport := do
  log.record .info logSource ("Processing: " ++ module.name ++ " (" ++ module.flagsText ++ ")")
  let output := declarationPath outputDirectory module
  let outcome ← processModule log apiDirectory output module
  match outcome with
  | .generated _ => pure ()
  | .skipped reason => log.record .warning logSource ("  " ++ reason)
  | .failed reason => log.record .error logSource ("  " ++ reason)
  return report.add output outcome

/-- Processes all modules of a configuration's registry in order, or the one of a name. -/
def run (log : Log) (settings : Settings) (name : Option Text) : m (Except BatchError BatchReport) := do
  match settings.directories with
  | .error e => return .error (.settings e)
  | .ok (apiDirectory, outputDirectory) =>
    match settings.registry.select name with
    | .error e => return .error (.registry e)
    | .ok modules =>
      log.record .info logSource
        ("Generating TypeScript declarations for " ++ Text.ofNat modules.length ++ " module(s)")
      let report ← modules.foldlM (step log apiDirectory outputDirectory) .empty
      log.record .info logSource ("Done! " ++ report.countsText)
      return .ok report

end Batch

end LuaTypings
