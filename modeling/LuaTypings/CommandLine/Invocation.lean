import LuaTypings.CommandLine.Grammar
import LuaTypings.Host.Path
import LuaTypings.ModuleSpec

/-!
# Invocations

What the program is asked to do: one of its commands, with what the command line says about it.
-/

namespace LuaTypings.CommandLine

/-- The options of the program and of its commands. -/
inductive OptionName where
  | help
  | verbose
  | logFile
  | config
  | moduleName
  | mainExport
  | filter
  | globalVariable
  | output
  | host
  | portNumber
  deriving DecidableEq, Repr

/-- The commands. -/
inductive CommandName where
  | generate
  | list
  | translate
  | serve
  deriving DecidableEq, Repr

namespace CommandName

/-- All commands. -/
def all : List CommandName := [generate, list, translate, serve]

/-- How a command is written. -/
def toText : CommandName → Text
  | generate => "generate"
  | list => "list"
  | translate => "translate"
  | serve => "serve"

/-- The command of a name. -/
def ofText? (name : Text) : Option CommandName := all.find? (·.toText = name)

end CommandName

/-- The name of the program. -/
def programName : Text := "dtsgen"

/-- The option that asks for help. -/
def helpOption : OptionSpec OptionName := ⟨.help, ["-h", "--help"], .help⟩

/-- The option for a more talkative log. -/
def verboseOption : OptionSpec OptionName := ⟨.verbose, ["-v", "--verbose"], .flag⟩

/-- An option that has one long name, and a value. -/
def valueOption (key : OptionName) (name : Text) : OptionSpec OptionName := ⟨key, [name], .text⟩

/-- The name of the operand that is a command. -/
def commandOperandName : Text := "command"

/-- The grammar of the program, up to the command. -/
def mainGrammar : Grammar OptionName where
  program := programName
  options := [helpOption, verboseOption, valueOption .logFile "--log-file"]
  operand := some ⟨commandOperandName, .command⟩

/-- The options that a command has besides those that every command has. -/
def CommandName.ownOptions : CommandName → List (OptionSpec OptionName)
  | generate | list => [valueOption .config "--config"]
  | translate =>
    [valueOption .moduleName "--module-name", valueOption .mainExport "--main-export",
     valueOption .filter "--filter", ⟨.globalVariable, ["--global-var"], .flag⟩,
     ⟨.output, ["-o", "--output"], .text⟩]
  | serve => [valueOption .host "--host", ⟨.portNumber, ["--port"], .wholeNumber⟩]

/-- The operand of a command. -/
def CommandName.operand : CommandName → Option Operand
  | generate => some ⟨"module", .optional⟩
  | translate => some ⟨"file", .required⟩
  | list | serve => none

/-- The grammar of what follows a command. -/
def CommandName.grammar (c : CommandName) : Grammar OptionName where
  program := programName ++ [' '] ++ c.toText
  options := helpOption :: verboseOption :: c.ownOptions
  operand := c.operand

/-- What the program shall do. -/
inductive Command where
  /-- Generates the declarations of a configuration's modules, or of one of them. The path may be missing. -/
  | generate (config : Option Path) (module : Option Text)
  /-- Lists the modules of a configuration. The path may be missing. -/
  | list (config : Option Path)
  /-- Reads one file and writes its declaration to a file or prints it. The filter may break off: a pattern is missing
  behind those of the module. -/
  | translate (file : Path) (module : ModuleSpec) (filterBreaksOff : Bool) (output : Option Path)
  /-- Answers requests. -/
  | serve (host : Text) (portNumber : Text)
  /-- Says what the options are. -/
  | help (text : Text)
  deriving DecidableEq, Repr

/-- A command, and where its log goes. -/
structure Invocation where
  verbose : Bool
  logFile : Option Path
  command : Command
  deriving DecidableEq, Repr

/-- What is wrong with a command line, and the program or command that says so. -/
structure UsageFailure where
  program : Text
  error : UsageError
  deriving DecidableEq, Repr

/-- The words for a usage failure. -/
def UsageFailure.message (f : UsageFailure) : Text := f.program ++ ": error: " ++ f.error.message

/-- The options of a grammar, in a text of lines. -/
def Grammar.helpText {κ : Type} (g : Grammar κ) : Text :=
  let operand : List Text := g.operand.toList.map (·.name)
  Text.join "\n" (Text.join " " ("usage:".toList :: g.program :: operand) ::
    g.options.map fun o => "  " ++ o.label)

/-- The path that a value gives; an empty value gives none. -/
def pathValue? (value : Option Text) : Option Path := (Text.nonEmpty? value).map Path.ofText

/-- The command that a reading of its arguments stands for. -/
def CommandName.command (c : CommandName) (r : Reading OptionName) : Command :=
  let config := ((r.last? .config).getD (some ['.'])).map Path.ofText
  match c with
  | generate => .generate config r.operands.head?
  | list => .list config
  | translate =>
    let file := Path.ofText (r.operands.headD [])
    .translate file
      { name := (Text.nonEmpty? (r.value? .moduleName)).getD file.stem
        sourceFile := file.name
        mainExport := r.value? .mainExport
        classFilter := ((r.values .filter).takeWhile Option.isSome).filterMap id
        declareGlobal := r.has .globalVariable }
      ((r.values .filter).contains none) (pathValue? (r.value? .output))
  | serve => .serve ((r.value? .host).getD "127.0.0.1") ((r.value? .portNumber).getD "8000")

/-- The invocation that only says what the options of a grammar are. -/
def Invocation.help (g : Grammar OptionName) : Invocation := ⟨false, none, .help g.helpText⟩

/-- Reads a command line by a grammar. -/
def readBy (g : Grammar OptionName) (arguments : List Text) : Except UsageFailure (Reading OptionName) :=
  (g.read arguments).mapError fun e => ⟨g.program, e⟩

/-- The invocation that a command line stands for. A command reads what follows it before anything that is left over
is judged. -/
def Invocation.ofArguments (arguments : List Text) : Except UsageFailure Invocation := do
  let main ← readBy mainGrammar arguments
  if main.wantsHelp then return .help mainGrammar
  let name := main.operands.headD []
  match CommandName.ofText? name with
  | none =>
    throw ⟨mainGrammar.program, .invalidChoice commandOperandName name (CommandName.all.map CommandName.toText)⟩
  | some c =>
    let own ← readBy c.grammar main.operands.tail
    if own.wantsHelp then return .help c.grammar
    match main.extras ++ own.extras with
    | [] => return ⟨main.has .verbose || own.has .verbose, pathValue? (main.value? .logFile), c.command own⟩
    | extras => throw ⟨mainGrammar.program, .unrecognized extras⟩

end LuaTypings.CommandLine
