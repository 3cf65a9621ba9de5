import LuaTypings.Host.Basic
import LuaTypings.Registry.Default
import LuaTypings.Text.Digit

/-!
# Settings

A configuration says where the annotated sources are, where the declarations go and which modules there are. It is
read from a file, over which a local file beside it is laid; variables of the environment win over both. Where no
modules are given the built-in ones are taken.
-/

namespace LuaTypings

/-- What a configuration file gets wrong. -/
inductive SettingsFault where
  /-- The text of the file is malformed. -/
  | malformed (fileName : Text)
  /-- The file holds a value that is no mapping. -/
  | notMapping (fileName : Text)
  /-- The modules are no list. -/
  | modulesNotList
  /-- A module is no mapping. -/
  | moduleNotMapping (index : Nat)
  /-- A module lacks its name or its file. -/
  | moduleIncomplete (index : Nat)
  /-- The modules make no registry. -/
  | registry (error : RegistryError)
  /-- A directory that is needed is not given. -/
  | missingDirectories (apiMissing outputMissing : Bool)
  deriving DecidableEq, Repr

/-- The usual name of a configuration file. -/
def usualFileName : Text := ".dtsgen.yml"

/-- The name of the file that is laid over it. -/
def overlayFileName : Text := ".dtsgen.local.yml"

/-- The variable for the directory of the sources. -/
def apiVariable : Text := "DTSGEN_API_DIR"

/-- The variable for the directory of the declarations. -/
def outputVariable : Text := "DTSGEN_OUTPUT_DIR"

/-- The words for what a configuration file gets wrong. -/
def SettingsFault.message : SettingsFault → Text
  | malformed fileName => "Failed to parse " ++ fileName
  | notMapping fileName => fileName ++ " must contain a mapping at the root"
  | modulesNotList => "\u0060modules\u0060 must be a list of module entries"
  | moduleNotMapping index => "modules[" ++ Text.ofNat index ++ "] must be a mapping"
  | moduleIncomplete index => "modules[" ++ Text.ofNat index ++ "] requires \u0060name\u0060 and \u0060file\u0060"
  | registry error => error.message
  | missingDirectories apiMissing outputMissing =>
    let missing : List Text :=
      (if apiMissing then ["api_dir".toList] else []) ++ (if outputMissing then ["output_dir".toList] else [])
    Text.join " and " missing ++ " must be set in " ++ usualFileName ++ " (or via " ++ apiVariable ++ "/" ++
      outputVariable ++ ")"

/-- Why there is no configuration. -/
inductive LoadError where
  | settings (error : SettingsFault)
  | read (error : ReadError)
  /-- A path starts at a home directory that is not known. -/
  | noHome
  /-- A whole number has too many digits to be taken for a text. -/
  | tooManyDigits
  deriving DecidableEq, Repr

/-- The words for a loading error. -/
def LoadError.message : LoadError → Text
  | settings error => error.message
  | read error => error.message
  | noHome => "Could not determine home directory."
  | tooManyDigits =>
    "Exceeds the limit (" ++ Text.ofNat Text.maxDigits ++ " digits) for integer string conversion; use " ++
      "sys.set_int_max_str_digits() to increase the limit"

/-- Where sources and declarations are, and the modules. -/
structure Settings where
  /-- The directory that the paths in the configuration are seen from. -/
  root : Path
  apiDirectory : Option Path
  outputDirectory : Option Path
  registry : Registry

/-- Both directories, when they are given. -/
def Settings.directories (s : Settings) : Except SettingsFault (Path × Path) :=
  match s.apiDirectory, s.outputDirectory with
  | some api, some output => .ok (api, output)
  | api, output => .error (.missingDirectories api.isNone output.isNone)

namespace Settings

open Yaml (Scalar Value)

/-! ## Values as texts, truth values and lists -/

/-- The text of a value: strings and numbers have one. -/
def textOf? : Option Value → Except LoadError (Option Text)
  | some (.scalar (.string t)) | some (.scalar (.fraction t)) => .ok (some t)
  | some (.scalar (.whole n)) => if Text.isTooLong n then .error .tooManyDigits else .ok (some (Text.ofInt n))
  | _ => .ok none

/-- The text of a value, when it is not empty. -/
def nonEmptyTextOf? (v : Option Value) : Except LoadError (Option Text) := (textOf? v).map Text.nonEmpty?

/-- Whether a value says yes. Only truth values and a few words say anything. -/
def saysYes : Option Value → Bool
  | some (.scalar (.bool b)) => b
  | some (.scalar (.string t)) => ["true".toList, "yes".toList, "1".toList].contains (Text.lower (Text.strip t))
  | _ => false

/-- The text of an item of a list; a truth value has one too. -/
def itemText? : Value → Except LoadError (Option Text)
  | .scalar (.bool b) => .ok (some (if b then "True" else "False"))
  | item => textOf? (some item)

/-- The texts that a value lists. A string is a list of itself, and bytes are a list of numbers. -/
def textsOf : Option Value → Except LoadError (List Text)
  | some (.scalar (.string t)) => .ok [t]
  | some (.scalar (.bytes content)) => .ok (content.map fun byte => Text.ofNat byte.toNat)
  | some (.list items) => do return (← items.mapM itemText?).filterMap id
  | _ => .ok []

/-! ## Modules -/

/-- The module of an entry, which needs a name and a file. -/
def moduleOf (index : Nat) : Value → Except LoadError ModuleSpec
  | .mapping entries => do
    let name? ← nonEmptyTextOf? (Yaml.lookup "name" entries)
    let sourceFile? ← nonEmptyTextOf? (Yaml.lookup "file" entries)
    match name?, sourceFile? with
    | some name, some sourceFile =>
      let mainExport ← textOf? (Yaml.lookup "main_export" entries)
      let classFilter ← textsOf (Yaml.lookup "filter_classes" entries)
      return ⟨name, sourceFile, mainExport, classFilter, saysYes (Yaml.lookup "declare_global_var" entries)⟩
    | _, _ => throw (.settings (.moduleIncomplete index))
  | _ => throw (.settings (.moduleNotMapping index))

/-- The modules of entries that are numbered from an index on; the first malformed entry decides. -/
def modulesOf : (index : Nat) → List Value → Except LoadError (List ModuleSpec)
  | _, [] => .ok []
  | index, entry :: entries => do
    let first ← moduleOf index entry
    return first :: (← modulesOf (index + 1) entries)

/-- The registry of the modules that a configuration gives. -/
def registryOf : Option Value → Except LoadError Registry
  | none | some (.scalar .null) => .ok Registry.builtIn
  | some (.list entries) => do
    (Registry.ofModules (← modulesOf 0 entries)).mapError fun e => .settings (.registry e)
  | some _ => .error (.settings .modulesNotList)

/-! ## Files -/

/-- The entries that a file's text gives, by a reader of YAML. A blank text and an empty document give none. -/
def entriesOf (yamlValue? : Text → Option Value) (fileName text : Text) :
    Except SettingsFault (List (Scalar × Value)) :=
  if (Text.strip text).isEmpty then .ok []
  else match yamlValue? text with
    | none => .error (.malformed fileName)
    | some (.scalar .null) => .ok []
    | some (.mapping entries) => .ok entries
    | some _ => .error (.notMapping fileName)

/-- The text that names a directory: that of a variable if it is not empty, or else that of a key of the entries. -/
def directoryText? (environment : Text → Option Text) (entries : List (Scalar × Value)) (variableName key : Text) :
    Except LoadError (Option Text) :=
  match Text.nonEmpty? (environment variableName) with
  | some t => .ok (some t)
  | none => textOf? (Yaml.lookup key entries)

variable {m : Type → Type} [Monad m] [Host m]

/-- The entries of a file, none when there is no such file. -/
def readEntries (p : Path) : m (Except LoadError (List (Scalar × Value))) := do
  if ← Host.exists? p then
    match ← Host.readText p with
    | .error e => return .error (.read e)
    | .ok text => return (entriesOf (Host.yamlValue? m) p.name text).mapError .settings
  else return .ok []

/-- The path that a text gives, seen from a directory; nothing when the text is empty. -/
def pathOf (root : Path) : Option Text → m (Except LoadError (Option Path))
  | none | some [] => return .ok none
  | some text => do
    match ← Host.expandHome (.ofText text) with
    | none => return .error .noHome
    | some p => return .ok (some (root.join p))

/-- The directory that a variable or else a key of the entries gives, seen from another one. -/
def directoryOf (root : Path) (environment : Text → Option Text) (entries : List (Scalar × Value))
    (variableName key : Text) : m (Except LoadError (Option Path)) := do
  match directoryText? environment entries variableName key with
  | .error e => return .error e
  | .ok text => pathOf root text

/-- The path of the configuration file that a path names, by itself or as the directory that it is in. -/
def filePath (p : Path) : m (Except LoadError Path) := do
  match ← Host.expandHome p with
  | none => return .error .noHome
  | some p =>
    if ← Host.isDirectory p then return .ok (← Host.resolve (p.join (.ofText usualFileName)))
    else return .ok (← Host.resolve p)

/-- The configuration of entries, given what the environment says. -/
def ofEntries (root : Path) (environment : Text → Option Text) (entries : List (Scalar × Value)) :
    m (Except LoadError Settings) := do
  match ← directoryOf root environment entries apiVariable "api_dir" with
  | .error e => return .error e
  | .ok api =>
    match ← directoryOf root environment entries outputVariable "output_dir" with
    | .error e => return .error e
    | .ok output =>
      match registryOf (Yaml.lookup "modules" entries) with
      | .error e => return .error e
      | .ok registry => return .ok ⟨root, api, output, registry⟩

/-- Loads the configuration that a path names. -/
def load (p : Path) (environment : Text → Option Text) : m (Except LoadError Settings) := do
  match ← filePath p with
  | .error e => return .error e
  | .ok file =>
    match ← readEntries file with
    | .error e => return .error e
    | .ok entries =>
      match ← readEntries (file.withName overlayFileName) with
      | .error e => return .error e
      | .ok localEntries => ofEntries file.parent environment (entries ++ localEntries)

end Settings

end LuaTypings
