import LuaTypings.Declaration.Block
import LuaTypings.Declaration.Filter
import LuaTypings.TypeText.Alias

/-!
# Declaration files

A declaration file holds, in this order, a header, the aliases, the enumerations, the interfaces, the global
binding of the main export and the module that exports it. A blank line separates these parts.
-/

namespace LuaTypings.Declaration

/-- What one declaration file declares. -/
structure File where
  /-- The file's own name for its source. -/
  sourceFile : Text
  /-- The name that the file is imported under. -/
  moduleName : Text
  /-- The aliases, in order. -/
  aliases : List Alias
  /-- The classes declared as enumerations, in order. -/
  enums : List ClassModel
  /-- The other classes, in order. -/
  interfaces : List ClassModel
  /-- The class that the module exports. -/
  mainExport : Option Text
  /-- Whether the main export is declared as a global constant too. -/
  declareGlobal : Bool
  deriving DecidableEq, Repr

namespace File

/-- The declaration file of a model, as a module specifies it. -/
def ofModel (m : Model) (spec : ModuleSpec) : File :=
  let kept := keptClasses m.classes spec.classFilter
  { sourceFile := spec.sourceFile
    moduleName := spec.name
    aliases := m.aliases
    enums := kept.filter isEnumeration
    interfaces := kept.filter (!isEnumeration ·)
    mainExport := chosenExport spec m kept
    declareGlobal := spec.declareGlobal }

/-- The names of the enumerations. -/
def enumerationNames (f : File) : List Text := f.enums.map (·.name)

/-- The blocks of the classes, enumerations first. -/
def blocks (f : File) : List Text := f.enums.map enumText ++ f.interfaces.map (interfaceText f.enumerationNames)

/-- The comment at the top. -/
def header (f : File) : Text :=
  "// Auto-generated from LuaCATS annotations\n// Source: " ++ f.sourceFile ++ "\n// Do not edit manually\n\n"

/-- The line of an alias. -/
def aliasLine (a : Alias) : Text := "type " ++ a.name ++ " = " ++ TypeText.declaredAlias a.body ++ ";\n"

/-- The lines of the aliases and a blank line, or nothing when there are none. -/
def aliasPart (f : File) : Text :=
  if f.aliases.isEmpty then [] else f.aliases.flatMap aliasLine ++ "\n"

/-- The blocks, each with a blank line behind it. -/
def blockPart (f : File) : Text := f.blocks.flatMap (· ++ "\n\n")

/-- The global constant for the main export. -/
def globalPart (f : File) (name : Text) : Text :=
  if f.declareGlobal then "// Global variable declaration\ndeclare const " ++ name ++ ": " ++ name ++ ";\n\n"
  else []

/-- The module that exports the main export. -/
def modulePart (f : File) (name : Text) : Text :=
  "// Module declaration for imports\ndeclare module \"" ++ f.moduleName ++ "\" \x7b\n  const _default: " ++
    name ++ ";\n  export = _default;\n\x7d\n"

/-- The parts that bind the main export, if there is one. -/
def exportPart (f : File) : Text :=
  match f.mainExport with
  | none => []
  | some name => f.globalPart name ++ f.modulePart name

/-- The text of the file. It ends in one line feed and no other blank. -/
def render (f : File) : Text :=
  Text.stripEnd (f.header ++ f.aliasPart ++ f.blockPart ++ f.exportPart) ++ "\n"

/-- What the file declares, counted. -/
def summary (f : File) : Text :=
  "Emitting " ++ f.moduleName ++ ": " ++ Text.ofNat f.aliases.length ++ " aliases, " ++
    Text.ofNat f.enums.length ++ " enums, " ++ Text.ofNat f.interfaces.length ++ " interfaces, export=" ++
    f.mainExport.getD "None"

end File

end LuaTypings.Declaration
