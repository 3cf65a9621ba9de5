import LuaTypings.Declaration.DocComment
import LuaTypings.Model.Basic
import LuaTypings.TypeText.Declared

/-!
# Blocks

A class is declared by a block: an enumeration when it holds nothing but numbers, an interface otherwise. Every
member stands on a line of its own, under the line of its description if it has one.
-/

namespace LuaTypings.Declaration

/-- Whether a class is declared as an enumeration: it has data fields only, and all of them are numbers. -/
def isEnumeration (c : ClassModel) : Bool :=
  !c.dataFields.isEmpty && c.methods.isEmpty && c.indexSignatures.isEmpty &&
    c.dataFields.all fun f => TypeText.declaredType f.type == "number"

/-- The line of a member of an enumeration, which is numbered by its place. -/
def enumMemberLine (f : DataField) : Text := "  " ++ f.name ++ ","

/-- The lines between curly brackets behind a heading. -/
def braced (heading : Text) (body : List Text) : List Text := (heading ++ " \x7b") :: body ++ [['\x7d']]

/-- The lines of an enumeration. -/
def enumLines (c : ClassModel) : List Text :=
  braced ("declare enum " ++ c.name)
    (c.dataFields.flatMap fun f => docLines f.description ++ [enumMemberLine f])

/-- The line of what a class holds under every key of a type. -/
def indexLine (s : IndexSignature) : Text :=
  "  [key: " ++ TypeText.declaredType s.key ++ "]: " ++ TypeText.declaredType s.value ++ ";"

/-- The type of a data field. An enumeration's name stands for one of its numbers, so a field that holds the
enumeration itself has the type of that name as a value. -/
def dataFieldType (enumerationNames : List Text) (type : Text) : Text :=
  let declared := TypeText.declaredType type
  if enumerationNames.contains declared then "typeof " ++ declared else declared

/-- The line that declares a data field. -/
def dataFieldLine (enumerationNames : List Text) (f : DataField) : Text :=
  "  " ++ f.name ++ (if f.optional then ['?'] else []) ++ ": " ++ dataFieldType enumerationNames f.type ++ ";"

/-- The line that declares a method. -/
def methodLine (m : Method) : Text := "  " ++ (TypeText.Callable.ofText m.type).memberText m.name ++ ";"

/-- The lines of an interface, given the names that are enumerations in the same file. -/
def interfaceLines (enumerationNames : List Text) (c : ClassModel) : List Text :=
  braced ("interface " ++ c.name)
    (c.indexSignatures.map indexLine ++
      (c.dataFields.flatMap fun f => docLines f.description ++ [dataFieldLine enumerationNames f]) ++
      c.methods.flatMap fun m => docLines m.description ++ [methodLine m])

/-- The text of an enumeration. -/
def enumText (c : ClassModel) : Text := Text.join "\n" (enumLines c)

/-- The text of an interface. -/
def interfaceText (enumerationNames : List Text) (c : ClassModel) : Text :=
  Text.join "\n" (interfaceLines enumerationNames c)

end LuaTypings.Declaration
