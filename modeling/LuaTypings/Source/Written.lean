import LuaTypings.Source.Directive

/-!
# How directives are written

Every directive that says something has a line that says it.
-/

namespace LuaTypings.Source

/-- The mark of a member or a parameter that may be left out. -/
def optionalMark (optional : Bool) : Text := if optional then ['?'] else []

/-- The line of an annotation. -/
def annotationLine (keyword : Text) (parts : List Text) : Text := "---@" ++ Text.join " " (keyword :: parts)

/-- The line of a field: its name, its type, and the prose behind it if there is any. -/
def FieldNote.line (note : FieldNote) : Text :=
  annotationLine "field" ((note.name ++ optionalMark note.optional) :: note.type :: note.description.toList)

/-- The line of a declaration, its class behind a path of other names. -/
def DeclaredFunction.line (path : List Text) (d : DeclaredFunction) : Text :=
  "function " ++ Text.join "." (path ++ [d.className]) ++ (if d.colon then [':'] else ['.']) ++ d.method ++
    "(" ++ Text.join ", " d.params ++ ")"

/-- The line of a directive. Code that ends annotations, and what says nothing, has no line of its own. A path of
names may stand in front of the class of a declaration. -/
def Directive.line? (path : List Text) : Directive → Option Text
  | .classStart name => some (annotationLine "class" [name])
  | .alias name body => some (annotationLine "alias" [name, body])
  | .exportHint name => some (annotationLine "type" [name])
  | .param note => some (annotationLine "param" [note.name ++ optionalMark note.optional, note.type])
  | .returns type => some (annotationLine "return" [type])
  | .indexField key value => some (annotationLine "field" ["[" ++ key ++ "]", value])
  | .field note => some note.line
  | .description text => some ("--- " ++ text)
  | .function d => some (d.line path)
  | .nested outer inner => some (outer ++ "." ++ inner ++ " = \x7b\x7d")
  | .otherCode | .silent => none

end LuaTypings.Source
