import LuaTypings.TypeText.Signature

/-!
# Directives

What one line of annotated source says. Annotations stand in comments of three dashes; of the code itself only
function declarations and the assignment of an empty nested table matter.
-/

namespace LuaTypings.Source

/-- The declaration of a function as a member of a class, `function Class.method(a, b)` or, with a colon and a
receiver left implicit, `function Class:method(a, b)`. -/
structure DeclaredFunction where
  className : Text
  method : Text
  params : List Text
  colon : Bool
  deriving DecidableEq, Repr

/-- What a parameter annotation says. -/
structure ParamNote where
  name : Text
  type : Text
  optional : Bool
  deriving DecidableEq, Repr

/-- What a field annotation says. The description is the prose behind the type, if there is any. -/
structure FieldNote where
  name : Text
  type : Text
  optional : Bool
  description : Option Text
  deriving DecidableEq, Repr

/-- Whether the field is a method: its type is a function type. -/
def FieldNote.isMethod (note : FieldNote) : Bool := TypeText.isFunctionText note.type

/-- What one line says. -/
inductive Directive where
  /-- Names the class that the following fields belong to. -/
  | classStart (name : Text)
  /-- Names a type expression. -/
  | alias (name body : Text)
  /-- Names the class that a source exports. -/
  | exportHint (name : Text)
  /-- Describes a parameter of the function declared next. -/
  | param (note : ParamNote)
  /-- Describes what the function declared next returns. -/
  | returns (type : Text)
  /-- Declares what a class holds under every key of a type. -/
  | indexField (key value : Text)
  /-- Declares a member of a class. -/
  | field (note : FieldNote)
  /-- A line of prose for the member declared next. -/
  | description (text : Text)
  /-- Declares a function. -/
  | function (declaration : DeclaredFunction)
  /-- Assigns a new table to a member of a table. -/
  | nested (outer inner : Text)
  /-- Any other code, which ends the annotations before it. -/
  | otherCode
  /-- A line that says nothing. -/
  | silent
  deriving DecidableEq, Repr

end LuaTypings.Source
