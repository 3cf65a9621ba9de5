import LuaTypings.Text.Basic

/-!
# Models

What is known of an annotated source: its classes with their members, its aliases, and the class that it exports.
Classes and aliases keep the order in which they were first mentioned.
-/

namespace LuaTypings

/-- A member that is called, with its function type as written. -/
structure Method where
  name : Text
  type : Text
  description : Option Text
  deriving DecidableEq, Repr

/-- A member that holds a value. -/
structure DataField where
  name : Text
  type : Text
  description : Option Text
  optional : Bool
  deriving DecidableEq, Repr

/-- What a class holds under every key of a type. -/
structure IndexSignature where
  key : Text
  value : Text
  deriving DecidableEq, Repr

/-- A class with its members, each kind in the order of declaration. -/
structure ClassModel where
  name : Text
  methods : List Method
  dataFields : List DataField
  indexSignatures : List IndexSignature
  deriving DecidableEq, Repr

/-- A name for a type expression. -/
structure Alias where
  name : Text
  body : Text
  deriving DecidableEq, Repr

/-- Everything known of one source. -/
structure Model where
  classes : List ClassModel
  aliases : List Alias
  mainExport : Option Text
  deriving DecidableEq, Repr

/-- A class without members. -/
def ClassModel.empty (name : Text) : ClassModel := ⟨name, [], [], []⟩

namespace Model

/-- The model of a source that says nothing. -/
def empty : Model := ⟨[], [], none⟩

/-- The class of a name, if it was mentioned. -/
def class? (m : Model) (name : Text) : Option ClassModel := m.classes.find? (·.name = name)

/-- The names of the classes, in order. -/
def classNames (m : Model) : List Text := m.classes.map (·.name)

end Model

end LuaTypings
