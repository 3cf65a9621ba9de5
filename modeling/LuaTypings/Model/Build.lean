import LuaTypings.Model.Basic
import LuaTypings.TypeText.Signature

/-!
# Building a model

A model grows by one entry at a time. A class appears with the first entry that names it. Within a class a name
belongs to one member only: a method takes a name over from a data field, and a data field never takes a name
that is in use. A method keeps its first definition, unless only a later one declares the receiver that a
method call needs.
-/

namespace LuaTypings

namespace ClassModel

/-- Adds what the class holds under every key of a type. -/
def putIndexSignature (c : ClassModel) (signature : IndexSignature) : ClassModel :=
  { c with indexSignatures := c.indexSignatures ++ [signature] }

/-- Whether a later definition of a method replaces the one before: it alone declares a receiver. -/
def upgrades (later earlier : Method) : Bool :=
  TypeText.namesReceiver later.type && !TypeText.namesReceiver earlier.type

/-- Puts a method in the place of its first namesake, or at the end when there is none. -/
def insertMethod (method : Method) : List Method → List Method
  | [] => [method]
  | earlier :: rest =>
    if earlier.name = method.name then (if upgrades method earlier then method else earlier) :: rest
    else earlier :: insertMethod method rest

/-- Adds a method and removes the data field of its name. -/
def putMethod (c : ClassModel) (method : Method) : ClassModel :=
  { c with
    dataFields := c.dataFields.filter (·.name ≠ method.name)
    methods := insertMethod method c.methods }

/-- Whether a member has the name. -/
def hasMember (c : ClassModel) (name : Text) : Bool :=
  c.methods.any (·.name = name) || c.dataFields.any (·.name = name)

/-- Adds a data field unless its name is in use. -/
def putDataField (c : ClassModel) (dataField : DataField) : ClassModel :=
  if c.hasMember dataField.name then c else { c with dataFields := c.dataFields ++ [dataField] }

end ClassModel

/-- One entry of a model. -/
inductive Entry where
  | classStart (name : Text)
  | alias (name body : Text)
  | mainExport (name : Text)
  | indexSignature (className : Text) (signature : IndexSignature)
  | method (className : Text) (method : Method)
  | dataField (className : Text) (dataField : DataField)
  deriving DecidableEq, Repr

namespace Model

/-- Changes the class of a name, which is put at the end first when it is new. -/
def updateClass (name : Text) (change : ClassModel → ClassModel) : List ClassModel → List ClassModel
  | [] => [change (.empty name)]
  | c :: rest => if c.name = name then change c :: rest else c :: updateClass name change rest

/-- Changes the class of a name within the model. -/
def onClass (m : Model) (name : Text) (change : ClassModel → ClassModel) : Model :=
  { m with classes := updateClass name change m.classes }

/-- Gives an alias its body; a name that is known already keeps its place. -/
def setAlias (a : Alias) : List Alias → List Alias
  | [] => [a]
  | b :: rest => if b.name = a.name then a :: rest else b :: setAlias a rest

/-- The model with one more entry. -/
def add (m : Model) : Entry → Model
  | .classStart name => m.onClass name id
  | .alias name body => { m with aliases := setAlias ⟨name, body⟩ m.aliases }
  | .mainExport name => { m with mainExport := some name }
  | .indexSignature className signature => m.onClass className (·.putIndexSignature signature)
  | .method className method => m.onClass className (·.putMethod method)
  | .dataField className dataField => m.onClass className (·.putDataField dataField)

/-- The model that a sequence of entries builds. -/
def ofEntries (entries : List Entry) : Model := entries.foldl add empty

/-- A model with these parts. Of two classes or two aliases of one name the later one counts, in the place of
the first. -/
def ofParts (classes : List ClassModel) (aliases : List Alias) (mainExport : Option Text) : Model :=
  { classes := classes.foldl (fun known c => updateClass c.name (fun _ => c) known) []
    aliases := aliases.foldl (fun known a => setAlias a known) []
    mainExport := mainExport }

end Model

end LuaTypings
