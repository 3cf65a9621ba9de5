import LuaTypings.Source.Line
import LuaTypings.Model.Build
import LuaTypings.Text.Lines

/-!
# From lines to a model

Annotations wait in a context for the member that they describe. A declaration takes them; other code discards
them; a field takes the description and leaves the rest. Reading a source folds its lines over the context and
the model.
-/

namespace LuaTypings.Source

/-- The annotations that wait for a declaration, and the class that fields belong to. -/
structure Context where
  openClass : Option Text
  params : List ParamNote
  returns : Option Text
  description : List Text
  deriving DecidableEq, Repr

namespace Context

/-- Nothing waits and no class was started. -/
def empty : Context := ⟨none, [], none, []⟩

/-- Discards what waits; the class stays. -/
def cleared (c : Context) : Context := { c with params := [], returns := none, description := [] }

/-- The lines of description as one text; there is none when that is empty. -/
def prose? (c : Context) : Option Text :=
  match Text.join " " c.description with
  | [] => none
  | text => some text

/-- The first annotation of a parameter name. -/
def param? (c : Context) (name : Text) : Option ParamNote := c.params.find? (·.name = name)

/-- A declared parameter with its annotation; one without takes any. -/
def writeParam (c : Context) (name : Text) : Text :=
  match c.param? name with
  | none => name ++ ": any"
  | some note => name ++ (if note.optional then ['?'] else []) ++ ": " ++ note.type

/-- The parameters of a declared function. The colon form has a receiver of the class in front and no other. -/
def writeParams (c : Context) (d : DeclaredFunction) : List Text :=
  if d.colon then
    (TypeText.receiverName ++ ": " ++ d.className) ::
      (d.params.filter (· ≠ TypeText.receiverName)).map c.writeParam
  else d.params.map c.writeParam

/-- The function type of a declaration, written from the annotations before it. -/
def functionType (c : Context) (d : DeclaredFunction) : Text :=
  let returns := match c.returns with
    | none | some [] => "nil".toList
    | some type => type
  "fun(" ++ Text.join ", " (c.writeParams d) ++ "): " ++ returns

/-- The entry for a field of a class. The lines of description before the field win over the prose behind it. -/
def fieldEntry (c : Context) (className : Text) (note : FieldNote) : Entry :=
  if note.isMethod then .method className ⟨note.name, note.type, c.prose?⟩
  else
    .dataField className
      ⟨note.name, note.type, c.prose? <|> note.description, note.optional⟩

/-- The entry that a directive adds to the model, if it adds one. -/
def entry? (c : Context) : Directive → Option Entry
  | .classStart name => some (.classStart name)
  | .alias name body => some (.alias name body)
  | .exportHint name => some (.mainExport name)
  | .indexField key value => c.openClass.map fun className => .indexSignature className ⟨key, value⟩
  | .field note => c.openClass.map fun className => c.fieldEntry className note
  | .function d => some (.method d.className ⟨d.method, c.functionType d, c.prose?⟩)
  | .nested outer inner =>
    c.openClass.map fun className => .dataField outer ⟨inner, className, none, false⟩
  | .param _ | .returns _ | .description _ | .otherCode | .silent => none

/-- The context after a directive. -/
def next (c : Context) : Directive → Context
  | .classStart name => { c with openClass := some name }
  | .param note => { c with params := c.params ++ [note] }
  | .returns type => { c with returns := some type }
  | .description text => { c with description := c.description ++ [text] }
  | .field _ => if c.openClass.isSome then { c with description := [] } else c
  | .function _ | .otherCode => c.cleared
  | .nested _ _ => if c.openClass.isSome then c else c.cleared
  | .alias _ _ | .exportHint _ | .indexField _ _ | .silent => c

end Context

/-- Where reading a source stands: what waits, and the model so far. -/
structure Progress where
  context : Context
  model : Model
  deriving DecidableEq, Repr

namespace Progress

/-- Nothing is read yet. -/
def start : Progress := ⟨.empty, .empty⟩

/-- Reads one directive. -/
def step (p : Progress) (d : Directive) : Progress :=
  ⟨p.context.next d, match p.context.entry? d with
    | none => p.model
    | some entry => p.model.add entry⟩

/-- Reads lines, one after another. -/
def readLines (p : Progress) (lines : List Text) : Progress :=
  lines.foldl (fun p line => p.step (.ofLine line)) p

end Progress

end LuaTypings.Source

namespace LuaTypings.Model

/-- The model of a sequence of source lines. -/
def ofLines (lines : List Text) : Model := (Source.Progress.start.readLines lines).model

/-- The model of an annotated source. -/
def ofSource (source : Text) : Model := ofLines (Text.splitLines source)

end LuaTypings.Model
