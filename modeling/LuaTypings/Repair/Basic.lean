import LuaTypings.Text.Substitute
import LuaTypings.TypeText.Callable

/-!
# Repairs

Some annotations lose a part of their meaning on the way to a declaration. A repair changes the declaration's
text where it shows the trace of such a loss.

* A return of several values that prose has cut short ends in a comma behind an open parenthesis. The methods
  known to return several values get their types back.
* A function type as the last alternative of a union is put in parentheses.
* A method that registers an event handler returns a function that takes the handler back.
* A literal text replaces another.
* A string type with its one value written behind it becomes the type of that value.
-/

namespace LuaTypings

/-- The methods that return values of the same types, and these types. -/
structure TupleFamily where
  methods : List Text
  shape : List Text
  deriving DecidableEq, Repr

/-- A change to the text of a declaration. -/
inductive Repair where
  /-- Writes one text for another, everywhere or as often as the limit says. -/
  | literal (old new : Text) (limit : Option Nat)
  /-- Restores the return types of the families' methods. -/
  | tupleReturns (families : List TupleFamily)
  /-- Puts function alternatives in parentheses, for members and aliases of these names. -/
  | functionUnions (members : List Text)
  /-- Gives the methods of these names the parameter `callback` and a function as their return. They are
  recognised by the name of their first parameter. -/
  | eventHandlers (handlers : List Text) (callback lead : Text)
  /-- Writes a string type with its one value behind it as the value alone. -/
  | stringValues
  deriving DecidableEq, Repr

namespace Repair

/-! ## Tuple returns -/

/-- The rule for a method whose returns were cut short: behind the parameters an opened list ends in a comma
and the semicolon of the member. -/
def tupleReturnRule (shape : List Text) (method : Text) : Text.Rule := fun previous t => do
  guard (Text.atWordBoundary previous t)
  let (params, some afterParams) := Text.cutAtChar ')' (← Text.dropStart? (method ++ "(") t) | none
  let list ← Text.dropStart? "(" (Text.stripStart (← Text.dropStart? ":" afterParams))
  let (types, some rest) := Text.cutAtChar ';' list | none
  guard (types.getLast? = some ',')
  return (method ++ "(" ++ params ++ "): " ++ TypeText.severalReturns shape ++ ";", rest)

/-- Restores the returns of every method of a family. -/
def restoreFamily (t : Text) (family : TupleFamily) : Text :=
  family.methods.foldl (fun t method => Text.substitute (tupleReturnRule family.shape method) none t) t

/-- Families by their methods: a second shape for the same methods replaces the first. -/
def addFamily (family : TupleFamily) : List TupleFamily → List TupleFamily
  | [] => [family]
  | known :: rest =>
    if known.methods = family.methods then family :: rest else known :: addFamily family rest

/-! ## Function unions -/

/-- Whether a text goes on as the rest of a function type whose return has no alternatives. -/
def endsAsFunction : Text → Bool
  | [] => false
  | c :: t =>
    (match Text.dropStart? ") => " (c :: t) with
      | some returns => !returns.isEmpty && !returns.contains '|'
      | none => false) || endsAsFunction t

/-- Cuts a union at the first bar behind which a function type takes the rest. -/
def cutAtFunction? : Text → Option (Text × Text)
  | [] => none
  | c :: t =>
    match (Text.dropStart? " | (this: " (c :: t)).filter endsAsFunction with
    | some rest => some ([], "(this: " ++ rest)
    | none => (cutAtFunction? t).map fun (head, function) => (c :: head, function)

/-- The line with its function alternative in parentheses, when the text behind the heading is a union that
ends in one. -/
def parenthesizeBody? (heading body : Text) : Option Text := do
  let union ← Text.dropEnd? ";" body
  guard (!union.contains ';')
  let (head, function) ← cutAtFunction? union
  return heading ++ head ++ " | (" ++ function ++ ");"

/-- Cuts a line behind a heading, if it starts with it. -/
def cutHeading? (heading line : Text) : Option (Text × Text) :=
  (Text.dropStart? heading line).map fun body => (heading, body)

/-- Cuts a line behind the name of a member and its colon. -/
def cutMember? (name line : Text) : Option (Text × Text) := do
  let indent := line.takeWhile Text.isBlank
  let (heading, body) ← cutHeading? (name ++ ": ") (Text.stripStart line) <|>
    cutHeading? (name ++ "?: ") (Text.stripStart line)
  return (indent ++ heading, body)

/-- Puts the function alternative of one line in parentheses, when its heading is the one looked for. -/
def parenthesizeLine (cut? : Text → Option (Text × Text)) (line : Text) : Text :=
  ((cut? line).bind fun (heading, body) => parenthesizeBody? heading body).getD line

/-- Puts function alternatives in parentheses, in the members and then in the alias of a name. -/
def parenthesizeMember (t name : Text) : Text :=
  Text.mapLines (parenthesizeLine (cutHeading? ("type " ++ name ++ " = ")))
    (Text.mapLines (parenthesizeLine (cutMember? name)) t)

/-! ## Event handlers -/

/-- The rule for a method that registers a handler, from its name up to its return on the same line. -/
def eventHandlerRule (callback lead handler : Text) : Text.Rule := fun previous t => do
  guard (Text.atWordBoundary previous t)
  let afterLead ← Text.dropStart? (handler ++ "(this: void, " ++ lead ++ ": ") t
  let (params, rest) ← Text.cutAt? "): (this: void) => void;" afterLead
  guard (!params.contains '\n')
  return (handler ++ "(this: void, " ++ callback ++ "): () => void;", rest)

/-! ## String values -/

/-- The rule for a string type with its one value behind it. -/
def stringValueRule : Text.Rule := fun _ t => do
  let (value, some afterValue) := Text.cutAtChar '"' (← Text.dropStart? ": string \"" t) | none
  guard (!value.isEmpty)
  return (": \"" ++ value ++ "\";", ← Text.dropStart? ";" afterValue)

/-! ## All repairs -/

/-- Makes the repair in a declaration's text. -/
def apply (t : Text) : Repair → Text
  | literal old new limit => Text.substitute (Text.literalRule old new) limit t
  | tupleReturns families => families.foldl restoreFamily t
  | functionUnions members => members.foldl parenthesizeMember t
  | eventHandlers handlers callback lead =>
    handlers.foldl (fun t handler => Text.substitute (eventHandlerRule callback lead handler) none t) t
  | stringValues => Text.substitute stringValueRule none t

/-- Makes repairs one after another. -/
def applyAll (repairs : List Repair) (t : Text) : Text := repairs.foldl apply t

end Repair

end LuaTypings
