import LuaTypings.TypeText.Comment

/-!
# Written signatures

A function type as it is written: `fun(self: T, a: number, ...: any): R1, R2`. Reading one only cuts the text
into names and type texts; no type is changed here. A text whose first parenthesis is missing or never closes has
no signature.
-/

namespace LuaTypings.TypeText

/-- Whether a type text is marked as a function type. -/
def isFunctionText (t : Text) : Bool := Text.startsWith "fun(" t || Text.startsWith "fun " t

/-- A parameter as written: its name, the text of its type and its marks. -/
structure WrittenParam where
  name : Text
  type : Text
  optional : Bool
  variadic : Bool
  deriving DecidableEq, Repr

/-- The name that stands for the object a method is called on. -/
def receiverName : Text := "self"

/-- Reads one parameter. Three dots make it variadic: its type is the array of what is written behind the
colon, and its name is `args` unless one follows the dots. Otherwise a question mark behind the name or the
type makes it optional, and a parameter without a type takes any. -/
def WrittenParam.ofText (t : Text) : WrittenParam :=
  match Text.dropStart? "..." t with
  | some rest =>
    let (name, type) := Text.cutAtChar ':' rest
    let trimmed := Text.strip name
    let element := match type with
      | some type => Text.strip type
      | none => "any"
    ⟨if trimmed.isEmpty then "args" else trimmed, element ++ "[]", false, true⟩
  | none =>
    match Text.cutAtChar ':' t with
    | (name, none) => ⟨Text.strip name, "any", false, false⟩
    | (name, some type) =>
      let name := Text.strip name
      let type := Text.strip type
      if name.getLast? = some '?' || type.getLast? = some '?' then
        ⟨Text.stripQuestionMarks name, Text.stripQuestionMarks type, true, false⟩
      else ⟨name, type, false, false⟩

/-- What is written behind the parameters: nothing, one type, or a list of several. -/
inductive WrittenReturn where
  | absent
  | single (type : Text)
  | several (types : List Text)
  deriving DecidableEq, Repr

/-- Reads the text behind the parameters. A colon starts the return type, which may go on in prose; commas
outside all brackets separate several returns. -/
def WrittenReturn.ofText (t : Text) : WrittenReturn :=
  match Text.dropStart? ":" (Text.strip t) with
  | none => .absent
  | some rest =>
    let cleaned := withoutProse rest
    match topParts ',' cleaned with
    | first :: second :: more => .several (first :: second :: more)
    | _ => .single cleaned

/-- A function type as written. -/
structure WrittenSignature where
  params : List WrittenParam
  returns : WrittenReturn
  deriving DecidableEq, Repr

namespace WrittenSignature

/-- Reads a function type, wherever its parameter list starts; there is none when the list never closes. -/
def ofText? (t : Text) : Option WrittenSignature :=
  (firstGroup? t).map fun (inside, rest) =>
    ⟨(topParts ',' inside).map WrittenParam.ofText, WrittenReturn.ofText rest⟩

/-- The parameter that stands for the receiver: the first one of that name. -/
def receiver? (s : WrittenSignature) : Option WrittenParam := s.params.find? (·.name = receiverName)

/-- The parameters other than the receiver. A second one of the receiver's name is an ordinary parameter. -/
def arguments (s : WrittenSignature) : List WrittenParam := s.params.eraseP (·.name = receiverName)

end WrittenSignature

/-- Whether a function type names a receiver among its parameters. -/
def namesReceiver (t : Text) : Bool :=
  (WrittenSignature.ofText? t).any fun signature => signature.params.any (·.name = receiverName)

end LuaTypings.TypeText
