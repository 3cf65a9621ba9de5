import LuaTypings.TypeText.Signature

/-!
# Callable types of declarations

A signature in the terms of the declarations: parameters with declared types, a receiver if there is one, and the
type returned. A callable without a receiver declares one of type void, which keeps a call from
passing the object in front of its arguments.
-/

namespace LuaTypings.TypeText

/-- The type of an absent value. -/
def voidType : Text := "void"

/-- The type of a function about which nothing is known. -/
def unknownCallable : Text := "(...args: any[]) => any"

/-- Several return values of one call. -/
def severalReturns (types : List Text) : Text := "LuaMultiReturn<[" ++ Text.join ", " types ++ "]>"

/-- A parameter in a declaration. -/
structure Param where
  name : Text
  type : Text
  optional : Bool
  variadic : Bool
  deriving DecidableEq, Repr

/-- A variadic parameter is written behind three dots, an optional one with a question mark. -/
def Param.render (p : Param) : Text :=
  if p.variadic then "..." ++ p.name ++ ": " ++ p.type
  else p.name ++ (if p.optional then ['?'] else []) ++ ": " ++ p.type

/-- The words that may not name a parameter of a declaration. -/
def forbiddenParamNames : List Text := List.map String.toList
  ["break", "case", "catch", "class", "const", "continue", "debugger", "default", "delete", "do", "else",
   "enum", "export", "extends", "false", "finally", "for", "function", "if", "import", "in", "instanceof",
   "new", "null", "return", "super", "switch", "this", "throw", "true", "try", "typeof", "var", "void",
   "while", "with", "yield"]

/-- A reserved word is kept from clashing by an underscore in front of it. -/
def safeParamName (name : Text) : Text := if forbiddenParamNames.contains name then '_' :: name else name

/-- The words that may name a method only between quotes. -/
def quotedMethodNames : List Text :=
  ["new", "delete", "default", "class", "function", "return", "typeof", "import", "export"]

/-- A method's name as a member of an interface. -/
def methodKey (name : Text) : Text :=
  if quotedMethodNames.contains name then "\"" ++ name ++ "\"" else name

/-- A callable type: one about which nothing is known, or one with its parts. -/
inductive Callable where
  | unknown
  | typed (receiver : Option Text) (params : List Param) (returns : Text)
  deriving DecidableEq, Repr

namespace Callable

/-- Whether nothing is known of the callable. -/
def isUnknown : Callable → Bool
  | unknown => true
  | typed .. => false

/-- The type of the receiver, when one is declared. -/
def receiver? : Callable → Option Text
  | unknown => none
  | typed receiver _ _ => receiver

/-- The parameters other than the receiver. -/
def params : Callable → List Param
  | unknown => []
  | typed _ params _ => params

/-- The type returned; nothing is known to return for an unknown callable. -/
def returns : Callable → Text
  | unknown => voidType
  | typed _ _ returns => returns

/-- The parameter list, which always starts with the receiver. -/
def paramList (c : Callable) : Text :=
  Text.join ", " (("this: " ++ c.receiver?.getD voidType) :: c.params.map Param.render)

/-- The callable as a function type. -/
def typeText : Callable → Text
  | unknown => unknownCallable
  | c => "(" ++ c.paramList ++ ") => " ++ c.returns

/-- The callable as a method of an interface. -/
def memberText (name : Text) : Callable → Text
  | unknown => methodKey name ++ "(this: void, ...args: any[]): any"
  | c => methodKey name ++ "(" ++ c.paramList ++ "): " ++ c.returns

end Callable

/-- A written parameter with its declared type. -/
def WrittenParam.toParam (declared : Text → Text) (p : WrittenParam) : Param :=
  ⟨safeParamName p.name, declared p.type, p.optional, p.variadic⟩

/-- The return type with the declared types of its parts. -/
def WrittenReturn.toText (declared : Text → Text) : WrittenReturn → Text
  | .absent => voidType
  | .single type => declared type
  | .several types => severalReturns (types.map declared)

/-- A written signature with the declared types of all its parts. -/
def WrittenSignature.toCallable (declared : Text → Text) (s : WrittenSignature) : Callable :=
  .typed (s.receiver?.map fun p => declared p.type) (s.arguments.map (·.toParam declared))
    (s.returns.toText declared)

/-- The callable of a function type that may have no signature. -/
def Callable.ofWritten (declared : Text → Text) : Option WrittenSignature → Callable
  | none => .unknown
  | some signature => signature.toCallable declared

end LuaTypings.TypeText
