import LuaTypings.TypeText.Callable

/-!
# The outermost form of a type

A type text is never parsed into a tree. Its outermost form is found by its ends and by the separators that
stand outside all brackets; the rules are tried in a fixed order and the first that fits wins. What is left
for further reading are the operands of the form, and each of them is shorter than the text.
-/

namespace LuaTypings.TypeText

/-- The outermost form of a type text, with the texts of its parts. -/
inductive View where
  /-- No type, or `nil`. -/
  | void
  /-- A type or `nil`. -/
  | nullable (base : Text)
  /-- One of the basic types, with its name in a declaration. -/
  | basic (type : Text)
  /-- A type with a question mark. -/
  | optional (base : Text)
  /-- Alternatives between bars. -/
  | union (parts : List Text)
  /-- Several types between parentheses. -/
  | tuple (parts : List Text)
  /-- One type between parentheses. -/
  | group (inner : Text)
  /-- A list of elements of one type. -/
  | array (element : Text)
  /-- A table from keys to values. -/
  | record (key value : Text)
  /-- A function type, with its signature if it can be read. -/
  | callable (signature : Option WrittenSignature)
  /-- Any other text, which names itself. -/
  | name (text : Text)
  deriving DecidableEq, Repr

/-- The basic types and their names in a declaration. -/
def basicTypes : List (Text × Text) :=
  [("number", "number"), ("integer", "number"), ("string", "string"), ("boolean", "boolean"),
   ("any", "any"), ("userdata", "unknown"), ("table", "object"), ("function", unknownCallable)]

/-- What comes before a last alternative `nil`, written with one space or none behind its bar. -/
def nullableBase? (t : Text) : Option Text :=
  (Text.dropEnd? "| nil" t <|> Text.dropEnd? "|nil" t).map Text.strip

/-- What comes before the question mark of a type without alternatives. -/
def optionalBase? (t : Text) : Option Text :=
  if t.contains '|' then none else Text.dropEnd? "?" t

/-- The alternatives of a type, when there are several. -/
def unionParts? (t : Text) : Option (List Text) :=
  match topParts '|' t with
  | first :: second :: more => some (first :: second :: more)
  | _ => none

/-- The type of the elements, when the text ends in a pair of square brackets behind some other text. -/
def arrayElement? (t : Text) : Option Text :=
  match Text.dropEnd? "[]" t with
  | some [] => none
  | element? => element?

/-- The types of the keys and of the values of a table type that has exactly these two. -/
def recordParts? (t : Text) : Option (Text × Text) := do
  let inner ← Text.dropEnd? ">" (← Text.dropStart? "table<" t)
  match topParts ',' inner with
  | [key, value] => some (key, value)
  | _ => none

namespace View

/-- The form of what a pair of parentheses encloses. -/
def ofEnclosed (inner : Text) : View :=
  match topParts ',' inner with
  | first :: second :: more => .tuple (first :: second :: more)
  | _ => .group inner

/-- The form of a type text that has no comment and no blanks at its ends. -/
def ofBare (t : Text) : View :=
  if t = [] || t = "nil" then .void
  else match nullableBase? t with
  | some base => .nullable base
  | none => match basicTypes.lookup t with
  | some type => .basic type
  | none => match optionalBase? t with
  | some base => .optional base
  | none => match unionParts? t with
  | some parts => .union parts
  | none => match enclosed? t with
  | some inner => ofEnclosed inner
  | none => match arrayElement? t with
  | some element => .array element
  | none => match recordParts? t with
  | some (key, value) => .record key value
  | none => if isFunctionText t then .callable (WrittenSignature.ofText? t) else .name t

/-- The form of a type text, its comment left out. -/
def ofText (t : Text) : View := ofBare (withoutComment t)

/-- An array's element type is put in parentheses when it is a union or a function type. -/
def renderArray (element : Text) : Text :=
  if Text.hasText " | " element || Text.hasText "=>" element then "(" ++ element ++ ")[]"
  else element ++ "[]"

/-- The declaration's type for a form, given the declared types of its operands. Equal alternatives are written once,
where the first of them stands. -/
def render (declared : Text → Text) : View → Text
  | .void => voidType
  | .nullable base => declared base ++ " | null"
  | .basic type => type
  | .optional base => declared base ++ " | undefined"
  | .union parts => Text.join " | " (parts.map declared).eraseDups
  | .tuple parts => severalReturns (parts.map declared)
  | .group inner => declared inner
  | .array element => renderArray (declared element)
  | .record key value => "Record<" ++ declared key ++ ", " ++ declared value ++ ">"
  | .callable signature => (Callable.ofWritten declared signature).typeText
  | .name text => text

/-- The texts whose declared types a form is made from. -/
def operands : View → List Text
  | .void | .basic _ | .name _ | .callable none => []
  | .nullable base | .optional base => [base]
  | .union parts | .tuple parts => parts
  | .group inner => [inner]
  | .array element => [element]
  | .record key value => [key, value]
  | .callable (some signature) =>
    signature.params.map (·.type) ++ match signature.returns with
      | .absent => []
      | .single type => [type]
      | .several types => types

end View

end LuaTypings.TypeText
