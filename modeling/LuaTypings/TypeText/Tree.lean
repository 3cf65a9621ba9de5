import LuaTypings.TypeText.View

/-!
# Types as trees

The types without functions, as trees: how each is written, without blanks, and what it means in a declaration. The
meaning goes by the tree alone and never looks at the text.
-/

namespace LuaTypings.TypeText

/-- A type that holds no function type. -/
inductive Tree where
  /-- A name. -/
  | name (word : Text)
  /-- A table from keys to values. -/
  | table (key value : Tree)
  /-- A type between parentheses. -/
  | group (inner : Tree)
  /-- Several types between parentheses. -/
  | tuple (parts : List Tree)
  /-- A list of elements of one type. -/
  | array (element : Tree)
  /-- A type with a question mark. -/
  | optional (base : Tree)
  /-- Alternatives. -/
  | union (members : List Tree)
  deriving Repr

namespace Tree

/-- Whether a type is made of alternatives. -/
def isUnion : Tree → Bool
  | union _ => true
  | _ => false

/-- Whether a type is the name of the absent value. -/
def isNil : Tree → Bool
  | name word => word = "nil".toList
  | _ => false

/-! ## Writing -/

mutual

/-- The text of a type. -/
def toText : Tree → Text
  | name word => word
  | table key value => "table<" ++ key.toText ++ "," ++ value.toText ++ ">"
  | group inner => "(" ++ inner.toText ++ ")"
  | tuple parts => "(" ++ Text.join "," (toTexts parts) ++ ")"
  | array element => element.toText ++ "[]"
  | optional base => base.toText ++ "?"
  | union members => Text.join "|" (toTexts members)

/-- The texts of types. -/
def toTexts : List Tree → List Text
  | [] => []
  | t :: ts => t.toText :: toTexts ts

end

mutual

/-- Whether a tree is one that its text can be read as: names are words, tuples and unions have two parts or more,
alternatives are not alternatives of alternatives, and neither a bracket pair nor a question mark stands behind
alternatives. -/
def isWritable : Tree → Bool
  | name word => Text.isWord word
  | table key value => key.isWritable && value.isWritable
  | group inner => inner.isWritable
  | tuple parts => 2 ≤ parts.length && areWritable parts
  | array element => element.isWritable && !element.isUnion
  | optional base => base.isWritable && !base.isUnion && !base.toText.contains '|'
  | union members => 2 ≤ members.length && areWritable members && members.all (!·.isUnion)

/-- Whether all trees are ones that their texts can be read as. -/
def areWritable : List Tree → Bool
  | [] => true
  | t :: ts => t.isWritable && areWritable ts

end

/-! ## Meaning -/

/-- The meaning of a name: the basic types have names of their own in a declaration. -/
def nameMeaning (word : Text) : Text :=
  if word = "nil".toList then voidType
  else (basicTypes.lookup word).getD word

/-- The meaning of an array of elements: a type of several parts is put in parentheses. -/
def arrayMeaning (element : Text) : Text :=
  if Text.hasText " | " element || Text.hasText "=>" element then "(" ++ element ++ ")[]"
  else element ++ "[]"

/-- The meaning of alternatives, each given by whether it is the absent value and by its own meaning, the last one
first. The absent value at the end makes a type nullable; otherwise no meaning is repeated. -/
def unionMeaning : List (Bool × Text) → Text
  | [] => []
  | [(_, meaning)] => meaning
  | (true, _) :: rest => unionMeaning rest ++ " | null"
  | rest => Text.join " | " (rest.reverse.map (·.2)).eraseDups

mutual

/-- What a type means in a declaration. -/
def meaning : Tree → Text
  | name word => nameMeaning word
  | table key value => "Record<" ++ key.meaning ++ ", " ++ value.meaning ++ ">"
  | group inner => inner.meaning
  | tuple parts => severalReturns ((meanings parts).map (·.2))
  | array element => arrayMeaning element.meaning
  | optional base => base.meaning ++ " | undefined"
  | union members => unionMeaning (meanings members).reverse

/-- The meanings of types, each with whether it is the absent value. -/
def meanings : List Tree → List (Bool × Text)
  | [] => []
  | t :: ts => (t.isNil, t.meaning) :: meanings ts

end

end Tree

end LuaTypings.TypeText
