import LuaTypings.Text.Basic

/-!
# Structured values

The values that requests and answers are made of.
-/

namespace LuaTypings.Json

/-- A value. -/
inductive Value where
  | null
  | bool (b : Bool)
  /-- A number that is written without a point and an exponent. -/
  | whole (n : Int)
  /-- Any other number, by its shortest text. -/
  | fraction (text : Text)
  | string (text : Text)
  | list (items : List Value)
  /-- Entries in order. Of several entries of one name the last one counts. -/
  | object (entries : List (Text × Value))
  deriving Repr

/-- The value of a name in entries. -/
def lookup (name : Text) (entries : List (Text × Value)) : Option Value :=
  (entries.reverse.find? (·.1 = name)).map (·.2)

/-- A text that may be missing, as a value. -/
def Value.textOrNull : Option Text → Value
  | none => null
  | some t => string t

end LuaTypings.Json
