import LuaTypings.Text.Utf8

/-!
# Configuration values

The values that a configuration text in YAML stands for: scalars, lists and mappings.
-/

namespace LuaTypings.Yaml

/-- A value without parts. -/
inductive Scalar where
  | null
  | bool (b : Bool)
  | whole (n : Int)
  /-- A number that is not a whole one, by its shortest text. -/
  | fraction (text : Text)
  | string (text : Text)
  | bytes (content : Text.Bytes)
  /-- Any other object, such as a date, a set or a pair. -/
  | other
  deriving DecidableEq, Repr

/-- A value. The keys of a mapping are scalars, in the order of their entries. -/
inductive Value where
  | scalar (s : Scalar)
  | list (items : List Value)
  | mapping (entries : List (Scalar × Value))
  deriving Repr

/-- The value of a key in entries, the last one that is given. -/
def lookup (name : Text) (entries : List (Scalar × Value)) : Option Value :=
  (entries.reverse.find? (·.1 = .string name)).map (·.2)

end LuaTypings.Yaml
