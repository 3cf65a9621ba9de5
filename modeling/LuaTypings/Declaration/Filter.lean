import LuaTypings.Model.Basic
import LuaTypings.ModuleSpec
import LuaTypings.Text.Search

/-!
# Which classes are declared

A filter is a list of class names; a name that ends in a star stands for all names that start like it. Without
a filter every class is kept. The export of a module is configured, or else named by the source, and then only
if that class is kept.
-/

namespace LuaTypings.Declaration

/-- Whether a pattern stands for a class name. -/
def passesPattern (name pattern : Text) : Bool :=
  match Text.dropEnd? "*" pattern with
  | some start => Text.startsWith start name
  | none => name == pattern

/-- Whether a class name passes a filter. -/
def passesFilter (name : Text) (patterns : List Text) : Bool := patterns.any (passesPattern name)

/-- The classes that pass a filter, all of them when the filter is empty. -/
def keptClasses (classes : List ClassModel) (patterns : List Text) : List ClassModel :=
  if patterns.isEmpty then classes else classes.filter fun c => passesFilter c.name patterns

/-- The class that a module exports, given the classes that are kept. -/
def chosenExport (spec : ModuleSpec) (m : Model) (kept : List ClassModel) : Option Text :=
  Text.nonEmpty? spec.mainExport <|>
    (Text.nonEmpty? m.mainExport).filter fun name => kept.any (·.name = name)

end LuaTypings.Declaration
