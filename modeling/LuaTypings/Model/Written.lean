import LuaTypings.Model.Basic
import LuaTypings.Source.Written

/-!
# How models are written

A model is written by directives, a line for each: its aliases, its classes with their members, and the class that it
exports.
-/

namespace LuaTypings

open Source (Directive)

/-- The directives of a member: its description, then the member. -/
def memberDirectives (description : Option Text) (name type : Text) (optional : Bool) : List Directive :=
  description.toList.map .description ++ [.field ⟨name, type, optional, none⟩]

/-- The directives of a class. -/
def ClassModel.directives (c : ClassModel) : List Directive :=
  .classStart c.name ::
    (c.indexSignatures.map fun s => .indexField s.key s.value) ++
    (c.dataFields.flatMap fun f => memberDirectives f.description f.name f.type f.optional) ++
    c.methods.flatMap fun m => memberDirectives m.description m.name m.type false

namespace Model

/-- The directives of a model. -/
def directives (m : Model) : List Directive :=
  (m.aliases.map fun a => .alias a.name a.body) ++ m.classes.flatMap ClassModel.directives ++
    m.mainExport.toList.map .exportHint

/-- The lines of a model. -/
def lines (m : Model) : List Text := m.directives.filterMap (Directive.line? [])

/-- The source text of a model. -/
def toSource (m : Model) : Text := Text.join "\n" m.lines

end Model

end LuaTypings
