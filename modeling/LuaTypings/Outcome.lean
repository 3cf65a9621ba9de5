import LuaTypings.Source.Context
import LuaTypings.Declaration.File
import LuaTypings.Repair.Catalog

/-!
# What becomes of a source

One annotated source becomes one declaration text. A source without classes has nothing to declare and is
skipped; rendering may fail, which is an outcome like any other.
-/

namespace LuaTypings

/-- What became of a source. -/
inductive Outcome where
  | generated (declaration : Text)
  | skipped (reason : Text)
  | failed (reason : Text)
  deriving DecidableEq, Repr

namespace Outcome

/-- The name of the kind of outcome. -/
def status : Outcome → Text
  | generated _ => "generated"
  | skipped _ => "skipped"
  | failed _ => "error"

/-- The declaration, if there is one. -/
def declaration? : Outcome → Option Text
  | generated declaration => some declaration
  | skipped _ | failed _ => none

/-- Why there is no declaration. -/
def reason? : Outcome → Option Text
  | generated _ => none
  | skipped reason | failed reason => some reason

/-- Whether there is a declaration. -/
def isGenerated : Outcome → Bool
  | generated _ => true
  | skipped _ | failed _ => false

end Outcome

/-- Why a renderer gave no text: the kind of failure and its message. -/
structure RenderFailure where
  kind : Text
  message : Text
  deriving DecidableEq, Repr

/-- What renders the declaration of a model, as a module specifies it. -/
abbrev Renderer := Model → ModuleSpec → Except RenderFailure Text

/-- The renderer of declaration files, which never fails. -/
def plainRenderer : Renderer := fun m spec => .ok (Declaration.File.ofModel m spec).render

/-- What becomes of a source, given a renderer. The repairs known for the module are made in what it renders. -/
def Outcome.ofSourceBy (renderer : Renderer) (source : Text) (spec : ModuleSpec) : Outcome :=
  let m := Model.ofSource source
  if m.classes.isEmpty then .skipped ("No classes found in " ++ spec.sourceFile)
  else match renderer m spec with
    | .error failure => .failed (failure.kind ++ ": " ++ failure.message)
    | .ok declaration => .generated (Repair.applyKnown spec.name declaration)

/-- What becomes of a source. -/
def Outcome.ofSource (source : Text) (spec : ModuleSpec) : Outcome := Outcome.ofSourceBy plainRenderer source spec

end LuaTypings
