import LuaTypings.Text.Basic

/-!
# Module specifications

How one source file becomes one declaration file: the name under which it is imported, what it exports, and
which of its classes are kept.
-/

namespace LuaTypings

/-- How one source becomes one declaration file. -/
structure ModuleSpec where
  name : Text
  sourceFile : Text
  mainExport : Option Text
  classFilter : List Text
  declareGlobal : Bool
  deriving DecidableEq, Repr

/-- A text that may be given, an empty one counting as none. -/
def Text.nonEmpty? : Option Text → Option Text
  | some [] => none
  | t? => t?

/-- A text that is not empty is taken as it is given. -/
theorem Text.nonEmpty?_eq_some_iff {given : Option Text} {t : Text} : nonEmpty? given = some t ↔ given = some t ∧ t ≠ [] := by
  cases given with
  | none => simp [nonEmpty?]
  | some u =>
    cases u with
    | nil =>
      rw [nonEmpty?]
      simp [eq_comm]
    | cons c u =>
      have hgiven : nonEmpty? (some (c :: u)) = some (c :: u) := rfl
      rw [hgiven, iff_self_and]
      rintro h rfl
      cases h

/-- The export, the filter and the global binding in words. -/
def ModuleSpec.flagsText (s : ModuleSpec) : Text :=
  let exportFlag : Text := match Text.nonEmpty? s.mainExport with
    | some name => "export: " ++ name
    | none => "no export"
  let filterFlags : List Text :=
    if s.classFilter.isEmpty then [] else ["filter: [" ++ Text.join ", " s.classFilter ++ "]"]
  let globalFlags : List Text := if s.declareGlobal then ["global var"] else []
  Text.join ", " (exportFlag :: filterFlags ++ globalFlags)

end LuaTypings
