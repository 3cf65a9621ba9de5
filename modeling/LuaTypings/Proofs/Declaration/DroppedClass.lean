import LuaTypings.Proofs.Model.Mentions
import LuaTypings.Proofs.Text.Lines

/-!
# Classes that a filter drops

What a source says of a class that the filter drops has no influence on what becomes of the source. A block of lines that
starts the class and then only speaks of it changes no other class of the model, no alias and not the export
(`Progress.without_readLines`); and the declaration file of a model is that of the model without any class that the filter
drops (`File.ofModel_without`), also when the class was there before, is named by a field, or is the one to export.
-/

namespace LuaTypings

open Source (Directive Context Progress)
open Declaration (passesFilter keptClasses)

/-! ## Models without a class -/

namespace Model

/-- The model without the class of a name. -/
def without (m : Model) (name : Text) : Model := { m with classes := m.classes.filter (·.name ≠ name) }

/-- A change of a class is not seen among the others. -/
theorem filter_updateClass {change : ClassModel → ClassModel} (hchange : ∀ c, (change c).name = c.name) (name : Text)
    (classes : List ClassModel) :
    (updateClass name change classes).filter (·.name ≠ name) = classes.filter (·.name ≠ name) := by
  induction classes with
  | nil =>
    have hempty : (change (.empty name)).name = name := hchange _
    simp [updateClass, hempty]
  | cons c classes ih =>
    rw [updateClass]
    by_cases h : c.name = name
    · have hchanged : (change c).name = name := (hchange c).trans h
      simp [h, hchanged]
    · rw [if_neg h, List.filter_cons, List.filter_cons, ih]

/-- An entry about a class changes nothing else. -/
theorem without_add {e : Entry} {name : Text} (he : e.className? = some name) (m : Model) :
    (m.add e).without name = m.without name := by
  have hclasses : (m.add e).classes.filter (·.name ≠ name) = m.classes.filter (·.name ≠ name) := by
    rw [classes_add, he]
    exact filter_updateClass e.change_name name m.classes
  cases e with
  | classStart _ | indexSignature _ _ | method _ _ | dataField _ _ =>
    exact congrArg (Model.mk · m.aliases m.mainExport) hclasses
  | _ => cases he

end Model

/-! ## Lines about one class -/

/-- Whether a directive speaks of nothing but the class that is open. -/
def Source.Directive.staysInClass : Directive → Bool
  | .field _ | .indexField _ _ | .param _ | .returns _ | .description _ | .otherCode | .silent => true
  | _ => false

namespace Source

variable {p : Progress} {d : Directive} {name : Text}

/-- A directive about the open class is not one that starts another. -/
theorem Directive.startedClass?_of_staysInClass (hd : d.staysInClass = true) : d.startedClass? = none := by
  cases d with
  | classStart name => cases hd
  | _ => rfl

/-- A directive about the open class adds nothing but entries about it. -/
theorem Context.className?_of_staysInClass {c : Context} (hopen : c.openClass = some name)
    (hd : d.staysInClass = true) {e : Entry} (he : c.entry? d = some e) : e.className? = some name := by
  cases d with
  | field note =>
    obtain ⟨className, hclass, rfl⟩ := Option.map_eq_some_iff.mp he
    obtain rfl : className = name := Option.some.inj (hclass.symm.trans hopen)
    rw [fieldEntry]
    split <;> rfl
  | indexField key value =>
    obtain ⟨className, hclass, rfl⟩ := Option.map_eq_some_iff.mp he
    exact hclass.symm.trans hopen
  | param _ | returns _ | description _ | otherCode | silent => cases he
  | _ => cases hd

namespace Progress

/-- A directive about the open class leaves it open and changes no other class. -/
theorem without_step (hopen : p.context.openClass = some name) (hd : d.staysInClass = true) :
    (p.step d).context.openClass = some name ∧ (p.step d).model.without name = p.model.without name := by
  constructor
  · calc (p.step d).context.openClass = d.startedClass?.or p.context.openClass := p.context.openClass_next d
      _ = some name := by rw [Directive.startedClass?_of_staysInClass hd, hopen, Option.none_or]
  · rw [step]
    cases he : p.context.entry? d with
    | none => rfl
    | some e => exact Model.without_add (Context.className?_of_staysInClass hopen hd he) p.model

/-- Lines about the open class change no other class. -/
theorem without_readLines (hopen : p.context.openClass = some name) {block : List Text}
    (hblock : ∀ line ∈ block, (Directive.ofLine line).staysInClass = true) :
    (p.readLines block).model.without name = p.model.without name := by
  induction block generalizing p with
  | nil => rfl
  | cons line block ih =>
    obtain ⟨hline, hrest⟩ := List.forall_mem_cons.mp hblock
    obtain ⟨hnext, hmodel⟩ := without_step hopen hline
    rw [readLines_cons, ih hnext hrest, hmodel]

/-- Empty lines are read without a trace. -/
theorem readLines_of_empty {blank : List Text} (hblank : ∀ line ∈ blank, line = []) (p : Progress) :
    p.readLines blank = p := by
  induction blank with
  | nil => rfl
  | cons line blank ih =>
    obtain ⟨rfl, hrest⟩ := List.forall_mem_cons.mp hblank
    exact ih hrest

end Progress

end Source

/-! ## Declaration files -/

namespace Declaration

/-- The classes that a filter keeps are found without one that it drops. -/
theorem keptClasses_filter {name : Text} {patterns : List Text} (hpatterns : patterns ≠ [])
    (hname : passesFilter name patterns = false) (classes : List ClassModel) :
    keptClasses (classes.filter (·.name ≠ name)) patterns = keptClasses classes patterns := by
  have hkept : ∀ c : ClassModel, (passesFilter c.name patterns && decide (c.name ≠ name)) = passesFilter c.name patterns := by
    intro c
    by_cases h : c.name = name
    · simp [h, hname]
    · simp [h]
  have hempty : ¬ patterns.isEmpty = true := by simpa using hpatterns
  rw [keptClasses, keptClasses, if_neg hempty, if_neg hempty, List.filter_filter]
  simp only [hkept]

/-- The declaration file of a model is that of the model without a class that the filter drops. -/
theorem File.ofModel_without {name : Text} {spec : ModuleSpec} (hfilter : spec.classFilter ≠ [])
    (hname : passesFilter name spec.classFilter = false) (m : Model) :
    File.ofModel (m.without name) spec = File.ofModel m spec := by
  have hkept : keptClasses (m.without name).classes spec.classFilter = keptClasses m.classes spec.classFilter :=
    keptClasses_filter hfilter hname m.classes
  rw [File.ofModel, File.ofModel, hkept]
  rfl

end Declaration

/-! ## Sources -/

/-- Lines that start a class and then only speak of it change no other class, when they stand on new lines behind a
source. -/
theorem Model.without_ofSource_append (source : Text) {block head name : Text} {body : List Text}
    (hlines : Text.splitLines block = head :: body) (hhead : Directive.ofLine head = .classStart name)
    (hbody : ∀ line ∈ body, (Directive.ofLine line).staysInClass = true) :
    (ofSource (source ++ '\n' :: block)).without name = (ofSource source).without name := by
  obtain ⟨blank, hblank, hsplit⟩ := Text.exists_splitLines_append source block
  have hread : Progress.start.readLines (Text.splitLines (source ++ '\n' :: block)) =
      ((Progress.start.readLines (Text.splitLines source)).step (.classStart name)).readLines body := by
    rw [hsplit, hlines, Progress.readLines_append, Progress.readLines_append, Progress.readLines_of_empty hblank,
      Progress.readLines_cons, hhead]
  calc (ofSource (source ++ '\n' :: block)).without name
      = (((Progress.start.readLines (Text.splitLines source)).step (.classStart name)).readLines body).model.without
          name := by rw [ofSource, ofLines, hread]
    _ = ((Progress.start.readLines (Text.splitLines source)).step (.classStart name)).model.without name :=
        Progress.without_readLines rfl hbody
    _ = (ofSource source).without name := without_add rfl _

namespace Outcome

/-- What becomes of a source that has classes depends on its declaration file alone. -/
theorem ofSource_of_classes {source : Text} (h : (Model.ofSource source).classes ≠ []) (spec : ModuleSpec) :
    ofSource source spec =
      .generated (Repair.applyKnown spec.name (Declaration.File.ofModel (Model.ofSource source) spec).render) := by
  have hempty : ¬ (Model.ofSource source).classes.isEmpty = true := by simpa using h
  rw [ofSource, ofSourceBy, if_neg hempty]
  rfl

/-- **Classes that a filter drops.** A block of lines that starts a class and then only speaks of that class makes no
difference to what becomes of a source with classes, when the block stands on new lines behind the source and the filter
drops the class. -/
theorem ofSource_append_dropped {source block head name : Text} {body : List Text} {spec : ModuleSpec}
    (hclasses : (Model.ofSource source).classes ≠ []) (hfilter : spec.classFilter ≠ [])
    (hname : passesFilter name spec.classFilter = false) (hlines : Text.splitLines block = head :: body)
    (hhead : Directive.ofLine head = .classStart name)
    (hbody : ∀ line ∈ body, (Directive.ofLine line).staysInClass = true) :
    ofSource (source ++ '\n' :: block) spec = ofSource source spec := by
  have hmodel := Model.without_ofSource_append source hlines hhead hbody
  have hmore : (Model.ofSource (source ++ '\n' :: block)).classes ≠ [] := by
    obtain ⟨blank, -, hsplit⟩ := Text.exists_splitLines_append source block
    have hmem : head ∈ Text.splitLines (source ++ '\n' :: block) := by simp [hsplit, hlines]
    intro hnone
    have hstart := Model.classes_ofSource_eq_nil_iff.mp hnone _ (List.mem_map_of_mem hmem)
    rw [hhead] at hstart
    cases hstart
  have hfile : Declaration.File.ofModel (Model.ofSource (source ++ '\n' :: block)) spec =
      Declaration.File.ofModel (Model.ofSource source) spec := by
    rw [← Declaration.File.ofModel_without hfilter hname, hmodel, Declaration.File.ofModel_without hfilter hname]
  rw [ofSource_of_classes hmore, ofSource_of_classes hclasses, hfile]

/-- An enumeration that is known before, is the type of a field, and is to be exported gets members of other kinds. -/
theorem ofSource_append_dropped_enumeration :
    let source : Text := "---@class Unit\n---@field id Id\n---@class Id\n---@field a number\n---@type Id\n"
    let block : Text := "---@class Id\n--- Prose\n---@field b string\n---@field [string] Unit\nlocal x\n"
    let spec : ModuleSpec := ⟨"unit", "unit.lua", none, ["U*"], true⟩
    Model.ofSource (source ++ '\n' :: block) ≠ Model.ofSource source ∧
      Outcome.ofSource (source ++ '\n' :: block) spec = Outcome.ofSource source spec := by
  intro source block spec
  have hlines : Text.splitLines block =
      "---@class Id".toList :: ["--- Prose", "---@field b string", "---@field [string] Unit", "local x"] := by
    decide +kernel
  have hhead : Directive.ofLine "---@class Id" = .classStart "Id" := by decide +kernel
  exact ⟨by decide +kernel,
    ofSource_append_dropped (by decide +kernel) (by decide) (by decide) hlines hhead (by decide +kernel)⟩

end Outcome

end LuaTypings
