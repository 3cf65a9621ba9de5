import Mathlib.Data.Option.Basic
import LuaTypings.Proofs.Source.DescribedText
import LuaTypings.Source.History

/-!
# Descriptions in models

Descriptions are carried along and never looked at. A model is built in the same way without them
(`Model.undescribed_add`), and a line of prose makes no difference to what is read around it, so two sources that differ
in their lines of prose give the same model up to descriptions (`Model.undescribed_ofLines`). Each description is made of
whole lines or parts of them with spaces between, so none has a line feed in it where the lines have none
(`Model.describedBy_ofLines`).
-/

namespace LuaTypings

/-! ## Building -/

/-- The method without its description. -/
def Method.undescribed (m : Method) : Method := { m with description := none }

/-- The data field without its description. -/
def DataField.undescribed (f : DataField) : DataField := { f with description := none }

/-- The class without the descriptions of its members. -/
def ClassModel.undescribed (c : ClassModel) : ClassModel :=
  { c with methods := c.methods.map (·.undescribed), dataFields := c.dataFields.map (·.undescribed) }

/-- The model without the descriptions of its members. -/
def Model.undescribed (m : Model) : Model := { m with classes := m.classes.map (·.undescribed) }

/-- The entry without the description of its member. -/
def Entry.undescribed : Entry → Entry
  | .method className m => .method className m.undescribed
  | .dataField className f => .dataField className f.undescribed
  | e => e

namespace ClassModel

/-- A method is inserted in the same place without descriptions. -/
theorem map_undescribed_insertMethod (m : Method) (methods : List Method) :
    (insertMethod m methods).map (·.undescribed) = insertMethod m.undescribed (methods.map (·.undescribed)) := by
  induction methods with
  | nil => rfl
  | cons earlier methods ih =>
    have hname : earlier.undescribed.name = m.undescribed.name ↔ earlier.name = m.name := Iff.rfl
    have hupgrades : upgrades m.undescribed earlier.undescribed = upgrades m earlier := rfl
    rw [insertMethod, List.map_cons, insertMethod, hupgrades]
    simp only [hname]
    split
    · split <;> rfl
    · rw [List.map_cons, ih]

/-- Names are in use with and without descriptions. -/
theorem hasMember_undescribed (c : ClassModel) (name : Text) : c.undescribed.hasMember name = c.hasMember name := by
  rw [hasMember, hasMember, undescribed, List.any_map, List.any_map]
  rfl

/-- A method is added in the same way without descriptions. -/
theorem undescribed_putMethod (c : ClassModel) (m : Method) :
    (c.putMethod m).undescribed = c.undescribed.putMethod m.undescribed := by
  rw [putMethod, putMethod, undescribed, map_undescribed_insertMethod]
  simp only [undescribed, List.filter_map]
  rfl

/-- A data field is added in the same way without descriptions. -/
theorem undescribed_putDataField (c : ClassModel) (f : DataField) :
    (c.putDataField f).undescribed = c.undescribed.putDataField f.undescribed := by
  have hname : f.undescribed.name = f.name := rfl
  rw [putDataField, putDataField, hname, hasMember_undescribed]
  split
  · rfl
  · simp [undescribed]

end ClassModel

namespace Model

/-- A class is changed in the same way without descriptions when the change is the same without them. -/
theorem undescribed_onClass {change change' : ClassModel → ClassModel}
    (hchange : ∀ c, (change c).undescribed = change' c.undescribed) (m : Model) (name : Text) :
    (m.onClass name change).undescribed = m.undescribed.onClass name change' := by
  have hclasses : ∀ classes : List ClassModel, (updateClass name change classes).map (·.undescribed) =
      updateClass name change' (classes.map (·.undescribed)) := by
    intro classes
    induction classes with
    | nil => exact congrArg (fun c => [c]) (hchange (.empty name))
    | cons c classes ih =>
      have hname : c.undescribed.name = c.name := rfl
      rw [updateClass, List.map_cons, updateClass, hname]
      split
      · rw [List.map_cons, hchange]
      · rw [List.map_cons, ih]
  simp only [undescribed, onClass, hclasses]

/-- An entry is added in the same way without descriptions. -/
theorem undescribed_add (m : Model) (e : Entry) : (m.add e).undescribed = m.undescribed.add e.undescribed := by
  cases e with
  | classStart name =>
    have hchange : ∀ c : ClassModel, (id c).undescribed = id c.undescribed := fun _ => rfl
    exact undescribed_onClass hchange m name
  | indexSignature className signature =>
    have hchange : ∀ c : ClassModel,
        (c.putIndexSignature signature).undescribed = c.undescribed.putIndexSignature signature := fun _ => rfl
    exact undescribed_onClass hchange m className
  | method className method => exact undescribed_onClass (fun c => c.undescribed_putMethod method) m className
  | dataField className field => exact undescribed_onClass (fun c => c.undescribed_putDataField field) m className
  | _ => rfl

end Model

/-! ## Reading -/

namespace Source

/-- The context without the prose that waits. -/
def Context.undescribed (c : Context) : Context := { c with description := [] }

/-- A directive leads to the same context up to prose, whatever prose waits. -/
theorem Context.undescribed_next (c : Context) (d : Directive) :
    (c.next d).undescribed = (c.undescribed.next d).undescribed := by
  cases d with
  | field note =>
    rw [next, next]
    split <;> split <;> rfl
  | nested outer inner =>
    have hopen : c.undescribed.openClass = c.openClass := rfl
    rw [next, next, hopen]
    split <;> rfl
  | _ => rfl

/-- The entry that a directive adds, without its description. -/
def Context.plainEntry (c : Context) (d : Directive) : Option Entry := Option.map Entry.undescribed <| c.entry? d

/-- A directive adds the same entry up to its description, whatever prose waits. -/
theorem Context.plainEntry_undescribed (c : Context) (d : Directive) : c.undescribed.plainEntry d = c.plainEntry d := by
  have hopen : c.undescribed.openClass = c.openClass := rfl
  cases d with
  | field note =>
    have hfield : ∀ className,
        (c.undescribed.fieldEntry className note).undescribed = (c.fieldEntry className note).undescribed := by
      intro className
      rw [fieldEntry, fieldEntry]
      split <;> rfl
    unfold plainEntry entry?
    rw [hopen, Option.map_map, Option.map_map]
    exact Option.map_congr fun className _ => hfield className
  | _ => rfl

namespace Progress

/-- The progress without any prose. -/
def undescribed (p : Progress) : Progress := ⟨p.context.undescribed, p.model.undescribed⟩

variable {p q : Progress}

/-- The model after a directive up to descriptions. -/
theorem undescribed_model_step (p : Progress) (d : Directive) :
    (p.step d).model.undescribed =
      match p.context.plainEntry d with
      | none => p.model.undescribed
      | some e => p.model.undescribed.add e := by
  rw [step, Context.plainEntry]
  cases p.context.entry? d with
  | none => rfl
  | some e => exact p.model.undescribed_add e

/-- Progress that is equal up to prose stays so with every directive. -/
theorem undescribed_step (h : p.undescribed = q.undescribed) (d : Directive) :
    (p.step d).undescribed = (q.step d).undescribed := by
  obtain ⟨hcontext, hmodel⟩ := Progress.mk.inj h
  have hentry : p.context.plainEntry d = q.context.plainEntry d := by
    rw [← Context.plainEntry_undescribed, hcontext, Context.plainEntry_undescribed]
  have hnext : (p.step d).context.undescribed = (q.step d).context.undescribed := by
    rw [step, step, Context.undescribed_next, hcontext, ← Context.undescribed_next]
  rw [undescribed, undescribed, hnext, undescribed_model_step, undescribed_model_step, hentry, hmodel]

/-- A line of prose makes no difference up to prose. -/
theorem undescribed_step_of_prose {d : Directive} {text : Text} (hd : d.prose? = some text) (p : Progress) :
    (p.step d).undescribed = p.undescribed := by
  cases d with
  | description text => rfl
  | _ => cases hd

/-- Lines can be read without those of prose, up to descriptions. -/
theorem undescribed_readLines (h : p.undescribed = q.undescribed) (lines : List Text) :
    (p.readLines lines).undescribed =
      (q.readLines (lines.filter fun line => (Directive.ofLine line).prose?.isNone)).undescribed := by
  induction lines generalizing p q with
  | nil => exact h
  | cons line lines ih =>
    have hcons : p.readLines (line :: lines) = (p.step (.ofLine line)).readLines lines := rfl
    rw [hcons]
    cases hprose : (Directive.ofLine line).prose? with
    | none =>
      rw [List.filter_cons_of_pos (by simp [hprose])]
      exact ih (undescribed_step h _)
    | some text =>
      rw [List.filter_cons_of_neg (by simp [hprose])]
      exact ih ((undescribed_step_of_prose hprose p).trans h)

end Progress

end Source

/-- Sources that are equal but for their lines of prose have the same model up to descriptions. -/
theorem Model.undescribed_ofLines {lines others : List Text}
    (h : lines.filter (fun line => (Source.Directive.ofLine line).prose?.isNone) =
      others.filter (fun line => (Source.Directive.ofLine line).prose?.isNone)) :
    (Model.ofLines lines).undescribed = (Model.ofLines others).undescribed := by
  have hlines := Source.Progress.undescribed_readLines (rfl : Source.Progress.start.undescribed = _) lines
  have hothers := Source.Progress.undescribed_readLines (rfl : Source.Progress.start.undescribed = _) others
  rw [h, ← hothers] at hlines
  exact (Source.Progress.mk.inj hlines).2

/-! ## Descriptions on one line -/

/-- Whether all descriptions of a class have a property. -/
structure ClassModel.DescribedBy (P : Text → Prop) (c : ClassModel) : Prop where
  methods : ∀ m ∈ c.methods, ∀ text ∈ m.description, P text
  dataFields : ∀ f ∈ c.dataFields, ∀ text ∈ f.description, P text

/-- Whether all descriptions of a model have a property. -/
def Model.DescribedBy (P : Text → Prop) (m : Model) : Prop := ∀ c ∈ m.classes, c.DescribedBy P

/-- The description that an entry brings. -/
def Entry.description? : Entry → Option Text
  | .method _ m => m.description
  | .dataField _ f => f.description
  | _ => none

namespace ClassModel

variable {P : Text → Prop} {c : ClassModel}

/-- What is among the methods after one was inserted is that method or was there before. -/
theorem eq_or_mem_of_mem_insertMethod {m k : Method} {methods : List Method} (h : k ∈ insertMethod m methods) :
    k = m ∨ k ∈ methods := by
  induction methods with
  | nil => exact .inl (List.mem_singleton.mp h)
  | cons earlier methods ih =>
    rw [insertMethod] at h
    split at h
    · obtain rfl | h := List.mem_cons.mp h
      · split
        · exact .inl rfl
        · exact .inr List.mem_cons_self
      · exact .inr (List.mem_cons_of_mem earlier h)
    · obtain rfl | h := List.mem_cons.mp h
      · exact .inr List.mem_cons_self
      · exact (ih h).imp_right (List.mem_cons_of_mem earlier)

/-- A method whose description has a property keeps the property of a class. -/
theorem DescribedBy.putMethod (h : c.DescribedBy P) {m : Method} (hm : ∀ text ∈ m.description, P text) :
    (c.putMethod m).DescribedBy P where
  methods k hk := by
    obtain rfl | hk := eq_or_mem_of_mem_insertMethod hk
    · exact hm
    · exact h.methods k hk
  dataFields f hf := h.dataFields f (List.mem_of_mem_filter hf)

/-- A data field whose description has a property keeps the property of a class. -/
theorem DescribedBy.putDataField (h : c.DescribedBy P) {f : DataField} (hf : ∀ text ∈ f.description, P text) :
    (c.putDataField f).DescribedBy P := by
  rw [ClassModel.putDataField]
  split
  · exact h
  · refine ⟨h.methods, fun g hg => ?_⟩
    obtain hg | hg := List.mem_append.mp hg
    · exact h.dataFields g hg
    · exact List.mem_singleton.mp hg ▸ hf

end ClassModel

namespace Model

variable {P : Text → Prop} {m : Model}

/-- A change that keeps the property of classes keeps that of a model. -/
theorem DescribedBy.onClass (h : m.DescribedBy P) (name : Text) {change : ClassModel → ClassModel}
    (hchange : ∀ c : ClassModel, c.DescribedBy P → (change c).DescribedBy P) :
    (m.onClass name change).DescribedBy P := by
  have hclasses : ∀ classes : List ClassModel, (∀ c ∈ classes, c.DescribedBy P) →
      ∀ c ∈ updateClass name change classes, c.DescribedBy P := by
    intro classes
    induction classes with
    | nil =>
      have hempty : (ClassModel.empty name).DescribedBy P :=
        ⟨fun m hm => absurd hm List.not_mem_nil, fun f hf => absurd hf List.not_mem_nil⟩
      exact fun _ => List.forall_mem_singleton.mpr (hchange _ hempty)
    | cons c classes ih =>
      intro hall
      obtain ⟨hc, hrest⟩ := List.forall_mem_cons.mp hall
      rw [updateClass]
      split
      · exact List.forall_mem_cons.mpr ⟨hchange c hc, hrest⟩
      · exact List.forall_mem_cons.mpr ⟨hc, ih hrest⟩
  exact hclasses m.classes h

/-- An entry whose description has a property keeps the property of a model. -/
theorem DescribedBy.add (h : m.DescribedBy P) {e : Entry} (he : ∀ text ∈ e.description?, P text) :
    (m.add e).DescribedBy P := by
  cases e with
  | classStart name => exact h.onClass name fun _ hc => hc
  | indexSignature className signature => exact h.onClass className fun _ hc => ⟨hc.methods, hc.dataFields⟩
  | method className method => exact h.onClass className fun _ hc => hc.putMethod he
  | dataField className field => exact h.onClass className fun _ hc => hc.putDataField he
  | _ => exact h

end Model

namespace Source

/-- Prose of several lines has no line feed in it when none of the lines has one. -/
theorem Context.not_mem_prose {c : Context} (h : ∀ text ∈ c.description, '\n' ∉ text) :
    ∀ text ∈ c.prose?, '\n' ∉ text := by
  intro text htext
  rw [prose?] at htext
  split at htext
  · cases htext
  · obtain rfl := Option.some.inj htext
    by_cases hne : c.description = []
    · rw [hne]
      decide
    · exact Text.join_of_append (motive := fun t => '\n' ∉ t) (fun s t hs ht => by simp [hs, ht]) (by decide) hne h

/-- An entry is described by the prose that waits or by its directive. -/
theorem Context.description_of_entry {c : Context} {d : Directive} {e : Entry} (h : c.entry? d = some e) :
    ∀ text ∈ e.description?, c.prose? = some text ∨ d.description? = some text := by
  intro text htext
  cases d with
  | field note =>
    obtain ⟨className, -, rfl⟩ := Option.map_eq_some_iff.mp h
    rw [fieldEntry] at htext
    split at htext
    · exact .inl htext
    · exact ((Option.orElse_eq_some _ _ _).mp htext).imp_right And.right
  | function f =>
    obtain rfl := Option.some.inj h
    exact .inl htext
  | indexField key value =>
    obtain ⟨className, -, rfl⟩ := Option.map_eq_some_iff.mp h
    cases htext
  | nested outer inner =>
    obtain ⟨className, -, rfl⟩ := Option.map_eq_some_iff.mp h
    cases htext
  | param | returns | description | otherCode | silent => cases h
  | _ =>
    obtain rfl := Option.some.inj h
    cases htext

/-- The prose that waits after a directive waited before, or the directive gives it. -/
theorem Context.mem_description_next {c : Context} {d : Directive} {text : Text} (h : text ∈ (c.next d).description) :
    text ∈ c.description ∨ d.description? = some text := by
  cases d with
  | description line =>
    obtain h | h := List.mem_append.mp h
    · exact .inl h
    · exact .inr (congrArg some (List.mem_singleton.mp h).symm)
  | field note =>
    rw [next] at h
    split at h
    · exact absurd h List.not_mem_nil
    · exact .inl h
  | nested outer inner =>
    rw [next] at h
    split at h
    · exact .inl h
    · exact absurd h List.not_mem_nil
  | function | otherCode => exact absurd h List.not_mem_nil
  | _ => exact .inl h

/-- Whether no description has a line feed in it, neither one that waits nor one of the model. -/
structure Progress.OnOneLine (p : Progress) : Prop where
  prose : ∀ text ∈ p.context.description, '\n' ∉ text
  model : p.model.DescribedBy ('\n' ∉ ·)

/-- A directive without a line feed in its description brings none into the model. -/
theorem Progress.OnOneLine.step {p : Progress} (h : p.OnOneLine) {d : Directive}
    (hd : ∀ text ∈ d.description?, '\n' ∉ text) : (p.step d).OnOneLine where
  prose text htext := by
    obtain htext | htext := Context.mem_description_next htext
    · exact h.prose text htext
    · exact hd text htext
  model := by
    rw [Progress.step]
    dsimp only
    split
    · exact h.model
    · rename_i e he
      refine h.model.add fun text htext => ?_
      obtain htext | htext := Context.description_of_entry he text htext
      · exact Context.not_mem_prose h.prose text htext
      · exact hd text htext

/-- Lines without line feeds bring none into the model. -/
theorem Progress.OnOneLine.readLines {p : Progress} (h : p.OnOneLine) {lines : List Text}
    (hlines : ∀ line ∈ lines, '\n' ∉ line) : (p.readLines lines).OnOneLine := by
  induction lines generalizing p with
  | nil => exact h
  | cons line lines ih =>
    obtain ⟨hline, hrest⟩ := List.forall_mem_cons.mp hlines
    refine ih (h.step fun text htext hfeed => hline ?_) hrest
    exact (isInfix_of_ofLine htext).subset hfeed

end Source

/-- The descriptions of a model of lines are on one line each. -/
theorem Model.describedBy_ofLines {lines : List Text} (hlines : ∀ line ∈ lines, '\n' ∉ line) :
    (Model.ofLines lines).DescribedBy ('\n' ∉ ·) := by
  have hstart : Source.Progress.start.OnOneLine :=
    ⟨fun text htext => absurd htext List.not_mem_nil, fun c hc => absurd hc List.not_mem_nil⟩
  exact (hstart.readLines hlines).model

end LuaTypings
