import LuaTypings.Outcome
import LuaTypings.Proofs.Model.Members
import LuaTypings.Proofs.Source.Waiting

/-!
# The names that a source mentions

Which classes and aliases the model of a source has can be read off its directives (`names_ofSource`). A class is mentioned
by the line that starts it, by the declaration of one of its functions, and by a table that is assigned to it within
another class. Fields never bring a class in, because the class that they belong to was started before
(`Progress.KnowsOpenClass`). An alias has its last body in the place of its first. So a source is skipped exactly when it
starts no class and declares no function: a table alone is assigned outside all classes.
-/

namespace LuaTypings

open Source (Directive Event Context Progress startsClass)

/-! ## What directives mention -/

/-- Whether a directive declares a class wherever it stands: it starts the class or declares one of its functions. -/
def Source.Directive.declaresClass : Directive → Bool
  | .classStart _ | .function _ => true
  | _ => false

/-- The alias that a directive gives. -/
def Source.Directive.alias? : Directive → Option Alias
  | .alias name body => some ⟨name, body⟩
  | _ => none

/-- The class that an event mentions: the one it starts, that of the function it declares, or, within a class, the one
that it assigns a table to. -/
def Source.Event.mentioned? (e : Event) : Option Text :=
  match e.directive with
  | .classStart name => some name
  | .function d => some d.className
  | .nested outer _ => if e.withinClass then some outer else none
  | _ => none

/-- The classes that directives mention, as often as they do. -/
def Source.mentions (ds : List Directive) : List Text := (Event.ofDirectives false ds).filterMap Event.mentioned?

namespace Source

/-- What one more directive mentions depends on whether a class was started before it. -/
theorem mentions_concat (ds : List Directive) (d : Directive) :
    mentions (ds ++ [d]) = mentions ds ++ (Event.mk (startsClass ds) d).mentioned?.toList := by
  rw [mentions, Event.ofDirectives_concat, Bool.false_or, filterMap_concat]
  rfl

/-- Outside all classes a directive mentions a class only when it declares it. -/
theorem Event.mentioned?_outside (d : Directive) : (Event.mk false d).mentioned? = none ↔ d.declaresClass = false := by
  cases d <;> simp [mentioned?, Directive.declaresClass]

/-- A directive that declares no class starts none. -/
theorem Directive.startedClass?_of_not_declaresClass {d : Directive} (h : d.declaresClass = false) :
    d.startedClass? = none := by
  cases d with
  | classStart name => cases h
  | _ => rfl

/-- Directives mention no class exactly when none of them declares one. -/
theorem mentions_eq_nil_iff {ds : List Directive} : mentions ds = [] ↔ ∀ d ∈ ds, d.declaresClass = false := by
  induction ds with
  | nil => simp [mentions, Event.ofDirectives]
  | cons d ds ih =>
    have hcons : mentions (d :: ds) = [] ↔
        (Event.mk false d).mentioned? = none ∧
          (Event.ofDirectives d.startedClass?.isSome ds).filterMap Event.mentioned? = [] := by
      simp [mentions, Event.ofDirectives]
    rw [hcons, Event.mentioned?_outside, List.forall_mem_cons]
    refine and_congr_right fun hd => ?_
    rw [Directive.startedClass?_of_not_declaresClass hd]
    exact ih

/-! ## Classes -/

/-- The class that the entry of a directive is about. -/
def Context.entryClass? (c : Context) (d : Directive) : Option Text :=
  c.entry? d |>.bind Entry.className?

/-- The entry of a directive is about the class that the directive mentions. If it mentions none, the entry is about the
open class or about no class. -/
theorem Context.entryClass?_eq (c : Context) (d : Directive) :
    c.entryClass? d = (Event.mk c.openClass.isSome d).mentioned? ∨
      (Event.mk c.openClass.isSome d).mentioned? = none ∧ c.entryClass? d = c.openClass := by
  cases d with
  | field note =>
    have hclass : ∀ className, (c.fieldEntry className note).className? = some className := by
      intro className
      rw [fieldEntry]
      split <;> rfl
    refine .inr ⟨rfl, ?_⟩
    unfold entryClass? entry?
    cases c.openClass with
    | none => rfl
    | some className => exact hclass className
  | indexField key value =>
    refine .inr ⟨rfl, ?_⟩
    unfold entryClass? entry?
    cases c.openClass <;> rfl
  | nested outer inner =>
    refine .inl ?_
    unfold entryClass? entry?
    cases c.openClass <;> rfl
  | _ => exact .inl rfl

namespace Progress

variable {p : Progress} {name : Text}

/-- What holds while a source is read: the class that is open is in the model. -/
def KnowsOpenClass (p : Progress) : Prop := ∀ name ∈ p.context.openClass, name ∈ p.model.classNames

/-- The classes after a directive: the one it mentions is added at the end when it is new. -/
theorem KnowsOpenClass.classNames_step (h : p.KnowsOpenClass) (d : Directive) :
    (p.step d).model.classNames =
      match (Event.mk p.context.openClass.isSome d).mentioned? with
      | some name => if name ∈ p.model.classNames then p.model.classNames else p.model.classNames ++ [name]
      | none => p.model.classNames := by
  have hadd : (p.step d).model.classNames =
      match p.context.entryClass? d with
      | some name => if name ∈ p.model.classNames then p.model.classNames else p.model.classNames ++ [name]
      | none => p.model.classNames := by
    rw [step, Context.entryClass?]
    cases p.context.entry? d with
    | none => rfl
    | some e => exact Model.classNames_add p.model e
  obtain hclass | ⟨hnone, hclass⟩ := p.context.entryClass?_eq d
  · rw [hadd, hclass]
  · rw [hadd, hclass, hnone]
    cases hopen : p.context.openClass with
    | none => rfl
    | some name => exact if_pos (h name hopen)

/-- A class is in the model after a directive when it was before or is mentioned. -/
theorem KnowsOpenClass.mem_classNames_step (h : p.KnowsOpenClass) (d : Directive) :
    name ∈ (p.step d).model.classNames ↔
      name ∈ p.model.classNames ∨ (Event.mk p.context.openClass.isSome d).mentioned? = some name := by
  rw [h.classNames_step]
  cases (Event.mk p.context.openClass.isSome d).mentioned? with
  | none => simp
  | some other =>
    dsimp only
    rw [Option.some.injEq]
    split
    · rename_i hknown
      exact ⟨.inl, fun hname => hname.elim id fun heq => heq ▸ hknown⟩
    · rw [List.mem_append, List.mem_singleton, eq_comm (a := name)]

/-- The class that is open after a directive is in the model. -/
theorem KnowsOpenClass.step (h : p.KnowsOpenClass) (d : Directive) : (p.step d).KnowsOpenClass := by
  intro name hname
  have hopen : (p.step d).context.openClass = d.startedClass?.or p.context.openClass := p.context.openClass_next d
  rw [hopen, Option.mem_def, Option.or_eq_some_iff] at hname
  rw [h.mem_classNames_step]
  obtain hstarted | ⟨-, hbefore⟩ := hname
  · right
    cases d with
    | classStart other => exact hstarted
    | _ => cases hstarted
  · exact .inl (h name hbefore)

/-- The classes of the model are those that the lines read so far mention, and the open one is among them. -/
theorem classNames_readLines (lines : List Text) :
    (start.readLines lines).KnowsOpenClass ∧
      (start.readLines lines).model.classNames = (mentions (lines.map .ofLine)).eraseDups := by
  induction lines using List.reverseRecOn with
  | nil => exact ⟨fun name hname => absurd hname (Option.not_mem_none name), rfl⟩
  | append_singleton lines line ih =>
    obtain ⟨hknown, hnames⟩ := ih
    have hstep : start.readLines (lines ++ [line]) = (start.readLines lines).step (.ofLine line) := readLines_append _ _ _
    have hopen : (start.readLines lines).context.openClass.isSome = startsClass (lines.map .ofLine) := by
      rw [context_eq_ofDirectives, Context.isSome_openClass_ofDirectives]
    refine ⟨hstep ▸ hknown.step _, ?_⟩
    rw [hstep, hknown.classNames_step, hopen, List.map_append, List.map_singleton, mentions_concat, hnames]
    cases (Event.mk (startsClass (lines.map .ofLine)) (.ofLine line)).mentioned? with
    | none => rw [Option.toList_none, List.append_nil]
    | some name =>
      rw [Option.toList_some, eraseDups_concat]
      simp only [List.mem_eraseDups]

end Progress

end Source

/-! ## Aliases -/

namespace Model

variable {given aliases : List Alias} {a : Alias}

/-- The names of the aliases after one more. -/
theorem map_name_setAlias (a : Alias) (aliases : List Alias) :
    (setAlias a aliases).map (·.name) =
      if a.name ∈ aliases.map (·.name) then aliases.map (·.name) else aliases.map (·.name) ++ [a.name] := by
  induction aliases with
  | nil => rfl
  | cons b aliases ih =>
    rw [setAlias]
    by_cases h : b.name = a.name
    · simp [h]
    · have hne : a.name ≠ b.name := Ne.symm h
      rw [if_neg h, List.map_cons, ih]
      by_cases hmem : a.name ∈ aliases.map (·.name)
      · simp [hmem]
      · simp [hmem, hne]

/-- Of aliases with different names those of another name stay, and the new one takes the place of its name. -/
theorem mem_setAlias (hnodup : (aliases.map (·.name)).Nodup) {b : Alias} (hb : b ∈ setAlias a aliases) :
    b = a ∨ b ∈ aliases ∧ a.name ≠ b.name := by
  induction aliases with
  | nil => exact .inl (List.mem_singleton.mp hb)
  | cons first aliases ih =>
    rw [List.map_cons, List.nodup_cons] at hnodup
    rw [setAlias] at hb
    by_cases h : first.name = a.name
    · rw [if_pos h, List.mem_cons] at hb
      refine hb.imp_right fun hmem => ⟨List.mem_cons_of_mem first hmem, fun heq => hnodup.1 ?_⟩
      exact List.mem_map.mpr ⟨b, hmem, (h.trans heq).symm⟩
    · rw [if_neg h, List.mem_cons] at hb
      obtain rfl | hb := hb
      · exact .inr ⟨List.mem_cons_self, Ne.symm h⟩
      · exact (ih hnodup.2 hb).imp_right (And.imp_left (List.mem_cons_of_mem first))

/-- What holds of the aliases of a model at any time: one for each name that was given, in the order in which the names
were first given, and each one the last of its name. -/
structure AliasesSettled (given aliases : List Alias) : Prop where
  names : aliases.map (·.name) = (given.map (·.name)).eraseDups
  last : ∀ a ∈ aliases, (given.filter (·.name = a.name)).getLast? = some a

/-- One more alias leaves aliases settled. -/
theorem AliasesSettled.setAlias (h : AliasesSettled given aliases) (a : Alias) :
    AliasesSettled (given ++ [a]) (setAlias a aliases) := by
  have hnodup : (aliases.map (·.name)).Nodup := h.names ▸ nodup_eraseDups _
  constructor
  · rw [map_name_setAlias, h.names, List.map_append, List.map_singleton, eraseDups_concat]
    simp only [List.mem_eraseDups]
  · intro b hb
    rw [List.filter_append, List.getLast?_append]
    obtain rfl | ⟨hmem, hne⟩ := mem_setAlias hnodup hb
    · simp
    · simp [hne, h.last b hmem]

/-- A directive changes the aliases of a model only when it gives one. -/
theorem aliases_step (p : Progress) (d : Directive) :
    (p.step d).model.aliases =
      match d.alias? with
      | some a => Model.setAlias a p.model.aliases
      | none => p.model.aliases := by
  rw [Progress.step]
  cases d with
  | field note =>
    unfold Context.entry?
    cases p.context.openClass with
    | none => rfl
    | some className =>
      dsimp only [Option.map_some]
      rw [Context.fieldEntry]
      split <;> rfl
  | indexField key value =>
    unfold Context.entry?
    cases p.context.openClass <;> rfl
  | nested outer inner =>
    unfold Context.entry?
    cases p.context.openClass <;> rfl
  | _ => rfl

/-- The aliases of the lines read so far are settled. -/
theorem aliasesSettled_readLines (lines : List Text) :
    AliasesSettled ((lines.map Directive.ofLine).filterMap Directive.alias?)
      (Progress.start.readLines lines).model.aliases := by
  induction lines using List.reverseRecOn with
  | nil => exact ⟨rfl, fun a ha => absurd ha List.not_mem_nil⟩
  | append_singleton lines line ih =>
    have hstep : Progress.start.readLines (lines ++ [line]) = (Progress.start.readLines lines).step (.ofLine line) :=
      Progress.readLines_append _ _ _
    rw [hstep, aliases_step, List.map_append, List.map_singleton, Source.filterMap_concat]
    cases (Directive.ofLine line).alias? with
    | none => simpa using ih
    | some a => exact ih.setAlias a

end Model

/-! ## Skipped sources -/

/-- A source is skipped exactly when its model has no classes, and then for that reason. -/
theorem Outcome.ofSourceBy_eq_skipped_iff {renderer : Renderer} {source reason : Text} {spec : ModuleSpec} :
    Outcome.ofSourceBy renderer source spec = .skipped reason ↔
      reason = "No classes found in " ++ spec.sourceFile ∧ (Model.ofSource source).classes = [] := by
  rw [ofSourceBy]
  split
  · rename_i hempty
    rw [Outcome.skipped.injEq, List.isEmpty_iff.mp hempty, eq_comm]
    simp
  · rename_i hne
    have hclasses : (Model.ofSource source).classes ≠ [] := fun h => hne (List.isEmpty_iff.mpr h)
    split <;> simp [hclasses]

namespace Model

/-- The classes of the model of a source are those that its lines mention. -/
theorem classNames_ofSource (source : Text) :
    (ofSource source).classNames =
      (Source.mentions ((Text.splitLines source).map Directive.ofLine)).eraseDups :=
  (Progress.classNames_readLines (Text.splitLines source)).2

/-- A source has no classes exactly when none of its lines declares one. -/
theorem classes_ofSource_eq_nil_iff {source : Text} :
    (ofSource source).classes = [] ↔
      ∀ d ∈ (Text.splitLines source).map Directive.ofLine, d.declaresClass = false := by
  have hnames : (ofSource source).classNames = [] ↔ (ofSource source).classes = [] := List.map_eq_nil_iff
  rw [← Source.mentions_eq_nil_iff, ← hnames, classNames_ofSource]
  simp only [List.eq_nil_iff_forall_not_mem, List.mem_eraseDups]

/-- **The names of a model.** The classes of the model of a source are those that its lines mention, in the order in
which they are first mentioned; its aliases are those that its lines give, each name in its first place and with its last
body. So a source is skipped, whatever its specification and its renderer, exactly when no line starts a class or declares
a function of one. -/
theorem names_ofSource (source : Text) :
    let ds := (Text.splitLines source).map Directive.ofLine
    (ofSource source).classNames = (Source.mentions ds).eraseDups ∧
      ((ofSource source).aliases.map (·.name) = ((ds.filterMap Directive.alias?).map (·.name)).eraseDups ∧
        ∀ a ∈ (ofSource source).aliases, ((ds.filterMap Directive.alias?).filter (·.name = a.name)).getLast? = some a) ∧
      ∀ (renderer : Renderer) (spec : ModuleSpec) (reason : Text),
        Outcome.ofSourceBy renderer source spec = .skipped reason ↔
          reason = "No classes found in " ++ spec.sourceFile ∧ ∀ d ∈ ds, d.declaresClass = false := by
  have haliases := aliasesSettled_readLines (Text.splitLines source)
  refine ⟨classNames_ofSource source, ⟨haliases.names, haliases.last⟩, fun renderer spec reason => ?_⟩
  rw [Outcome.ofSourceBy_eq_skipped_iff, classes_ofSource_eq_nil_iff]

/-- Tables are assigned before and within a class, an alias is given twice, and a source has nothing but a table. -/
theorem names_ofSource_of_tables :
    let source : Text :=
      "A.x = \x7b\x7d\n---@alias Id number\n---@class B\nC.y = \x7b\x7d\nfunction lib.D:f() end\n---@alias Id B\n---@class B"
    (ofSource source).classNames = ["B", "C", "D"] ∧ (∀ a ∈ (ofSource source).aliases, a = ⟨"Id", "B"⟩) ∧
      Outcome.ofSource "A.x = \x7b\x7d" ⟨"a", "a.lua", none, [], false⟩ = .skipped "No classes found in a.lua" := by
  intro source
  have hds : (Text.splitLines source).map Directive.ofLine =
      [.nested "A" "x", .alias "Id" "number", .classStart "B", .nested "C" "y", .function ⟨"D", "f", [], true⟩,
        .alias "Id" "B", .classStart "B"] := by
    decide +kernel
  have h := names_ofSource source
  rw [hds] at h
  refine ⟨h.1.trans (by decide), fun a ha => ?_, ?_⟩
  · have hnames : (ofSource source).aliases.map (·.name) = ["Id".toList] := h.2.1.1.trans (by decide)
    have hname : a.name ∈ ["Id".toList] := hnames ▸ List.mem_map_of_mem ha
    have hlast := h.2.1.2 a ha
    rw [List.mem_singleton.mp hname] at hlast
    exact Option.some.inj (hlast.symm.trans (by decide))
  · exact ((names_ofSource "A.x = \x7b\x7d").2.2 plainRenderer _ _).mpr ⟨rfl, by decide +kernel⟩

end Model

end LuaTypings
