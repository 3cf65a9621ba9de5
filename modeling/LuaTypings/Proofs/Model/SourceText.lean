import LuaTypings.Model.Written
import LuaTypings.Proofs.Model.Entries
import LuaTypings.Proofs.Model.Growth
import LuaTypings.Proofs.Source.LineText
import LuaTypings.Proofs.Source.Waiting

/-!
# Models and their source texts

A model that can be written is read back from its source text: `ofSource_toSource`. There are two halves. Every line of
the text says the directive that it is written for (`map_ofLine_lines`), and the directives of a model, followed one
after another, build it (`follow_directives`).

While the lines of a class are read, the progress is that the class so far stands behind the classes before it and nothing
waits (`Progress.within`). Every member adds itself at the end of its kind, because its name is new.
-/

namespace LuaTypings

open Text (isWord isPhrase)
open TypeText (isFunctionText)
open Source (Directive Progress Context FieldNote fieldScopes)

/-! ## What can be written -/

/-- Whether a text can name a member: it is a word and says no scope. -/
def isMemberName (name : Text) : Bool := isWord name && !fieldScopes.contains name

/-- Whether a text can describe a member: it is a phrase and does not start as an annotation does. -/
def isProse (text : Text) : Bool := isPhrase text && text.head? != some '@'

/-- Whether a method can be written: its type is marked as a function type. -/
def Method.isWritable (m : Method) : Bool :=
  isMemberName m.name && isPhrase m.type && isFunctionText m.type && m.description.all isProse

/-- Whether a data field can be written: its type is not marked as a function type and nothing in it looks like prose. -/
def DataField.isWritable (f : DataField) : Bool :=
  isMemberName f.name && isPhrase f.type && (!isFunctionText f.type && !Text.hasCapitalised f.type) &&
    f.description.all isProse

/-- Whether an index signature can be written. -/
def IndexSignature.isWritable (s : IndexSignature) : Bool := isWord s.key && isPhrase s.value

/-- Whether a class can be written: its members can, and their names differ. -/
def ClassModel.isWritable (c : ClassModel) : Bool :=
  isWord c.name && c.indexSignatures.all (·.isWritable) && c.dataFields.all (·.isWritable) &&
    c.methods.all (·.isWritable) && decide c.memberNames.Nodup

/-- Whether an alias can be written. -/
def Alias.isWritable (a : Alias) : Bool := isWord a.name && isPhrase a.body

/-- Whether a model can be written: its parts can, and the names of its classes and those of its aliases differ. -/
def Model.isWritable (m : Model) : Bool :=
  m.aliases.all (·.isWritable) && decide (m.aliases.map (·.name)).Nodup && m.classes.all (·.isWritable) &&
    decide m.classNames.Nodup && m.mainExport.all isWord

/-! ## Lines -/

/-- A directive is legible when it has a line, a phrase that says it. -/
def Source.Directive.IsLegible (d : Directive) : Prop :=
  ∃ line, d.line? [] = some line ∧ isPhrase line = true ∧ Directive.ofLine line = d

/-- The lines of legible directives say them. -/
theorem map_ofLine_filterMap {ds : List Directive} (h : ∀ d ∈ ds, d.IsLegible) :
    (ds.filterMap (Directive.line? [])).map Directive.ofLine = ds := by
  induction ds with
  | nil => rfl
  | cons d ds ih =>
    obtain ⟨line, hline, -, hread⟩ := h d List.mem_cons_self
    have hrest := ih fun e he => h e (List.mem_cons_of_mem d he)
    rw [List.filterMap_cons_some hline, List.map_cons, hread, hrest]

/-- The lines of legible directives are phrases. -/
theorem isPhrase_of_mem_filterMap {ds : List Directive} (h : ∀ d ∈ ds, d.IsLegible) :
    ∀ line ∈ ds.filterMap (Directive.line? []), isPhrase line = true := by
  intro line hmem
  obtain ⟨d, hd, hline⟩ := List.mem_filterMap.mp hmem
  obtain ⟨line', hline', hphrase, -⟩ := h d hd
  rw [hline] at hline'
  cases hline'
  exact hphrase

/-- The directives of a described member are legible. -/
theorem isLegible_memberDirectives {description : Option Text} {name type : Text} (optional : Bool)
    (hname : isMemberName name = true) (htype : isPhrase type = true)
    (hkind : isFunctionText type = true ∨ Text.hasCapitalised type = false)
    (hdescription : description.all isProse = true) :
    ∀ d ∈ memberDirectives description name type optional, d.IsLegible := by
  rw [isMemberName, Bool.and_eq_true, Bool.not_eq_true', List.contains_eq_mem, decide_eq_false_iff_not] at hname
  intro d hd
  rw [memberDirectives, List.mem_append, List.mem_singleton, List.mem_map] at hd
  obtain ⟨text, htext, rfl⟩ | rfl := hd
  · rw [Option.mem_toList] at htext
    rw [htext, Option.all_some, isProse, Bool.and_eq_true, bne_iff_ne] at hdescription
    refine ⟨"--- " ++ text, rfl, ?_,
      Source.ofLine_description (Text.isLastPart_of_isPhrase hdescription.1) hdescription.2⟩
    simpa using Text.isPhrase_append (s := "---") (m := " ") (by decide) (by decide) hdescription.1
  · have htexts : ∀ text ∈ type :: (none : Option Text).toList, isPhrase text = true := by simpa using htype
    have hcut : isFunctionText type = true ∨ Text.cutCapitalised? type = none :=
      hkind.imp_right Text.cutCapitalised?_eq_none
    refine ⟨FieldNote.line ⟨name, type, optional, none⟩, rfl, Source.isPhrase_fieldLine hname.1 htexts, ?_⟩
    rw [Source.ofLine_field hname.1 hname.2 fun t ht => Text.isLastPart_of_isPhrase (htexts t ht), Option.toList_none, Text.join_singleton,
      FieldNote.ofParts_of_not_prose optional hcut]

/-- The directives of a class are legible. -/
theorem ClassModel.isLegible_directives {c : ClassModel} (h : c.isWritable = true) :
    ∀ d ∈ c.directives, d.IsLegible := by
  simp only [ClassModel.isWritable, Bool.and_eq_true, List.all_eq_true, decide_eq_true_eq] at h
  obtain ⟨⟨⟨⟨hname, hsignatures⟩, hfields⟩, hmethods⟩, -⟩ := h
  intro d hd
  simp only [ClassModel.directives, List.cons_append, List.mem_cons, List.mem_append, List.mem_map,
    List.mem_flatMap] at hd
  obtain rfl | (⟨s, hs, rfl⟩ | ⟨f, hf, hd⟩) | ⟨m, hm, hd⟩ := hd
  · have hparts : ∀ part ∈ [c.name], isPhrase part = true :=
      List.forall_mem_singleton.mpr (Text.isPhrase_of_isWord hname)
    exact ⟨_, rfl, Source.isPhrase_annotationLine (by decide) hparts, Source.ofLine_classStart hname⟩
  · have hwritable := hsignatures s hs
    rw [IndexSignature.isWritable, Bool.and_eq_true] at hwritable
    have hparts := Source.forall_mem_pair (P := (isPhrase · = true)) (Source.isPhrase_bracketed hwritable.1) hwritable.2
    exact ⟨_, rfl, Source.isPhrase_annotationLine (by decide) hparts,
      Source.ofLine_indexField hwritable.1 (Text.isLastPart_of_isPhrase hwritable.2)⟩
  · have hwritable := hfields f hf
    simp only [DataField.isWritable, Bool.and_eq_true, Bool.not_eq_true'] at hwritable
    obtain ⟨⟨⟨hname, htype⟩, -, hplain⟩, hdescription⟩ := hwritable
    exact isLegible_memberDirectives f.optional hname htype (.inr hplain) hdescription d hd
  · have hwritable := hmethods m hm
    simp only [Method.isWritable, Bool.and_eq_true] at hwritable
    obtain ⟨⟨⟨hname, htype⟩, hfunction⟩, hdescription⟩ := hwritable
    exact isLegible_memberDirectives false hname htype (.inl hfunction) hdescription d hd

/-- The directives of a model are legible. -/
theorem Model.isLegible_directives {m : Model} (h : m.isWritable = true) : ∀ d ∈ m.directives, d.IsLegible := by
  simp only [Model.isWritable, Bool.and_eq_true, List.all_eq_true, decide_eq_true_eq] at h
  obtain ⟨⟨⟨⟨haliases, -⟩, hclasses⟩, -⟩, hexport⟩ := h
  intro d hd
  simp only [Model.directives, List.mem_append, List.mem_map, List.mem_flatMap, Option.mem_toList] at hd
  obtain (⟨a, ha, rfl⟩ | ⟨c, hc, hd⟩) | ⟨name, hname, rfl⟩ := hd
  · have hwritable := haliases a ha
    rw [Alias.isWritable, Bool.and_eq_true] at hwritable
    have hparts := Source.forall_mem_pair (P := (isPhrase · = true)) (Text.isPhrase_of_isWord hwritable.1) hwritable.2
    exact ⟨_, rfl, Source.isPhrase_annotationLine (by decide) hparts,
      Source.ofLine_alias hwritable.1 (Text.isLastPart_of_isPhrase hwritable.2)⟩
  · exact ClassModel.isLegible_directives (hclasses c hc) d hd
  · rw [hname, Option.all_some] at hexport
    have hparts : ∀ part ∈ [name], isPhrase part = true :=
      List.forall_mem_singleton.mpr (Text.isPhrase_of_isWord hexport)
    exact ⟨_, rfl, Source.isPhrase_annotationLine (by decide) hparts, Source.ofLine_exportHint hexport⟩

/-- The lines of a source text are those it was written from. -/
theorem Model.splitLines_toSource {m : Model} (h : m.isWritable = true) : Text.splitLines m.toSource = m.lines := by
  refine Text.splitLines_join fun line hline => ?_
  obtain ⟨hne, -, honeLine⟩ := Text.isPhrase_iff.mp
    (isPhrase_of_mem_filterMap (Model.isLegible_directives h) line hline)
  exact ⟨hne, honeLine⟩

/-- The lines of a model say its directives. -/
theorem Model.map_ofLine_lines {m : Model} (h : m.isWritable = true) :
    m.lines.map Directive.ofLine = m.directives := map_ofLine_filterMap (Model.isLegible_directives h)

/-! ## Following directives -/

namespace Source.Progress

open ClassModel (putMethod putDataField putIndexSignature)

/-- Follows directives, one after another. -/
def follow (p : Progress) (ds : List Directive) : Progress := ds.foldl step p

/-- Reading lines is following what they say. -/
theorem readLines_eq_follow (p : Progress) (lines : List Text) :
    p.readLines lines = p.follow (lines.map Directive.ofLine) := by
  rw [readLines, follow, List.foldl_map]

/-- Directives behind others are followed from where those lead. -/
theorem follow_append (p : Progress) (ds es : List Directive) : p.follow (ds ++ es) = (p.follow ds).follow es :=
  List.foldl_append

/-- The progress in which nothing waits. -/
def idle (openClass : Option Text) (m : Model) : Progress := ⟨⟨openClass, [], none, []⟩, m⟩

/-- The progress within a class: the class so far stands behind the others, and nothing waits. -/
def within (m : Model) (c : ClassModel) : Progress := idle (some c.name) (m.withClass c)

variable {m : Model} {c : ClassModel}

/-- A class line starts an empty class, when its name is new. -/
theorem step_classStart (openClass : Option Text) {name : Text} (h : name ∉ m.classNames) :
    (idle openClass m).step (.classStart name) = within m (.empty name) := by
  have hmodel : m.onClass name id = m.withClass (.empty name) := Model.onClass_of_new h id
  rw [within, ← hmodel]
  rfl

/-- An index field adds itself to the class. -/
theorem follow_indexSignature (h : c.name ∉ m.classNames) (s : IndexSignature) :
    (within m c).follow [.indexField s.key s.value] = within m (c.putIndexSignature s) := by
  have hmodel := Model.onClass_withClass h fun c => c.putIndexSignature s
  rw [within, within, ← hmodel]
  rfl

/-- The prose that waits is the description, unless that is empty. -/
theorem prose?_toList {description : Option Text} (h : description ≠ some []) (openClass : Option Text) :
    Context.prose? ⟨openClass, [], none, description.toList⟩ = description := by
  match description, h with
  | none, _ => rfl
  | some [], h => exact absurd rfl h
  | some (ch :: text), _ => rw [Context.prose?, Option.toList_some, Text.join_singleton]

/-- A described member adds itself to the class and takes its description. -/
theorem follow_memberDirectives (h : c.name ∉ m.classNames) {description : Option Text}
    (hdescription : description ≠ some []) (name type : Text) (optional : Bool) :
    (within m c).follow (memberDirectives description name type optional) =
      within m (if isFunctionText type then c.putMethod ⟨name, type, description⟩
        else c.putDataField ⟨name, type, description, optional⟩) := by
  generalize hwaiting : Context.mk (some c.name) [] none description.toList = waiting
  have hfollow : (within m c).follow (description.toList.map .description) = ⟨waiting, m.withClass c⟩ := by
    rw [← hwaiting]
    cases description <;> rfl
  have hprose : waiting.prose? = description := hwaiting ▸ prose?_toList hdescription (some c.name)
  -- The field takes the prose, so nothing waits behind it.
  have hstep : Progress.step ⟨waiting, m.withClass c⟩ (.field ⟨name, type, optional, none⟩) =
      idle (some c.name) ((m.withClass c).add (waiting.fieldEntry c.name ⟨name, type, optional, none⟩)) := by
    rw [← hwaiting]
    rfl
  rw [memberDirectives, follow_append, hfollow]
  change Progress.step ⟨waiting, m.withClass c⟩ (.field ⟨name, type, optional, none⟩) = _
  rw [hstep, Context.fieldEntry, hprose, FieldNote.isMethod]
  split
  · have hmodel := Model.onClass_withClass h fun c => c.putMethod ⟨name, type, description⟩
    rw [within, ← hmodel]
    rfl
  · have hmodel := Model.onClass_withClass h fun c => c.putDataField ⟨name, type, description, optional⟩
    have hname := Entry.change_name (.dataField c.name ⟨name, type, description, optional⟩) c
    rw [Entry.change] at hname
    rw [within, ← hmodel, hname]
    cases description <;> rfl

/-- A description that can be written is not empty. -/
theorem description_ne {description : Option Text} (h : description.all isProse = true) : description ≠ some [] := by
  rintro rfl
  exact absurd h (by decide)

/-- A data field that can be written adds itself to the class. -/
theorem follow_dataField (h : c.name ∉ m.classNames) {f : DataField} (hf : f.isWritable = true) :
    (within m c).follow (memberDirectives f.description f.name f.type f.optional) = within m (c.putDataField f) := by
  simp only [DataField.isWritable, Bool.and_eq_true, Bool.not_eq_true'] at hf
  obtain ⟨⟨-, hkind, -⟩, hdescription⟩ := hf
  rw [follow_memberDirectives h (description_ne hdescription), if_neg (by simp [hkind])]

/-- A method that can be written adds itself to the class. -/
theorem follow_method (h : c.name ∉ m.classNames) {k : Method} (hk : k.isWritable = true) :
    (within m c).follow (memberDirectives k.description k.name k.type false) = within m (c.putMethod k) := by
  simp only [Method.isWritable, Bool.and_eq_true] at hk
  obtain ⟨⟨-, hkind⟩, hdescription⟩ := hk
  rw [follow_memberDirectives h (description_ne hdescription), if_pos hkind]

/-- Items of a class that keep its name one by one keep it together. -/
theorem name_foldl {α : Type} {put : ClassModel → α → ClassModel} (hname : ∀ c x, (put c x).name = c.name)
    (items : List α) (c : ClassModel) : (items.foldl put c).name = c.name := by
  induction items generalizing c with
  | nil => rfl
  | cons x items ih => rw [List.foldl_cons, ih, hname]

/-- Items of a class that each add themselves do so one after another. -/
theorem follow_flatMap {α : Type} {put : ClassModel → α → ClassModel} {directives : α → List Directive}
    {items : List α} (hname : ∀ c x, (put c x).name = c.name)
    (hput : ∀ c : ClassModel, c.name ∉ m.classNames → ∀ x ∈ items,
      (within m c).follow (directives x) = within m (put c x))
    (h : c.name ∉ m.classNames) :
    (within m c).follow (items.flatMap directives) = within m (items.foldl put c) := by
  induction items generalizing c with
  | nil => rfl
  | cons x items ih =>
    have hnew : (put c x).name ∉ m.classNames := by rwa [hname]
    rw [List.flatMap_cons, follow_append, hput c h x List.mem_cons_self, List.foldl_cons]
    exact ih (fun c hc y hy => hput c hc y (List.mem_cons_of_mem x hy)) hnew

/-- The directives of a class of a new name add the class at the end. -/
theorem follow_class (openClass : Option Text) (hc : c.isWritable = true) (h : c.name ∉ m.classNames) :
    (idle openClass m).follow c.directives = within m c := by
  simp only [ClassModel.isWritable, Bool.and_eq_true, List.all_eq_true, decide_eq_true_eq] at hc
  obtain ⟨⟨⟨-, hfields⟩, hmethods⟩, hnodup⟩ := hc
  have hsignatureName : ∀ (b : ClassModel) (s : IndexSignature), (b.putIndexSignature s).name = b.name := fun _ _ => rfl
  have hfieldName : ∀ (b : ClassModel) (f : DataField), (b.putDataField f).name = b.name :=
    fun b f => Entry.change_name (.dataField b.name f) b
  have hmethodName : ∀ (b : ClassModel) (k : Method), (b.putMethod k).name = b.name := fun _ _ => rfl
  have hempty : (ClassModel.empty c.name).name ∉ m.classNames := h
  have hfieldsNew : (c.indexSignatures.foldl putIndexSignature (.empty c.name)).name ∉ m.classNames := by
    rwa [name_foldl hsignatureName]
  have hmethodsNew : (c.dataFields.foldl putDataField
      (c.indexSignatures.foldl putIndexSignature (.empty c.name))).name ∉ m.classNames := by
    rwa [name_foldl hfieldName]
  calc (idle openClass m).follow c.directives
      = (((within m (.empty c.name)).follow
            (c.indexSignatures.flatMap fun s => [.indexField s.key s.value])).follow
          (c.dataFields.flatMap fun f => memberDirectives f.description f.name f.type f.optional)).follow
        (c.methods.flatMap fun k => memberDirectives k.description k.name k.type false) := by
        rw [ClassModel.directives, follow_append, follow_append, List.map_eq_flatMap, ← step_classStart openClass h]
        rfl
    _ = within m (c.methods.foldl putMethod
          (c.dataFields.foldl putDataField (c.indexSignatures.foldl putIndexSignature (.empty c.name)))) := by
        rw [follow_flatMap hsignatureName (fun _ hb s _ => follow_indexSignature hb s) hempty,
          follow_flatMap hfieldName (fun _ hb f hf => follow_dataField hb (hfields f hf)) hfieldsNew,
          follow_flatMap hmethodName (fun _ hb k hk => follow_method hb (hmethods k hk)) hmethodsNew]
    _ = within m c := by rw [ClassModel.foldl_members hnodup]

/-- The directives of classes of different new names add the classes at the end. -/
theorem follow_classes {classes : List ClassModel} (hclasses : ∀ c ∈ classes, c.isWritable = true)
    (openClass : Option Text) {m : Model} (hnodup : (m.classNames ++ classes.map (·.name)).Nodup) :
    ∃ lastClass, (idle openClass m).follow (classes.flatMap ClassModel.directives) =
      idle lastClass { m with classes := m.classes ++ classes } := by
  induction classes generalizing openClass m with
  | nil => exact ⟨openClass, by rw [List.append_nil]; rfl⟩
  | cons c classes ih =>
    have hnew : c.name ∉ m.classNames := fun hmem =>
      (List.nodup_append.mp hnodup).2.2 c.name hmem c.name (by simp) rfl
    have hrest : ((m.withClass c).classNames ++ classes.map (·.name)).Nodup := by
      simpa [Model.classNames_withClass] using hnodup
    obtain ⟨lastClass, hlast⟩ :=
      ih (fun d hd => hclasses d (List.mem_cons_of_mem c hd)) (some c.name) hrest
    refine ⟨lastClass, ?_⟩
    rw [List.flatMap_cons, follow_append, follow_class openClass (hclasses c List.mem_cons_self) hnew, within, hlast,
      Model.withClass, List.append_assoc, List.singleton_append]

/-- The directives of aliases of different new names add the aliases at the end. -/
theorem follow_aliases (openClass : Option Text) {m : Model} {aliases : List Alias}
    (hnodup : ((m.aliases ++ aliases).map (·.name)).Nodup) :
    (idle openClass m).follow (aliases.map fun a => .alias a.name a.body) =
      idle openClass { m with aliases := m.aliases ++ aliases } := by
  induction aliases generalizing m with
  | nil => rw [List.append_nil]; rfl
  | cons a aliases ih =>
    have hnew : a.name ∉ m.aliases.map (·.name) := by
      rw [List.map_append] at hnodup
      exact fun hmem => (List.nodup_append.mp hnodup).2.2 a.name hmem a.name (by simp) rfl
    have hstep : (idle openClass m).step (.alias a.name a.body) =
        idle openClass { m with aliases := m.aliases ++ [a] } := by
      rw [← Model.setAlias_of_new hnew]
      rfl
    have hrest := ih (m := { m with aliases := m.aliases ++ [a] }) (by simpa using hnodup)
    rw [List.append_assoc, List.singleton_append] at hrest
    rw [← hrest, ← hstep]
    rfl

end Source.Progress

namespace Model

open Source.Progress

/-- The directives of a model build it. -/
theorem follow_directives {m : Model} (h : m.isWritable = true) :
    (Progress.start.follow m.directives).model = m := by
  simp only [isWritable, Bool.and_eq_true, List.all_eq_true, decide_eq_true_eq] at h
  obtain ⟨⟨⟨⟨-, haliases⟩, hclasses⟩, hclassNames⟩, -⟩ := h
  have halias : Progress.start.follow (m.aliases.map fun a => .alias a.name a.body) =
      idle none ⟨[], m.aliases, none⟩ := follow_aliases none haliases
  obtain ⟨lastClass, hclass⟩ := follow_classes hclasses none (m := ⟨[], m.aliases, none⟩) hclassNames
  have hexport : ((idle lastClass ⟨m.classes, m.aliases, none⟩).follow (m.mainExport.toList.map .exportHint)).model =
      m := by
    obtain ⟨classes, aliases, mainExport⟩ := m
    cases mainExport <;> rfl
  rw [directives, follow_append, follow_append, halias, hclass]
  exact hexport

/-- **Models are read back.** A model whose names are words, whose types, bodies and descriptions are trimmed texts on
one line, and whose members are told apart by their types and names is the model of its source text: the same classes,
aliases and members in the same orders, each with all that was written of it. -/
theorem ofSource_toSource (m : Model) (h : m.isWritable = true) : ofSource m.toSource = m := by
  calc ofSource m.toSource
      = (Progress.start.follow (m.lines.map Directive.ofLine)).model := by
        rw [ofSource, splitLines_toSource h, ofLines, readLines_eq_follow]
    _ = (Progress.start.follow m.directives).model := by rw [map_ofLine_lines h]
    _ = m := follow_directives h

/-- Two classes that share the name of a member, an optional field, descriptions, and a type that looks like several. -/
theorem ofSource_toSource_of_two_classes :
    let m : Model :=
      ⟨[⟨"Unit", [⟨"get", "fun(self: Unit): string, number", some "Gives both."⟩, ⟨"new", "fun (): Unit", none⟩],
          [⟨"pos", "table<string, number> | nil", some "---@field x T", true⟩, ⟨"id", "number", none, false⟩],
          [⟨"string", "Unit[]"⟩]⟩,
        ⟨"World", [], [⟨"get", "Unit?", none, false⟩], []⟩],
        [⟨"Id", "fun(a: Unit) | number"⟩], some "World"⟩
    m.isWritable = true ∧ ofSource m.toSource = m :=
  ⟨by decide, ofSource_toSource _ (by decide)⟩

end Model

end LuaTypings
