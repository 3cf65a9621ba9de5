import LuaTypings.Proofs.Model.Descriptions
import LuaTypings.Proofs.Model.Entries
import LuaTypings.Proofs.Source.OneLine

/-!
# Models of texts on one line

The classes of a model hold no text that their entries do not bring (`Model.texts_add`), and an entry is made from the
texts that wait and those of its directive (`Context.isOneLine_of_mem_entry`). Since every directive is read off one line,
none of the texts in the classes of a source has a line end (`Model.isOneLine_of_mem_texts`), nor do they have a description
without words (`Model.describedBy_ne_nil`).
-/

namespace LuaTypings

open Text

/-! ## Texts of classes -/

/-- The texts of a method. -/
def Method.texts (m : Method) : List Text := m.name :: m.type :: m.description.toList

/-- The texts of a data field. -/
def DataField.texts (f : DataField) : List Text := f.name :: f.type :: f.description.toList

/-- The texts of an index signature. -/
def IndexSignature.texts (signature : IndexSignature) : List Text := [signature.key, signature.value]

/-- The texts of a class: its name and those of its members. -/
def ClassModel.texts (c : ClassModel) : List Text :=
  c.name :: (c.indexSignatures.flatMap (·.texts) ++ c.dataFields.flatMap (·.texts) ++ c.methods.flatMap (·.texts))

/-- The texts in the classes of a model. -/
def Model.texts (m : Model) : List Text := m.classes.flatMap (·.texts)

/-- The texts that an entry brings into a class. -/
def Entry.texts : Entry → List Text
  | .classStart name => [name]
  | .indexSignature className signature => className :: signature.texts
  | .method className m => className :: m.texts
  | .dataField className f => className :: f.texts
  | .alias _ _ | .mainExport _ => []

/-- The texts of a class are its name and the texts of its members. -/
theorem ClassModel.mem_texts {c : ClassModel} {t : Text} : t ∈ c.texts ↔
    t = c.name ∨ (∃ s ∈ c.indexSignatures, t ∈ s.texts) ∨ (∃ f ∈ c.dataFields, t ∈ f.texts) ∨
      ∃ m ∈ c.methods, t ∈ m.texts := by
  simp [texts]

section Forall

variable {P : Text → Prop}

/-- All texts of a class have a property when its name has it and all texts of its members. -/
theorem ClassModel.forall_mem_texts {c : ClassModel} : (∀ t ∈ c.texts, P t) ↔
    P c.name ∧ (∀ s ∈ c.indexSignatures, ∀ t ∈ s.texts, P t) ∧ (∀ f ∈ c.dataFields, ∀ t ∈ f.texts, P t) ∧
      ∀ m ∈ c.methods, ∀ t ∈ m.texts, P t := by
  constructor
  · intro h
    exact ⟨h _ (mem_texts.mpr (.inl rfl)), fun s hs t ht => h t (mem_texts.mpr (.inr (.inl ⟨s, hs, ht⟩))),
      fun f hf t ht => h t (mem_texts.mpr (.inr (.inr (.inl ⟨f, hf, ht⟩)))),
      fun m hm t ht => h t (mem_texts.mpr (.inr (.inr (.inr ⟨m, hm, ht⟩))))⟩
  · rintro ⟨hname, hsignatures, hfields, hmethods⟩ t ht
    obtain rfl | ⟨s, hs, ht⟩ | ⟨f, hf, ht⟩ | ⟨m, hm, ht⟩ := mem_texts.mp ht
    · exact hname
    · exact hsignatures s hs t ht
    · exact hfields f hf t ht
    · exact hmethods m hm t ht

/-- All texts of a data field have a property when its name, its type and its description have it. -/
theorem DataField.forall_mem_texts {f : DataField} :
    (∀ t ∈ f.texts, P t) ↔ P f.name ∧ P f.type ∧ ∀ t ∈ f.description, P t := by
  rw [texts, List.forall_mem_cons, List.forall_mem_cons]
  simp only [Option.mem_toList, Option.mem_def]

/-- All texts of a method have a property when its name, its type and its description have it. -/
theorem Method.forall_mem_texts {m : Method} :
    (∀ t ∈ m.texts, P t) ↔ P m.name ∧ P m.type ∧ ∀ t ∈ m.description, P t := by
  rw [texts, List.forall_mem_cons, List.forall_mem_cons]
  simp only [Option.mem_toList, Option.mem_def]

/-- All texts of an index signature have a property when its key and its value have it. -/
theorem IndexSignature.forall_mem_texts {s : IndexSignature} : (∀ t ∈ s.texts, P t) ↔ P s.key ∧ P s.value := by
  rw [texts, List.forall_mem_cons, List.forall_mem_singleton]

end Forall

/-- An entry brings no texts into its class but its own. -/
theorem Entry.texts_change (e : Entry) (c : ClassModel) : (e.change c).texts ⊆ c.texts ++ e.texts := by
  intro t ht
  rw [List.mem_append, ClassModel.mem_texts]
  rw [ClassModel.mem_texts, e.change_name] at ht
  obtain rfl | ⟨s, hs, ht⟩ | ⟨f, hf, ht⟩ | ⟨m, hm, ht⟩ := ht
  · exact .inl (.inl rfl)
  · -- Only an index signature is put among the index signatures.
    have hs : s ∈ c.indexSignatures ∨ ∃ className, e = .indexSignature className s := by
      cases e with
      | indexSignature className signature =>
        obtain hs | hs := List.mem_append.mp hs
        · exact .inl hs
        · exact .inr ⟨className, List.mem_singleton.mp hs ▸ rfl⟩
      | dataField className field =>
        rw [change, ClassModel.putDataField] at hs
        split at hs <;> exact .inl hs
      | _ => exact .inl hs
    obtain hs | ⟨className, rfl⟩ := hs
    · exact .inl (.inr (.inl ⟨s, hs, ht⟩))
    · exact .inr (List.mem_cons_of_mem className ht)
  · have hf : f ∈ c.dataFields ∨ ∃ className, e = .dataField className f := by
      cases e with
      | method className method => exact .inl (List.mem_of_mem_filter hf)
      | dataField className field =>
        rw [change, ClassModel.putDataField] at hf
        split at hf
        · exact .inl hf
        · obtain hf | hf := List.mem_append.mp hf
          · exact .inl hf
          · exact .inr ⟨className, List.mem_singleton.mp hf ▸ rfl⟩
      | _ => exact .inl hf
    obtain hf | ⟨className, rfl⟩ := hf
    · exact .inl (.inr (.inr (.inl ⟨f, hf, ht⟩)))
    · exact .inr (List.mem_cons_of_mem className ht)
  · have hm : m ∈ c.methods ∨ ∃ className, e = .method className m := by
      cases e with
      | method className method =>
        obtain rfl | hm := ClassModel.eq_or_mem_of_mem_insertMethod hm
        · exact .inr ⟨className, rfl⟩
        · exact .inl hm
      | dataField className field =>
        rw [change, ClassModel.putDataField] at hm
        split at hm <;> exact .inl hm
      | _ => exact .inl hm
    obtain hm | ⟨className, rfl⟩ := hm
    · exact .inl (.inr (.inr (.inr ⟨m, hm, ht⟩)))
    · exact .inr (List.mem_cons_of_mem className ht)

namespace Model

/-- A change of one class brings no texts into the classes but those that it brings into that class and its name. -/
theorem texts_updateClass {change : ClassModel → ClassModel} {added : List Text}
    (hchange : ∀ c : ClassModel, (change c).texts ⊆ c.texts ++ added) {name : Text} (hname : name ∈ added)
    (classes : List ClassModel) :
    (updateClass name change classes).flatMap (·.texts) ⊆ classes.flatMap (·.texts) ++ added := by
  induction classes with
  | nil =>
    have hempty : (ClassModel.empty name).texts ++ added ⊆ added :=
      List.append_subset.mpr ⟨List.cons_subset.mpr ⟨hname, List.nil_subset _⟩, List.Subset.refl _⟩
    rw [updateClass, List.flatMap_singleton]
    exact List.Subset.trans (hchange _) hempty
  | cons c classes ih =>
    rw [updateClass]
    split
    · rw [List.flatMap_cons, List.flatMap_cons]
      intro t ht
      have hc := hchange c
      simp only [List.mem_append] at ht ⊢
      obtain ht | ht := ht
      · exact (List.mem_append.mp (hc ht)).imp_left .inl
      · exact .inl (.inr ht)
    · rw [List.flatMap_cons, List.flatMap_cons, List.append_assoc]
      exact List.append_subset.mpr ⟨List.subset_append_left _ _, List.Subset.trans ih (List.subset_append_right _ _)⟩

/-- An entry brings no texts into the classes of a model but its own. -/
theorem texts_add (m : Model) (e : Entry) : (m.add e).texts ⊆ m.texts ++ e.texts := by
  have hname : ∀ name ∈ e.className?, name ∈ e.texts := by
    intro name hname
    cases e with
    | «alias» | mainExport => cases hname
    | _ =>
      obtain rfl := Option.some.inj hname
      exact List.mem_cons_self
  rw [texts, classes_add]
  cases hclass : e.className? with
  | none => exact List.subset_append_left _ _
  | some name => exact texts_updateClass e.texts_change (hname name hclass) m.classes

end Model

/-! ## Reading -/

namespace Source

namespace Context

/-- The texts that wait, and the name of the open class. -/
def texts (c : Context) : List Text :=
  c.openClass.toList ++ c.params.flatMap (·.texts) ++ c.returns.toList ++ c.description

variable {c : Context} {d : Directive}

/-- What waits after a directive waited before, or the directive brings it. -/
theorem texts_next (c : Context) (d : Directive) : (c.next d).texts ⊆ c.texts ++ d.texts := by
  have hcleared : c.cleared.texts ⊆ c.texts := by simp [texts, cleared]
  intro t ht
  rw [List.mem_append]
  cases d with
  | classStart name =>
    simp only [texts, next, Directive.texts, List.mem_append, Option.toList_some, List.mem_singleton] at ht ⊢
    tauto
  | param note =>
    simp only [texts, next, Directive.texts, List.mem_append, List.flatMap_append, List.flatMap_singleton] at ht ⊢
    tauto
  | returns type =>
    simp only [texts, next, Directive.texts, List.mem_append, Option.toList_some, List.mem_singleton] at ht ⊢
    tauto
  | description text =>
    simp only [texts, next, Directive.texts, List.mem_append] at ht ⊢
    tauto
  | field note =>
    rw [next] at ht
    split at ht
    · simp only [texts, List.mem_append, List.not_mem_nil, or_false] at ht ⊢
      tauto
    · exact .inl ht
  | function | otherCode => exact .inl (hcleared ht)
  | nested outer inner =>
    rw [next] at ht
    split at ht
    · exact .inl ht
    · exact .inl (hcleared ht)
  | _ => exact .inl ht

/-- The texts that wait are those of the open class, of parameters, of returns and of prose. -/
theorem mem_texts {t : Text} : t ∈ c.texts ↔
    t ∈ c.openClass ∨ (∃ note ∈ c.params, t ∈ note.texts) ∨ t ∈ c.returns ∨ t ∈ c.description := by
  simp [texts]

/-- The prose that waits is on one line when its lines are. -/
theorem isOneLine_prose (hc : ∀ t ∈ c.texts, isOneLine t = true) : ∀ text ∈ c.prose?, isOneLine text = true := by
  intro text htext
  rw [prose?] at htext
  split at htext
  · cases htext
  · obtain rfl := Option.some.inj htext
    exact isOneLine_join (by decide) fun line hline => hc line (mem_texts.mpr (.inr (.inr (.inr hline))))

/-- A function type is written on one line when the texts it is written from are on one line. -/
theorem isOneLine_functionType (hc : ∀ t ∈ c.texts, isOneLine t = true) {d : DeclaredFunction}
    (hd : ∀ t ∈ d.texts, isOneLine t = true) : isOneLine (c.functionType d) = true := by
  have hparam : ∀ name ∈ d.params, isOneLine (c.writeParam name) = true := by
    intro name hname
    have hname : isOneLine name = true := hd name (List.mem_cons_of_mem _ (List.mem_cons_of_mem _ hname))
    rw [writeParam]
    split
    · exact isOneLine_append_of hname (by decide)
    · rename_i note hnote
      have htype : isOneLine note.type = true :=
        hc _ (mem_texts.mpr (.inr (.inl ⟨note, List.mem_of_find?_eq_some hnote, by simp [ParamNote.texts]⟩)))
      simp only [isOneLine_append, hname, htype]
      split <;> decide
  have hparams : ∀ part ∈ c.writeParams d, isOneLine part = true := by
    intro part hpart
    rw [writeParams] at hpart
    split at hpart
    · obtain rfl | hpart := List.mem_cons.mp hpart
      · exact isOneLine_append_of (by decide) (hd d.className List.mem_cons_self)
      · obtain ⟨name, hname, rfl⟩ := List.mem_map.mp hpart
        exact hparam name (List.mem_of_mem_filter hname)
    · obtain ⟨name, hname, rfl⟩ := List.mem_map.mp hpart
      exact hparam name hname
  unfold functionType
  refine isOneLine_append_of (isOneLine_append_of (isOneLine_append_of (by decide) ?_) (by decide)) ?_
  · exact isOneLine_join (by decide) hparams
  · split
    · decide
    · decide
    · rename_i type _ hreturns
      exact hc type (mem_texts.mpr (.inr (.inr (.inl hreturns))))

/-- An entry has its texts on one line when what waits and its directive have theirs so. -/
theorem isOneLine_of_mem_entry (hc : ∀ t ∈ c.texts, isOneLine t = true) (hd : ∀ t ∈ d.texts, isOneLine t = true)
    {e : Entry} (he : c.entry? d = some e) : ∀ t ∈ e.texts, isOneLine t = true := by
  have hopen : ∀ className ∈ c.openClass, isOneLine className = true := fun className h => hc _ (mem_texts.mpr (.inl h))
  have hprose := isOneLine_prose hc
  cases d with
  | classStart name =>
    obtain rfl := Option.some.inj he
    exact hd
  | «alias» | exportHint =>
    obtain rfl := Option.some.inj he
    exact fun t ht => absurd ht List.not_mem_nil
  | indexField key value =>
    obtain ⟨className, hclass, rfl⟩ := Option.map_eq_some_iff.mp he
    exact List.forall_mem_cons.mpr ⟨hopen className hclass, hd⟩
  | field note =>
    obtain ⟨className, hclass, rfl⟩ := Option.map_eq_some_iff.mp he
    obtain ⟨hname, htype, hdescription⟩ : isOneLine note.name = true ∧ isOneLine note.type = true ∧
        ∀ text ∈ note.description, isOneLine text = true := by
      simpa [Directive.texts, FieldNote.texts] using hd
    have hclass := hopen className hclass
    rw [fieldEntry]
    split
    · exact List.forall_mem_cons.mpr ⟨hclass, Method.forall_mem_texts.mpr ⟨hname, htype, hprose⟩⟩
    · refine List.forall_mem_cons.mpr ⟨hclass, DataField.forall_mem_texts.mpr ⟨hname, htype, fun text htext => ?_⟩⟩
      obtain htext | ⟨-, htext⟩ := (Option.orElse_eq_some _ _ _).mp htext
      · exact hprose text htext
      · exact hdescription text htext
  | function f =>
    obtain rfl := Option.some.inj he
    have hclass : isOneLine f.className = true := hd _ List.mem_cons_self
    have hmethod : isOneLine f.method = true := hd _ (List.mem_cons_of_mem _ List.mem_cons_self)
    have htype : isOneLine (c.functionType f) = true := isOneLine_functionType hc hd
    exact List.forall_mem_cons.mpr ⟨hclass, Method.forall_mem_texts.mpr ⟨hmethod, htype, hprose⟩⟩
  | nested outer inner =>
    obtain ⟨className, hclass, rfl⟩ := Option.map_eq_some_iff.mp he
    obtain ⟨houter, hinner⟩ : isOneLine outer = true ∧ isOneLine inner = true := by simpa [Directive.texts] using hd
    refine List.forall_mem_cons.mpr ⟨houter, DataField.forall_mem_texts.mpr ⟨hinner, hopen className hclass, ?_⟩⟩
    exact fun _ htext => by cases htext
  | param | returns | description | otherCode | silent => cases he

end Context

namespace Progress

variable {p : Progress} {d : Directive}

/-- Progress in which no text has a line end: none that waits, and none in the classes of the model. -/
structure IsUnbroken (p : Progress) : Prop where
  /-- What waits is on one line each. -/
  context : ∀ t ∈ p.context.texts, isOneLine t = true
  /-- What the classes hold is on one line each. -/
  model : ∀ t ∈ p.model.texts, isOneLine t = true

/-- A directive whose texts are on one line brings no line end in. -/
theorem IsUnbroken.step (h : p.IsUnbroken) (hd : ∀ t ∈ d.texts, isOneLine t = true) : (p.step d).IsUnbroken where
  context t ht := (List.mem_append.mp (p.context.texts_next d ht)).elim (h.context t) (hd t)
  model := by
    rw [Progress.step]
    dsimp only
    split
    · exact h.model
    · rename_i e he
      intro t ht
      exact (List.mem_append.mp (p.model.texts_add e ht)).elim (h.model t)
        (Context.isOneLine_of_mem_entry h.context hd he t)

/-- Lines bring no line end in. -/
theorem IsUnbroken.readLines (h : p.IsUnbroken) {lines : List Text} (hlines : ∀ line ∈ lines, isOneLine line = true) :
    (p.readLines lines).IsUnbroken := by
  induction lines generalizing p with
  | nil => exact h
  | cons line lines ih =>
    obtain ⟨hline, hrest⟩ := List.forall_mem_cons.mp hlines
    exact ih (h.step (Directive.isOneLine_of_mem_texts hline)) hrest

/-- Reading starts without any text. -/
theorem isUnbroken_start : start.IsUnbroken :=
  ⟨fun _ ht => absurd ht List.not_mem_nil, fun _ ht => absurd ht List.not_mem_nil⟩

end Progress

/-! ## Descriptions without words -/

/-- The description that a line gives is not empty. -/
theorem Directive.description_ne_nil (line : Text) : ∀ text ∈ (ofLine line).description?, text ≠ [] :=
  fun _ htext => (isPartOf_of_description? htext).filled.ne_nil

/-- Reading lines brings no description without words into a model. -/
theorem Progress.describedBy_readLines {p : Progress} (h : p.model.DescribedBy (· ≠ [])) (lines : List Text) :
    (p.readLines lines).model.DescribedBy (· ≠ []) := by
  induction lines generalizing p with
  | nil => exact h
  | cons line lines ih =>
    refine ih (p := p.step (.ofLine line)) ?_
    rw [step]
    dsimp only
    split
    · exact h
    · rename_i e he
      refine h.add fun text htext => ?_
      obtain hprose | hline := Context.description_of_entry he text htext
      · rw [Context.prose?] at hprose
        split at hprose
        · cases hprose
        · rename_i hne
          exact fun hnil => hne (Option.some.inj hprose ▸ hnil)
      · exact Directive.description_ne_nil line text hline

end Source

/-- No text in the classes of a source has a line end. -/
theorem Model.isOneLine_of_mem_texts (source : Text) : ∀ t ∈ (ofSource source).texts, isOneLine t = true :=
  (Source.Progress.isUnbroken_start.readLines fun _ => isOneLine_of_mem_splitLines).model

/-- No description in the classes of a source is without words. -/
theorem Model.describedBy_ne_nil (source : Text) : (ofSource source).DescribedBy (· ≠ []) :=
  Source.Progress.describedBy_readLines (fun _ hc => absurd hc List.not_mem_nil) (splitLines source)

end LuaTypings
