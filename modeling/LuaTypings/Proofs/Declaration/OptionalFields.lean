import LuaTypings.Declaration.File
import LuaTypings.Proofs.Declaration.BlockLines
import LuaTypings.Proofs.Model.Members
import LuaTypings.Proofs.Model.Growth
import LuaTypings.Proofs.Source.LineText
import LuaTypings.Proofs.Source.Waiting

/-!
# Optional fields

The line `---@field name? Type` marks a member that may be left out. What becomes of the mark depends on what the
member is and on how its class is declared. An interface declares a field with its mark; an enumeration lists bare
names; and a function type makes the member a method, which is declared by its parameters and its returns
(`declares_optionalField`). The declaration stands through all lines that follow, unless one of them gives the class a
method of that name: what a name stands for is kept by every entry that is no method of that name
(`ClassModel.Keeps.change`).
-/

namespace LuaTypings

open Text (isWord isLastPart)

/-! ## The line -/

namespace Source

variable {name type : Text}

/-- What a text starts with does not change when the text goes on. -/
theorem startsWith_of_isPrefix {mark s t : Text} (hst : s <+: t) (h : Text.startsWith mark s = true) :
    Text.startsWith mark t = true :=
  List.isPrefixOf_iff_prefix.mpr ((List.isPrefixOf_iff_prefix.mp h).trans hst)

/-- A text is marked as a function type when its start is. -/
theorem isFunctionText_of_isPrefix {s t : Text} (hst : s <+: t) (h : TypeText.isFunctionText s = true) :
    TypeText.isFunctionText t = true := by
  rw [TypeText.isFunctionText, Bool.or_eq_true] at h ⊢
  exact h.imp (startsWith_of_isPrefix hst) (startsWith_of_isPrefix hst)

/-- Prose behind a type does not change whether a field is a method. -/
theorem FieldNote.isMethod_ofParts (optional : Bool) (htype : isLastPart type = true) :
    (FieldNote.ofParts name optional type).isMethod = TypeText.isFunctionText type := by
  rw [FieldNote.isMethod, FieldNote.ofParts]
  by_cases hfunction : TypeText.isFunctionText type = true
  · rw [if_pos hfunction]
  · rw [if_neg hfunction]
    cases hcut : Text.cutCapitalised? type with
    | none => rfl
    | some parts =>
      obtain ⟨head, rest⟩ := parts
      have hhead : head <+: type := ⟨rest, TypeText.append_of_cutCapitalised? hcut⟩
      have hstart : ∀ c ∈ head.head?, Text.isBlank c = false := by
        intro c hc
        obtain ⟨tail, rfl⟩ := hhead
        refine Text.head?_of_isLastPart htype c ?_
        rw [List.head?_append, hc]
        rfl
      rw [Bool.not_eq_true] at hfunction
      rw [hfunction, Bool.eq_false_iff]
      intro h
      rw [isFunctionText_of_isPrefix ((Text.isPrefix_strip hstart).trans hhead) h] at hfunction
      cases hfunction

/-- A field note keeps the name and the mark. -/
theorem FieldNote.ofParts_name (optional : Bool) :
    (ofParts name optional type).name = name ∧ (ofParts name optional type).optional = optional := by
  rw [ofParts]
  split
  · exact ⟨rfl, rfl⟩
  · split <;> exact ⟨rfl, rfl⟩

end Source

/-! ## What entries keep -/

namespace ClassModel

/-- What one class has under a name, another has too. -/
structure Keeps (name : Text) (c d : ClassModel) : Prop where
  methods : ∀ m ∈ c.methods, m.name = name → m ∈ d.methods
  dataFields : ∀ f ∈ c.dataFields, f.name = name → f ∈ d.dataFields

/-- A method stays when one of another name is inserted. -/
theorem mem_insertMethod_of_ne {k m : Method} {methods : List Method} (hk : k ∈ methods) (hne : m.name ≠ k.name) :
    k ∈ insertMethod m methods := by
  induction methods with
  | nil => exact absurd hk List.not_mem_nil
  | cons first rest ih =>
    rw [insertMethod]
    obtain rfl | hk := List.mem_cons.mp hk
    · rw [if_neg (Ne.symm hne)]
      exact List.mem_cons_self
    · split
      · exact List.mem_cons_of_mem _ hk
      · exact List.mem_cons_of_mem _ (ih hk)

/-- An entry that defines no method of a name keeps what the class has under it. -/
theorem Keeps.change {name : Text} {e : Entry} (he : ∀ m ∈ e.method?, m.name ≠ name) (c : ClassModel) :
    c.Keeps name (e.change c) := by
  cases e with
  | method className m =>
    have hm : m.name ≠ name := he m rfl
    refine ⟨fun k hk hname => mem_insertMethod_of_ne hk (hname ▸ hm), fun f hf hname => ?_⟩
    exact List.mem_filter.mpr ⟨hf, decide_eq_true (hname ▸ hm.symm)⟩
  | dataField className f =>
    rw [Entry.change, putDataField]
    split
    · exact ⟨fun _ hm _ => hm, fun _ hf _ => hf⟩
    · exact ⟨fun _ hm _ => hm, fun _ hf _ => List.mem_append_left _ hf⟩
  | _ => exact ⟨fun _ hm _ => hm, fun _ hf _ => hf⟩

/-- Entries that define no method of a name keep what the class has under it. -/
theorem Keeps.changeAll {name : Text} {entries : List Entry} (he : ∀ e ∈ entries, ∀ m ∈ e.method?, m.name ≠ name)
    (c : ClassModel) : c.Keeps name (Model.changeAll entries c) := by
  induction entries generalizing c with
  | nil => exact ⟨fun _ hm _ => hm, fun _ hf _ => hf⟩
  | cons e entries ih =>
    obtain ⟨hfirst, hrest⟩ := List.forall_mem_cons.mp he
    have hone := Keeps.change hfirst c
    have hall := ih hrest (e.change c)
    exact ⟨fun m hm hname => hall.methods m (hone.methods m hm hname) hname,
      fun f hf hname => hall.dataFields f (hone.dataFields f hf hname) hname⟩

/-- Whether a class has the member that a field note describes. -/
def HasField (c : ClassModel) (note : Source.FieldNote) : Prop :=
  if note.isMethod then ∃ m ∈ c.methods, m.name = note.name ∧ m.type = note.type
  else ∃ f ∈ c.dataFields, f.name = note.name ∧ f.type = note.type ∧ f.optional = note.optional

/-- The member of a field note is kept with all that the class has under its name. -/
theorem HasField.of_keeps {c d : ClassModel} {note : Source.FieldNote} (h : c.HasField note)
    (hd : c.Keeps note.name d) : d.HasField note := by
  rw [HasField] at h ⊢
  split
  · rename_i hmethod
    rw [if_pos hmethod] at h
    obtain ⟨m, hm, hname, htype⟩ := h
    exact ⟨m, hd.methods m hm hname, hname, htype⟩
  · rename_i hdata
    rw [if_neg hdata] at h
    obtain ⟨f, hf, hname, hparts⟩ := h
    exact ⟨f, hd.dataFields f hf hname, hname, hparts⟩

end ClassModel

/-- A class of a model goes through the entries about it when entries are added. -/
theorem Model.class?_foldl_add {m : Model} {name : Text} {c : ClassModel} (hc : m.class? name = some c)
    (entries : List Entry) :
    (entries.foldl add m).class? name = some (changeAll (entriesOf name entries) c) := by
  induction entries generalizing m c with
  | nil => exact hc
  | cons e entries ih =>
    have hadd := class?_add m e name
    rw [List.foldl_cons, entriesOf]
    by_cases habout : e.className? = some name
    · rw [if_pos habout, hc, Option.getD_some] at hadd
      rw [List.filter_cons_of_pos (by simpa using habout), ih hadd]
      rfl
    · rw [if_neg habout, hc] at hadd
      rw [List.filter_cons_of_neg (by simpa using habout), ih hadd]
      rfl

namespace Source.Progress

variable {p : Progress} {className : Text} {note : FieldNote}

/-- A field of a new name becomes a member of the class that is open. -/
theorem hasField_step (hopen : p.context.openClass = some className)
    (hnew : ∀ c, p.model.class? className = some c → c.hasMember note.name = false) :
    ∃ c, (p.step (.field note)).model.class? className = some c ∧ c.HasField note := by
  have hentry : p.context.entry? (.field note) = some (p.context.fieldEntry className note) := by
    rw [Context.entry?, hopen, Option.map_some]
  have habout : (p.context.fieldEntry className note).className? = some className := by
    rw [Context.fieldEntry]
    split <;> rfl
  have hmember : ((p.model.class? className).getD (.empty className)).hasMember note.name = false := by
    cases hc : p.model.class? className with
    | none => rfl
    | some c => exact hnew c hc
  generalize hc : (p.model.class? className).getD (.empty className) = c at hmember
  refine ⟨(p.context.fieldEntry className note).change c, ?_, ?_⟩
  · rw [step, hentry]
    show (p.model.add (p.context.fieldEntry className note)).class? className = _
    rw [Model.class?_add, if_pos habout, hc]
  · have hfree : note.name ∉ c.memberNames := ClassModel.hasMember_eq_false_iff.mp hmember
    rw [Context.fieldEntry, ClassModel.HasField]
    split
    · rw [Entry.change, ClassModel.putMethod_of_new hfree]
      exact ⟨_, List.mem_append_right _ List.mem_cons_self, rfl, rfl⟩
    · rw [Entry.change, ClassModel.putDataField_of_new hfree]
      exact ⟨_, List.mem_append_right _ List.mem_cons_self, rfl, rfl, rfl⟩

/-- A field of a new name is a member of its class through all lines that define no method of its name. -/
theorem hasField_readLines (hopen : p.context.openClass = some className)
    (hnew : ∀ c, p.model.class? className = some c → c.hasMember note.name = false) {line : Text} {more : List Text}
    (hline : Directive.ofLine line = .field note)
    (hmore : ∀ m, Entry.method className m ∈ (p.step (.ofLine line)).entries more → m.name ≠ note.name) :
    ∃ c, (p.readLines (line :: more)).model.class? className = some c ∧ c.HasField note := by
  obtain ⟨c, hc, hfield⟩ := hasField_step hopen hnew
  rw [hline] at hmore
  rw [readLines_cons, hline, model_readLines]
  refine ⟨_, Model.class?_foldl_add hc _, hfield.of_keeps (ClassModel.Keeps.changeAll (fun e he m hm => ?_) c)⟩
  obtain ⟨hread, habout⟩ := List.mem_filter.mp he
  -- Only an entry about the class that defines a method could take the name.
  cases e with
  | method other k =>
    obtain rfl : k = m := Option.some.inj hm
    obtain rfl : other = className := by simpa [Entry.className?] using habout
    exact hmore k hread
  | _ => cases hm

end Source.Progress

namespace Declaration

open TypeText (isFunctionText)

/-! ## The block of a class -/

/-- The lines of the block that declares a class. -/
def blockLines (enumerationNames : List Text) (c : ClassModel) : List Text :=
  if isEnumeration c then enumLines c else interfaceLines enumerationNames c

variable {c : ClassModel}

/-- A class that is kept has its block in the file. -/
theorem join_blockLines_mem_blocks {m : Model} {spec : ModuleSpec} (hc : c ∈ keptClasses m.classes spec.classFilter) :
    Text.join "\n" (blockLines (File.ofModel m spec).enumerationNames c) ∈ (File.ofModel m spec).blocks := by
  rw [File.blocks, blockLines]
  by_cases henum : isEnumeration c = true
  · rw [if_pos henum]
    exact List.mem_append_left _ (List.mem_map.mpr ⟨c, List.mem_filter.mpr ⟨hc, henum⟩, rfl⟩)
  · rw [if_neg henum]
    exact List.mem_append_right _ (List.mem_map.mpr ⟨c, List.mem_filter.mpr ⟨hc, by simpa using henum⟩, rfl⟩)

/-- The classes that are kept are those that pass the filter, if there is one. -/
theorem mem_keptClasses_iff {classes : List ClassModel} {patterns : List Text} :
    c ∈ keptClasses classes patterns ↔ c ∈ classes ∧ (patterns = [] ∨ passesFilter c.name patterns = true) := by
  rw [keptClasses]
  split
  · rename_i hempty
    simp [List.isEmpty_iff.mp hempty]
  · rename_i hne
    have hfilter : patterns ≠ [] := fun h => hne (List.isEmpty_iff.mpr h)
    simp [hfilter]

/-- A class is kept when there is no filter or it passes the one there is. -/
theorem mem_keptClasses {classes : List ClassModel} {patterns : List Text} (hc : c ∈ classes)
    (h : patterns = [] ∨ passesFilter c.name patterns = true) : c ∈ keptClasses classes patterns :=
  mem_keptClasses_iff.mpr ⟨hc, h⟩

/-- A data field has a line in the block of its class. -/
theorem mem_blockLines_of_dataField {f : DataField} (hf : f ∈ c.dataFields) (names : List Text) :
    (if isEnumeration c then enumMemberLine f else dataFieldLine names f) ∈ blockLines names c := by
  rw [blockLines]
  split
  · have hmem : enumMemberLine f ∈ c.dataFields.map enumMemberLine := List.mem_map_of_mem hf
    exact ((sublist_memberLines c.dataFields).trans (sublist_braced _ _)).subset hmem
  · have hmem : dataFieldLine names f ∈ c.dataFields.map (dataFieldLine names) := List.mem_map_of_mem hf
    exact (sublist_interfaceLines names c).subset (List.mem_append_left _ (List.mem_append_right _ hmem))

/-- A method has a line in the block of its class, which is no enumeration. -/
theorem mem_blockLines_of_method {m : Method} (hm : m ∈ c.methods) (names : List Text) :
    methodLine m ∈ blockLines names c := by
  have hmethods : c.methods.isEmpty = false := by
    rw [List.isEmpty_eq_false_iff]
    exact List.ne_nil_of_mem hm
  have henum : isEnumeration c = false := by simp [isEnumeration, hmethods]
  have hmem : methodLine m ∈ c.methods.map methodLine := List.mem_map_of_mem hm
  rw [blockLines, henum]
  exact (sublist_interfaceLines names c).subset (List.mem_append_right _ hmem)

/-- The line that declares the member of a field note in the block of a class. -/
def fieldLine (enumerationNames : List Text) (c : ClassModel) (note : Source.FieldNote) : Text :=
  if note.isMethod then "  " ++ (TypeText.Callable.ofText note.type).memberText note.name ++ ";"
  else if isEnumeration c then "  " ++ note.name ++ ","
  else "  " ++ note.name ++ Source.optionalMark note.optional ++ ": " ++ dataFieldType enumerationNames note.type ++ ";"

/-- The member of a field note is declared in the block of its class. -/
theorem fieldLine_mem_blockLines {note : Source.FieldNote} (h : c.HasField note) (names : List Text) :
    fieldLine names c note ∈ blockLines names c := by
  obtain ⟨name, type, optional, description⟩ := note
  rw [ClassModel.HasField] at h
  rw [fieldLine]
  split
  · rename_i hmethod
    rw [if_pos hmethod] at h
    obtain ⟨m, hm, rfl, rfl⟩ := h
    exact mem_blockLines_of_method hm names
  · rename_i hdata
    rw [if_neg hdata] at h
    obtain ⟨f, hf, rfl, rfl, rfl⟩ := h
    exact mem_blockLines_of_dataField hf names

/-- **Optional fields are declared.** The line of an optional field of a new name, read where a class is open, gives
the class a member that its block declares in every file that keeps the class, as long as no line behind it defines a
method of that name. The mark stands behind the name of a field of an interface. A member of an enumeration is its
name alone, and a function type makes a method, which is declared with its parameters and returns. -/
theorem declares_optionalField {p : Source.Progress} {className name type line : Text} {more : List Text}
    (hopen : p.context.openClass = some className)
    (hnew : ∀ c, p.model.class? className = some c → c.hasMember name = false) (hname : isWord name = true)
    (htype : isLastPart type = true) (hline : Text.strip line = "---@field " ++ name ++ "? " ++ type)
    (hmore : ∀ m, Entry.method className m ∈ (p.step (.ofLine line)).entries more → m.name ≠ name) :
    ∃ c, (p.readLines (line :: more)).model.class? className = some c ∧
      ∀ spec : ModuleSpec, spec.classFilter = [] ∨ passesFilter className spec.classFilter = true →
        let file := File.ofModel (p.readLines (line :: more)).model spec
        Text.join "\n" (blockLines file.enumerationNames c) ∈ file.blocks ∧
          (if isFunctionText type then "  " ++ (TypeText.Callable.ofText type).memberText name ++ ";"
            else if isEnumeration c then "  " ++ name ++ ","
            else "  " ++ name ++ "?: " ++
              dataFieldType file.enumerationNames (Source.FieldNote.ofParts name true type).type ++ ";") ∈
            blockLines file.enumerationNames c := by
  have hread : Source.Directive.ofLine line = .field (.ofParts name true type) := by
    rw [← Source.ofLine_strip, hline, Source.ofLine_optionalField hname htype]
  obtain ⟨hnoteName, hnoteMark⟩ : (Source.FieldNote.ofParts name true type).name = name ∧
      (Source.FieldNote.ofParts name true type).optional = true := Source.FieldNote.ofParts_name true
  have hmethod : (Source.FieldNote.ofParts name true type).isMethod = isFunctionText type :=
    Source.FieldNote.isMethod_ofParts true htype
  obtain ⟨c, hc, hfield⟩ :=
    Source.Progress.hasField_readLines hopen (by rwa [hnoteName]) hread (by rwa [hnoteName])
  refine ⟨c, hc, fun spec hspec => ⟨join_blockLines_mem_blocks (mem_keptClasses (List.mem_of_find?_eq_some hc) ?_), ?_⟩⟩
  · have hcName : c.name = className := by simpa using List.find?_some hc
    rwa [hcName]
  · have hmem := fieldLine_mem_blockLines hfield (File.ofModel (p.readLines (line :: more)).model spec).enumerationNames
    by_cases hfunction : isFunctionText type = true
    · rw [hfunction] at hmethod
      have htext : (Source.FieldNote.ofParts name true type).type = type := by
        rw [Source.FieldNote.ofParts_of_not_prose true (.inl hfunction)]
      rw [fieldLine, if_pos hmethod, hnoteName, htext] at hmem
      rwa [if_pos hfunction]
    · rw [Bool.not_eq_true] at hfunction
      rw [hfunction] at hmethod
      rw [fieldLine, hmethod, hnoteName, hnoteMark] at hmem
      rw [hfunction]
      simpa [Source.optionalMark] using hmem

/-- An optional field of the name of a scope holds an enumeration, and other members and classes follow it. -/
theorem declares_optionalField_of_enumeration :
    let line : Text := "  ---@field public? Kind The kind of owner "
    let more : List Text := ["---@field public string", "function Owner:greet() end", "---@class Other"]
    let p := Source.Progress.start.readLines ["---@class Kind", "---@field plain number", "---@class Owner"]
    let file := File.ofModel (p.readLines (line :: more)).model ⟨"owner", "owner.lua", none, ["O*", "Kind"], false⟩
    p.context.openClass = some "Owner".toList ∧ (∀ c ∈ p.model.class? "Owner", c.hasMember "public" = false) ∧
      isWord "public" = true ∧ isLastPart "Kind The kind of owner" = true ∧
      Text.strip line = "---@field public? Kind The kind of owner".toList ∧
      (∀ m, Entry.method "Owner" m ∈ (p.step (.ofLine line)).entries more → m.name ≠ "public".toList) ∧
      ∃ c, (p.readLines (line :: more)).model.class? "Owner" = some c ∧
        "  public?: typeof Kind;".toList ∈ blockLines file.enumerationNames c := by
  intro line more p file
  have hopen : p.context.openClass = some "Owner".toList := by decide +kernel
  have hnew : ∀ c ∈ p.model.class? "Owner", c.hasMember "public" = false := by decide +kernel
  have hword : isWord "public" = true := by decide
  have htype : isLastPart "Kind The kind of owner" = true := by decide
  have hline : Text.strip line = "---@field public? Kind The kind of owner".toList := by decide
  have hmore : ∀ m, Entry.method "Owner" m ∈ (p.step (.ofLine line)).entries more → m.name ≠ "public".toList := by
    have hentries : (p.step (.ofLine line)).entries more =
        [.dataField "Owner" ⟨"public", "string", none, false⟩,
          .method "Owner" ⟨"greet", "fun(self: Owner): nil", none⟩, .classStart "Other"] := by decide +kernel
    rw [hentries]
    simp
  refine ⟨hopen, hnew, hword, htype, hline, hmore, ?_⟩
  obtain ⟨c, hc, hblock⟩ := declares_optionalField hopen hnew hword htype hline hmore
  have hclass : (p.readLines (line :: more)).model.class? "Owner" =
      some ⟨"Owner", [⟨"greet", "fun(self: Owner): nil", none⟩],
        [⟨"public", "Kind", some "The kind of owner", true⟩], []⟩ := by decide +kernel
  obtain rfl := Option.some.inj (hc.symm.trans hclass)
  have hdeclared := (hblock ⟨"owner", "owner.lua", none, ["O*", "Kind"], false⟩ (.inr (by decide))).2
  have hfield : dataFieldType file.enumerationNames
      (Source.FieldNote.ofParts "public" true "Kind The kind of owner").type = "typeof Kind".toList := by decide +kernel
  rw [if_neg (by decide), if_neg (by decide), hfield] at hdeclared
  exact ⟨_, hc, hdeclared⟩

/-- Neither a method nor the member of an enumeration is declared with the mark of its line. -/
theorem optionalField_unmarked :
    let p := Source.Progress.start.readLines ["---@class C"]
    p.context.openClass = some "C".toList ∧ (∀ c ∈ p.model.class? "C", c.hasMember "m" = false) ∧
      ∀ type ∈ ["fun()".toList, "number".toList],
        ∃ c ∈ (p.step (.ofLine ("---@field m? " ++ type))).model.class? "C",
          c.hasMember "m" = true ∧ ∀ line ∈ blockLines [] c, '?' ∉ line := by
  decide +kernel

end Declaration

end LuaTypings
