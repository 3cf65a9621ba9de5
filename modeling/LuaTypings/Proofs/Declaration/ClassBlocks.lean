import Mathlib.Data.List.Perm.Basic
import LuaTypings.Proofs.Declaration.BlockLines
import LuaTypings.Proofs.Declaration.OptionalFields
import LuaTypings.Proofs.Model.Mentions

/-!
# One block for each class

A file declares the classes that pass its filter, the enumerations first. What is an enumeration is told by the class alone
(`HoldsNumbers`), so before and behind the filter it is the same classes, and each of them is in exactly one of the two
groups (`perm_enums_interfaces`). A field refers to an enumeration of the file, and an export that the source names to a
class of the file, whatever the source has beside them (`blocks_ofSource`).
-/

namespace LuaTypings

open Source (Directive Progress)

/-! ## The class that a source exports -/

/-- The class that a directive names for the export. -/
def Source.Directive.exportHint? : Directive → Option Text
  | .exportHint name => some name
  | _ => none

namespace Model

/-- A directive changes the export of a model only when it names one. -/
theorem mainExport_step (p : Progress) (d : Directive) :
    (p.step d).model.mainExport = d.exportHint?.or p.model.mainExport := by
  rw [Progress.step]
  cases d with
  | field note =>
    unfold Source.Context.entry?
    cases p.context.openClass with
    | none => rfl
    | some className =>
      dsimp only [Option.map_some]
      rw [Source.Context.fieldEntry]
      split <;> rfl
  | indexField key value =>
    unfold Source.Context.entry?
    cases p.context.openClass <;> rfl
  | nested outer inner =>
    unfold Source.Context.entry?
    cases p.context.openClass <;> rfl
  | _ => rfl

/-- The export of the lines read so far is the last one that they name. -/
theorem mainExport_readLines (lines : List Text) :
    (Progress.start.readLines lines).model.mainExport =
      ((lines.map Directive.ofLine).filterMap Directive.exportHint?).getLast? := by
  induction lines using List.reverseRecOn with
  | nil => rfl
  | append_singleton lines line ih =>
    have hstep : Progress.start.readLines (lines ++ [line]) = (Progress.start.readLines lines).step (.ofLine line) :=
      Progress.readLines_append _ _ _
    rw [hstep, mainExport_step, ih, List.map_append, List.map_singleton, Source.getLast?_filterMap_concat]

end Model

namespace Declaration

/-! ## Filters and enumerations -/

/-- A filter keeps a name: there is no filter, or it lists the name, or it lists what the name starts with, and a star. -/
def IsKept (patterns : List Text) (name : Text) : Prop :=
  patterns = [] ∨ name ∈ patterns ∨ ∃ start : Text, start ++ "*".toList ∈ patterns ∧ start <+: name

/-- A class holds numbers and nothing else. -/
structure HoldsNumbers (c : ClassModel) : Prop where
  /-- It has a data field. -/
  dataFields_ne : c.dataFields ≠ []
  /-- All of its data fields are numbers. -/
  numbers : ∀ f ∈ c.dataFields, TypeText.declaredType f.type = "number"
  /-- It has no method. -/
  methods : c.methods = []
  /-- It has no index signature. -/
  indexSignatures : c.indexSignatures = []

variable {c : ClassModel} {classes : List ClassModel} {patterns : List Text} {name pattern : Text}

/-- A pattern is a name or the start of one. -/
theorem passesPattern_iff :
    passesPattern name pattern = true ↔ name = pattern ∨ ∃ start : Text, pattern = start ++ "*" ∧ start <+: name := by
  unfold passesPattern
  split
  · rename_i start hstart
    obtain rfl := Text.dropEnd?_eq_some_iff.mp hstart
    rw [Text.startsWith, List.isPrefixOf_iff_prefix]
    constructor
    · exact fun h => .inr ⟨start, rfl, h⟩
    · rintro (rfl | ⟨other, heq, h⟩)
      · exact List.prefix_append start _
      · rwa [List.append_cancel_right heq]
  · rename_i hnone
    rw [beq_iff_eq]
    refine ⟨.inl, fun h => h.resolve_right ?_⟩
    rintro ⟨start, rfl, -⟩
    cases hnone.symm.trans (Text.dropEnd?_append "*" start)

/-- The names that pass a filter are the ones that it keeps. -/
theorem isKept_iff : IsKept patterns name ↔ patterns = [] ∨ passesFilter name patterns = true := by
  rw [IsKept, passesFilter, List.any_eq_true]
  simp only [passesPattern_iff]
  refine or_congr_right ⟨?_, ?_⟩
  · rintro (h | ⟨start, h, hname⟩)
    · exact ⟨name, h, .inl rfl⟩
    · exact ⟨_, h, .inr ⟨start, rfl, hname⟩⟩
  · rintro ⟨pattern, h, rfl | ⟨start, rfl, hname⟩⟩
    · exact .inl h
    · exact .inr ⟨start, h, hname⟩

/-- A filter leaves classes in their order. -/
theorem sublist_keptClasses (classes : List ClassModel) (patterns : List Text) :
    (keptClasses classes patterns).Sublist classes := by
  rw [keptClasses]
  split
  · exact List.Sublist.refl _
  · exact List.filter_sublist

/-- Enumerations are the classes that hold numbers and nothing else. -/
theorem isEnumeration_iff : isEnumeration c = true ↔ HoldsNumbers c := by
  simp only [isEnumeration, Bool.and_eq_true, Bool.not_eq_true', List.isEmpty_eq_false_iff, List.isEmpty_iff,
    List.all_eq_true, beq_iff_eq]
  constructor
  · rintro ⟨⟨⟨hne, hmethods⟩, hsignatures⟩, hnumbers⟩
    exact ⟨hne, hnumbers, hmethods, hsignatures⟩
  · rintro ⟨hne, hnumbers, hmethods, hsignatures⟩
    exact ⟨⟨⟨hne, hmethods⟩, hsignatures⟩, hnumbers⟩

/-! ## The blocks of a file -/

/-- The type of a data field is that of the value behind the name of an enumeration, or else as it is declared. -/
theorem dataFieldType_eq (enums : List ClassModel) (type : Text) :
    dataFieldType (enums.map (·.name)) type =
      if ∃ e ∈ enums, e.name = TypeText.declaredType type then "typeof " ++ TypeText.declaredType type
      else TypeText.declaredType type := by
  have htype : dataFieldType (enums.map (·.name)) type =
      if (enums.map (·.name)).contains (TypeText.declaredType type) then "typeof " ++ TypeText.declaredType type
      else TypeText.declaredType type := rfl
  rw [htype]
  simp only [List.contains_iff_mem, List.mem_map]

/-- Blocks with a separator behind each are the joined blocks with a separator behind them. -/
theorem flatMap_append_separator (separator : Text) {parts : List Text} (hne : parts ≠ []) :
    parts.flatMap (· ++ separator) = Text.join separator parts ++ separator := by
  induction parts with
  | nil => exact absurd rfl hne
  | cons s parts ih =>
    cases parts with
    | nil => rw [List.flatMap_singleton, Text.join_singleton]
    | cons t parts => rw [List.flatMap_cons, ih (List.cons_ne_nil t parts), Text.join_cons_cons, ← List.append_assoc]

/-- Joined blocks end like the blocks when these end alike. -/
theorem getLast?_join (separator : Text) {parts : List Text} {last : Char} (hne : parts ≠ [])
    (h : ∀ part ∈ parts, part.getLast? = some last) : (Text.join separator parts).getLast? = some last := by
  induction parts with
  | nil => exact absurd rfl hne
  | cons s parts ih =>
    obtain ⟨hs, hparts⟩ := List.forall_mem_cons.mp h
    cases parts with
    | nil => rwa [Text.join_singleton]
    | cons t parts => rw [Text.join_cons_cons, List.getLast?_append, ih (List.cons_ne_nil t parts) hparts, Option.some_or]

/-- A block ends in its closing bracket. -/
theorem getLast?_join_braced (heading : Text) (body : List Text) :
    (Text.join "\n" (braced heading body)).getLast? = some '\x7d' := by
  rw [join_braced, List.getLast?_append]
  rfl

/-- The first line of a block is its heading, when its lines are filled. -/
theorem head?_splitLines_braced {heading : Text} {body : List Text}
    (h : ∀ line ∈ braced heading body, IsFilledLine line) :
    (Text.splitLines (Text.join "\n" (braced heading body))).head? = some (heading ++ " \x7b") := by
  rw [splitLines_join_of_isFilledLine h]
  rfl

namespace File

variable {m : Model} {spec : ModuleSpec} {f : File}

/-- The enumerations and the interfaces of a file are the classes behind its filter. -/
theorem perm_enums_interfaces (m : Model) (spec : ModuleSpec) :
    ((ofModel m spec).enums ++ (ofModel m spec).interfaces).Perm (keptClasses m.classes spec.classFilter) :=
  List.filter_append_perm _ _

/-- The enumerations of a file are the classes that its filter keeps and that hold numbers. -/
theorem mem_enums_iff :
    c ∈ (ofModel m spec).enums ↔ c ∈ m.classes ∧ IsKept spec.classFilter c.name ∧ HoldsNumbers c := by
  have henums : (ofModel m spec).enums = (keptClasses m.classes spec.classFilter).filter isEnumeration := rfl
  rw [henums, List.mem_filter, mem_keptClasses_iff, ← isKept_iff, isEnumeration_iff, and_assoc]

/-- The interfaces of a file are the other classes that its filter keeps. -/
theorem mem_interfaces_iff :
    c ∈ (ofModel m spec).interfaces ↔ c ∈ m.classes ∧ IsKept spec.classFilter c.name ∧ ¬ HoldsNumbers c := by
  have hinterfaces : (ofModel m spec).interfaces =
      (keptClasses m.classes spec.classFilter).filter (!isEnumeration ·) := rfl
  rw [hinterfaces, List.mem_filter, mem_keptClasses_iff, ← isKept_iff, ← isEnumeration_iff, Bool.not_eq_true',
    Bool.not_eq_true, and_assoc]

/-- The classes that a file declares have different names when those of the model have. -/
theorem nodup_names_ofModel (h : m.classNames.Nodup) :
    (((ofModel m spec).enums ++ (ofModel m spec).interfaces).map (·.name)).Nodup := by
  rw [((perm_enums_interfaces m spec).map _).nodup_iff]
  exact h.sublist ((sublist_keptClasses m.classes spec.classFilter).map _)

/-- The enumerations of a file stand in the order of the model, and so do the interfaces. -/
theorem sublist_names_ofModel (m : Model) (spec : ModuleSpec) :
    ((ofModel m spec).enums.map (·.name)).Sublist m.classNames ∧
      ((ofModel m spec).interfaces.map (·.name)).Sublist m.classNames := by
  have hkept := sublist_keptClasses m.classes spec.classFilter
  exact ⟨(List.filter_sublist.trans hkept).map _, (List.filter_sublist.trans hkept).map _⟩

/-- Every block starts with the heading of its class, when the texts of the classes are on one line. -/
theorem head?_splitLines_blocks (h : ∀ c ∈ f.enums ++ f.interfaces, ∀ t ∈ c.texts, Text.isOneLine t = true) :
    f.blocks.map (fun block => (Text.splitLines block).head?) =
      (f.enums.map fun c => some ("declare enum " ++ c.name ++ " \x7b" : Text)) ++
        f.interfaces.map fun c => some ("interface " ++ c.name ++ " \x7b" : Text) := by
  obtain ⟨henums, hinterfaces⟩ := List.forall_mem_append.mp h
  rw [blocks, List.map_append, List.map_map, List.map_map]
  congr 1
  · exact List.map_congr_left fun c hc => head?_splitLines_braced (isFilledLine_of_mem_enumLines (henums c hc))
  · exact List.map_congr_left fun c hc => head?_splitLines_braced (isFilledLine_of_mem_interfaceLines (hinterfaces c hc) _)

/-- Every block ends in a closing bracket. -/
theorem getLast?_of_mem_blocks {block : Text} (h : block ∈ f.blocks) : block.getLast? = some '\x7d' := by
  obtain h | h := List.mem_append.mp h
  · obtain ⟨c, -, rfl⟩ := List.mem_map.mp h
    exact getLast?_join_braced _ _
  · obtain ⟨c, -, rfl⟩ := List.mem_map.mp h
    exact getLast?_join_braced _ _

/-- The text of a file has its blocks one after another, with a blank line between neighbours. -/
theorem isInfix_blocks_render (f : File) : Text.join "\n\n" f.blocks <:+: f.render := by
  by_cases hne : f.blocks = []
  · rw [hne]
    exact List.nil_infix
  · -- The blanks at the end of the file stand behind the bracket of the last block.
    obtain ⟨front, hfront⟩ := List.getLast?_eq_some_iff.mp
      (getLast?_join "\n\n" hne fun block hblock => getLast?_of_mem_blocks hblock)
    have hparts : f.header ++ f.aliasPart ++ f.blockPart ++ f.exportPart =
        (f.header ++ f.aliasPart ++ front) ++ '\x7d' :: ("\n\n" ++ f.exportPart) := by
      rw [blockPart, flatMap_append_separator _ hne, hfront]
      simp
    rw [render, hparts, Text.stripEnd_append_cons (by decide), hfront]
    exact ⟨f.header ++ f.aliasPart, _, by simp only [List.append_assoc, List.singleton_append]; rfl⟩

/-- The line of a data field, where a field refers to an enumeration of the file by the value behind its name. -/
theorem dataFieldLine_eq (f : File) (field : DataField) :
    dataFieldLine f.enumerationNames field =
      "  " ++ field.name ++ (if field.optional then ['?'] else []) ++ ": " ++
        (if ∃ e ∈ f.enums, e.name = TypeText.declaredType field.type then "typeof " ++ TypeText.declaredType field.type
          else TypeText.declaredType field.type) ++ ";" := by
  rw [dataFieldLine, enumerationNames, dataFieldType_eq]

/-- Among the lines of an interface each data field has one, in their order. -/
theorem sublist_dataFieldLines (names : List Text) (c : ClassModel) :
    (c.dataFields.map (dataFieldLine names)).Sublist (interfaceLines names c) :=
  ((List.sublist_append_right _ _).trans (List.sublist_append_left _ _)).trans (sublist_interfaceLines names c)

/-- The class that a file exports is the configured one, or else the one of the model, if the file declares it. -/
theorem mainExport_ofModel (m : Model) (spec : ModuleSpec) (name : Text) :
    (ofModel m spec).mainExport = some name ↔
      (spec.mainExport = some name ∧ name ≠ []) ∨ (Text.nonEmpty? spec.mainExport = none ∧ m.mainExport = some name ∧
        name ≠ [] ∧ ∃ c ∈ (ofModel m spec).enums ++ (ofModel m spec).interfaces, c.name = name) := by
  have hexport : (ofModel m spec).mainExport =
      chosenExport spec m (keptClasses m.classes spec.classFilter) := rfl
  have hkept : (keptClasses m.classes spec.classFilter).any (·.name = name) = true ↔
      ∃ c ∈ (ofModel m spec).enums ++ (ofModel m spec).interfaces, c.name = name := by
    simp only [List.any_eq_true, decide_eq_true_eq, (perm_enums_interfaces m spec).mem_iff]
  rw [hexport, chosenExport, ← hkept, ← Text.nonEmpty?_eq_some_iff]
  cases hconfigured : Text.nonEmpty? spec.mainExport with
  | some configured => simp
  | none => simp [Option.filter_eq_some_iff, Text.nonEmpty?_eq_some_iff, and_assoc]

/-- **The blocks of a file.** The file of a source has the classes that its filter keeps, each once: those that hold numbers
and nothing else as enumerations, the others as interfaces. Both groups stand in the order in which the source first mentions
their classes, and the blocks of the enumerations stand in front. The type of a data field of an interface is that of the
value behind a name exactly when the name is that of an enumeration of the file. When no export is configured, the file
exports the class that the source names last, and nothing if it does not declare that class. -/
theorem blocks_ofSource (source : Text) (spec : ModuleSpec) :
    let ds := (Text.splitLines source).map Directive.ofLine
    let m := Model.ofSource source
    let f := ofModel m spec
    (∀ c, (c ∈ f.enums ↔ c ∈ m.classes ∧ IsKept spec.classFilter c.name ∧ HoldsNumbers c) ∧
        (c ∈ f.interfaces ↔ c ∈ m.classes ∧ IsKept spec.classFilter c.name ∧ ¬ HoldsNumbers c)) ∧
      ((f.enums ++ f.interfaces).map (·.name)).Nodup ∧
      (m.classNames = (Source.mentions ds).eraseDups ∧ (f.enums.map (·.name)).Sublist m.classNames ∧
        (f.interfaces.map (·.name)).Sublist m.classNames) ∧
      (f.blocks.map (fun block => (Text.splitLines block).head?) =
          (f.enums.map fun c => some ("declare enum " ++ c.name ++ " \x7b" : Text)) ++
            (f.interfaces.map fun c => some ("interface " ++ c.name ++ " \x7b" : Text)) ∧
        Text.join "\n\n" f.blocks <:+: f.render) ∧
      (∀ c ∈ f.interfaces, (c.dataFields.map fun field =>
        ("  " ++ field.name ++ (if field.optional then ['?'] else []) ++ ": " ++
          (if ∃ e ∈ f.enums, e.name = TypeText.declaredType field.type then "typeof " ++ TypeText.declaredType field.type
            else TypeText.declaredType field.type) ++ ";" : Text)).Sublist
          (Text.splitLines (interfaceText f.enumerationNames c))) ∧
      ∀ name, f.mainExport = some name ↔
        (spec.mainExport = some name ∧ name ≠ []) ∨
          (Text.nonEmpty? spec.mainExport = none ∧ (ds.filterMap Directive.exportHint?).getLast? = some name ∧
            name ≠ [] ∧ ∃ c ∈ f.enums ++ f.interfaces, c.name = name) := by
  intro ds m f
  have hnames : m.classNames = (Source.mentions ds).eraseDups := Model.classNames_ofSource source
  have hexport : m.mainExport = (ds.filterMap Directive.exportHint?).getLast? := Model.mainExport_readLines _
  have htexts : ∀ c ∈ f.enums ++ f.interfaces, ∀ t ∈ c.texts, Text.isOneLine t = true := by
    intro c hc t ht
    have hkept := (perm_enums_interfaces m spec).mem_iff.mp hc
    exact Model.isOneLine_of_mem_texts source t (List.mem_flatMap.mpr ⟨c, (mem_keptClasses_iff.mp hkept).1, ht⟩)
  refine ⟨fun c => ⟨mem_enums_iff, mem_interfaces_iff⟩, nodup_names_ofModel (hnames ▸ nodup_eraseDups _),
    ⟨hnames, sublist_names_ofModel m spec⟩, ⟨head?_splitLines_blocks htexts, isInfix_blocks_render f⟩, fun c hc => ?_,
    fun name => hexport ▸ mainExport_ofModel m spec name⟩
  have hlines : Text.splitLines (interfaceText f.enumerationNames c) = interfaceLines f.enumerationNames c :=
    splitLines_join_of_isFilledLine
      (isFilledLine_of_mem_interfaceLines (htexts c (List.mem_append_right _ hc)) f.enumerationNames)
  simp only [hlines, ← dataFieldLine_eq]
  exact sublist_dataFieldLines f.enumerationNames c

/-- Fields of two enumerations, of which the filter drops one, which is also the class that the source exports. -/
theorem blocks_ofSource_of_dropped_enumeration :
    let source : Text :=
      "---@class Unit\n---@field id Id\n---@field kind Kind\n" ++
        "---@class Id\n---@field a number\n---@class Kind\n---@field b number\n---@type Id"
    let f := ofModel (Model.ofSource source) ⟨"unit", "unit.lua", none, ["Un*", "Kind"], false⟩
    f.mainExport = none ∧ f.enums.map (·.name) = ["Kind".toList] ∧
      ∃ c ∈ f.interfaces,
        ["  id: Id;".toList, "  kind: typeof Kind;".toList].Sublist
          (Text.splitLines (interfaceText f.enumerationNames c)) := by
  intro source f
  let unit : ClassModel := ⟨"Unit", [], [⟨"id", "Id", none, false⟩, ⟨"kind", "Kind", none, false⟩], []⟩
  let kind : ClassModel := ⟨"Kind", [], [⟨"b", "number", none, false⟩], []⟩
  have henums : f.enums = [kind] := by decide +kernel
  have hinterfaces : f.interfaces = [unit] := by decide +kernel
  have hfile : ofModel (Model.ofSource source) ⟨"unit", "unit.lua", none, ["Un*", "Kind"], false⟩ = f := rfl
  obtain ⟨-, -, -, -, hfields, hexport⟩ := blocks_ofSource source ⟨"unit", "unit.lua", none, ["Un*", "Kind"], false⟩
  refine ⟨Option.eq_none_iff_forall_ne_some.mpr fun name hname => ?_, by rw [henums]; rfl, unit,
    by simp [hinterfaces], ?_⟩
  · obtain ⟨hconfigured, -⟩ | ⟨-, hnamed, -, c, hc, hcName⟩ := (hexport name).mp hname
    · cases hconfigured
    · have hlast : some "Id".toList = some name := hnamed ▸ by decide +kernel
      have hdeclared : "Id".toList ∉ [kind, unit].map (·.name) := by decide
      rw [hfile, henums, hinterfaces] at hc
      exact hdeclared (Option.some.inj hlast ▸ hcName ▸ List.mem_map_of_mem hc)
  · have hmem : unit ∈ f.interfaces := by simp [hinterfaces]
    have hunit := hfields unit hmem
    have hlines : [("  id: Id;" : Text), "  kind: typeof Kind;"] = unit.dataFields.map fun field =>
        ("  " ++ field.name ++ (if field.optional then ['?'] else []) ++ ": " ++
          (if ∃ e ∈ f.enums, e.name = TypeText.declaredType field.type then "typeof " ++ TypeText.declaredType field.type
            else TypeText.declaredType field.type) ++ ";" : Text) := by
      rw [henums]
      decide +kernel
    exact hlines ▸ hunit

end File

end Declaration

end LuaTypings
