import Mathlib.Data.List.Forall2
import LuaTypings.Declaration.File
import LuaTypings.Proofs.Model.Descriptions
import LuaTypings.Proofs.Text.Cut

/-!
# Declaration files without their comment lines

The descriptions of a model are written on lines of their own. What a declaration file says on its other lines does not
depend on them: neither the choice between enumerations and interfaces nor any of the lines in a block does
(`plainLines_openInterface`), and the blocks are put together line by line (`plainLines_stripEnd_congr`). So two sources
that differ in their lines of prose are declared alike (`plainLines_render_ofLines`).
-/

namespace LuaTypings.Declaration

open Text

/-! ## Plain lines -/

/-- Whether a line is one that holds nothing but the comment of a member. -/
def isDocLine (line : Text) : Bool := startsWith "  /** " line && endsWith " */" line

/-- The lines of a text that are not the comment of a member. -/
def plainLines (t : Text) : List Text := (splitAll (· == '\n') t).filter (!isDocLine ·)

/-- The plain lines before a line feed and those behind it. -/
theorem plainLines_append_lineFeed (s t : Text) : plainLines (s ++ '\n' :: t) = plainLines s ++ plainLines t := by
  have hcut : splitAll (· == '\n') (s ++ '\n' :: t) = splitAll (· == '\n') s ++ splitAll (· == '\n') t :=
    splitAll_append_cons rfl s t
  rw [plainLines, hcut, List.filter_append]
  rfl

/-- The plain lines of texts on top of each other. -/
theorem plainLines_join {parts : List Text} (hne : parts ≠ []) :
    plainLines (join "\n" parts) = parts.flatMap plainLines := by
  have hcut : splitAll (· == '\n') (join "\n" parts) = parts.flatMap (splitAll (· == '\n')) := splitAll_join hne
  rw [plainLines, hcut, List.filter_flatMap]
  rfl

/-! ## Comments -/

/-- The comment of a description. -/
theorem commentText_eq (text : Text) : commentText text = "/** " ++ escapeCommentEnd text ++ " */" := rfl

/-- Breaking the ends of comments brings in no character but the backslash. -/
theorem mem_of_mem_escapeCommentEnd {c : Char} {t : Text} (h : c ∈ escapeCommentEnd t) : c ∈ t ∨ c = '\\' := by
  fun_induction escapeCommentEnd t with
  | case1 t ih =>
    simp only [List.mem_cons] at h ⊢
    tauto
  | case2 d t _ ih =>
    simp only [List.mem_cons] at h ⊢
    tauto
  | case3 => exact .inl h

/-- The comment of a description on one line is on one line. -/
theorem not_mem_docLine {text : Text} (h : '\n' ∉ text) : '\n' ∉ "  " ++ commentText text := by
  have hescaped : '\n' ∉ escapeCommentEnd text := fun hmem => (mem_of_mem_escapeCommentEnd hmem).elim h (by decide)
  rw [commentText_eq, List.mem_append, List.mem_append, List.mem_append, not_or, not_or, not_or]
  exact ⟨by decide, ⟨by decide, hescaped⟩, by decide⟩

/-- The line of a comment is no plain line. -/
theorem isDocLine_commentText (text : Text) : isDocLine ("  " ++ commentText text) = true := by
  have hstart : "  /** ".toList <+: "  " ++ commentText text :=
    ⟨escapeCommentEnd text ++ " */", by simp [commentText_eq]⟩
  have hend : " */".toList <:+ "  " ++ commentText text :=
    ⟨"  /** " ++ escapeCommentEnd text, by simp [commentText_eq]⟩
  rw [isDocLine, startsWith, endsWith, List.isPrefixOf_iff_prefix.mpr hstart, List.isSuffixOf_iff_suffix.mpr hend]
  rfl

/-- A description on one line leaves no plain line. -/
theorem flatMap_plainLines_docLines {description : Option Text} (h : ∀ text ∈ description, '\n' ∉ text) :
    (docLines description).flatMap plainLines = [] := by
  unfold docLines
  split
  · rfl
  · rfl
  · rename_i text _
    have hline : splitAll (· == '\n') ("  " ++ commentText text) = ["  " ++ commentText text] :=
      splitAll_of_forall fun c hc => beq_false_of_ne fun heq => not_mem_docLine (h text rfl) (heq ▸ hc)
    rw [List.flatMap_singleton, plainLines, hline, List.filter_singleton, isDocLine_commentText]
    rfl

/-! ## Blocks -/

/-- The text of a block up to its closing bracket. -/
def openBlock (heading : Text) (body : List Text) : Text := join "\n" ((heading ++ " \x7b") :: body)

/-- A block is closed by a bracket on a line of its own. -/
theorem join_braced (heading : Text) (body : List Text) :
    join "\n" (braced heading body) = openBlock heading body ++ "\n\x7d" := by
  rw [braced, join_concat _ (List.cons_ne_nil _ _), List.append_assoc]
  rfl

/-- The plain lines of a block are those of its heading and of its lines. -/
theorem plainLines_openBlock (heading : Text) (body : List Text) :
    plainLines (openBlock heading body) = plainLines (heading ++ " \x7b") ++ body.flatMap plainLines := by
  rw [openBlock, plainLines_join (List.cons_ne_nil _ _), List.flatMap_cons]

/-- Lines of members with descriptions on one line have the plain lines of the members alone. -/
theorem flatMap_plainLines_members {α : Type} {description : α → Option Text} {line : α → Text} {members : List α}
    (h : ∀ x ∈ members, ∀ text ∈ description x, '\n' ∉ text) :
    (members.flatMap fun x => docLines (description x) ++ [line x]).flatMap plainLines =
      members.flatMap fun x => plainLines (line x) := by
  rw [List.flatMap_assoc]
  refine List.flatMap_congr fun x hx => ?_
  rw [List.flatMap_append, flatMap_plainLines_docLines (h x hx), List.nil_append, List.flatMap_singleton]

variable {c : ClassModel}

/-- An enumeration up to its closing bracket. -/
def openEnum (c : ClassModel) : Text :=
  openBlock ("declare enum " ++ c.name) (c.dataFields.flatMap fun f => docLines f.description ++ [enumMemberLine f])

/-- An interface up to its closing bracket. -/
def openInterface (enumerationNames : List Text) (c : ClassModel) : Text :=
  openBlock ("interface " ++ c.name)
    (c.indexSignatures.map indexLine ++
      (c.dataFields.flatMap fun f => docLines f.description ++ [dataFieldLine enumerationNames f]) ++
      c.methods.flatMap fun m => docLines m.description ++ [methodLine m])

/-- The plain lines of an enumeration whose descriptions are on one line. -/
theorem plainLines_openEnum (h : c.DescribedBy ('\n' ∉ ·)) :
    plainLines (openEnum c) =
      plainLines ("declare enum " ++ c.name ++ " \x7b") ++ c.dataFields.flatMap fun f => plainLines (enumMemberLine f) := by
  rw [openEnum, plainLines_openBlock, flatMap_plainLines_members h.dataFields]

/-- The plain lines of an interface whose descriptions are on one line. -/
theorem plainLines_openInterface (names : List Text) (h : c.DescribedBy ('\n' ∉ ·)) :
    plainLines (openInterface names c) =
      plainLines ("interface " ++ c.name ++ " \x7b") ++ ((c.indexSignatures.flatMap fun s => plainLines (indexLine s)) ++
        (c.dataFields.flatMap fun f => plainLines (dataFieldLine names f)) ++
        c.methods.flatMap fun m => plainLines (methodLine m)) := by
  rw [openInterface, plainLines_openBlock, List.flatMap_append, List.flatMap_append, List.flatMap_map,
    flatMap_plainLines_members h.dataFields, flatMap_plainLines_members h.methods]

/-- No description of a class without descriptions has a line feed. -/
theorem describedBy_undescribed (P : Text → Prop) (c : ClassModel) : c.undescribed.DescribedBy P where
  methods m hm := by
    obtain ⟨k, -, rfl⟩ := List.mem_map.mp hm
    exact fun text htext => nomatch htext
  dataFields f hf := by
    obtain ⟨g, -, rfl⟩ := List.mem_map.mp hf
    exact fun text htext => nomatch htext

/-- An enumeration has the same plain lines without descriptions. -/
theorem plainLines_openEnum_undescribed (h : c.DescribedBy ('\n' ∉ ·)) :
    plainLines (openEnum c.undescribed) = plainLines (openEnum c) := by
  rw [plainLines_openEnum h, plainLines_openEnum (describedBy_undescribed _ c), ClassModel.undescribed, List.flatMap_map]
  rfl

/-- An interface has the same plain lines without descriptions. -/
theorem plainLines_openInterface_undescribed (names : List Text) (h : c.DescribedBy ('\n' ∉ ·)) :
    plainLines (openInterface names c.undescribed) = plainLines (openInterface names c) := by
  rw [plainLines_openInterface names h, plainLines_openInterface names (describedBy_undescribed _ c),
    ClassModel.undescribed, List.flatMap_map, List.flatMap_map]
  rfl

/-! ## Files -/

/-- The end of a block, with a blank line behind it. -/
def blockEnd : Text := "\n\x7d\n\n"

/-- The plain lines of a text with a block in it, when blanks at its end are left out. -/
theorem plainLines_stripEnd_block (front block back : Text) :
    plainLines (stripEnd (front ++ '\n' :: (block ++ blockEnd ++ back)) ++ "\n") =
      plainLines front ++ plainLines block ++ plainLines (stripEnd ("\x7d\n" ++ '\n' :: back) ++ "\n") := by
  have hbracket : isBlank '\x7d' = false := by decide
  have hsplit : front ++ '\n' :: (block ++ blockEnd ++ back) =
      (front ++ '\n' :: (block ++ ['\n'])) ++ '\x7d' :: ('\n' :: '\n' :: back) := by
    simp [blockEnd]
  have hback : stripEnd ("\x7d\n" ++ '\n' :: back) = '\x7d' :: stripEnd ('\n' :: '\n' :: back) :=
    stripEnd_append_cons hbracket [] ('\n' :: '\n' :: back)
  rw [hsplit, stripEnd_append_cons hbracket, hback]
  generalize stripEnd ('\n' :: '\n' :: back) = rest
  have hlines : front ++ '\n' :: (block ++ ['\n']) ++ '\x7d' :: rest ++ "\n".toList =
      front ++ '\n' :: (block ++ '\n' :: ('\x7d' :: rest ++ "\n".toList)) := by
    simp
  rw [hlines, plainLines_append_lineFeed, plainLines_append_lineFeed, List.append_assoc]

/-- Blocks of the same plain lines make up texts of the same plain lines. -/
theorem plainLines_stripEnd_congr {blocks others : List Text}
    (h : List.Forall₂ (fun s t => plainLines s = plainLines t) blocks others) (front back : Text) :
    plainLines (stripEnd (front ++ '\n' :: (blocks.flatMap (fun block => block ++ blockEnd) ++ back)) ++ "\n") =
      plainLines (stripEnd (front ++ '\n' :: (others.flatMap (fun block => block ++ blockEnd) ++ back)) ++ "\n") := by
  -- What stands behind the bracket of a block is looked at with that bracket in front.
  induction h generalizing front with
  | nil => rfl
  | @cons block other blocks others hblock _ ih =>
    rw [List.flatMap_cons, List.flatMap_cons, List.append_assoc _ _ back, List.append_assoc _ _ back,
      plainLines_stripEnd_block, plainLines_stripEnd_block, hblock, ih]

/-- The file without the descriptions of its classes. -/
def File.undescribed (f : File) : File :=
  { f with enums := f.enums.map (·.undescribed), interfaces := f.interfaces.map (·.undescribed) }

/-- The blocks of a file up to their closing brackets. -/
def File.openBlocks (f : File) : List Text := f.enums.map openEnum ++ f.interfaces.map (openInterface f.enumerationNames)

namespace File

variable {f : File}

/-- The blocks of a file are those without their ends, and the ends. -/
theorem blockPart_eq (f : File) : f.blockPart = f.openBlocks.flatMap fun block => block ++ blockEnd := by
  have henum : ∀ c : ClassModel, enumText c ++ "\n\n" = openEnum c ++ blockEnd := by
    intro c
    rw [enumText, enumLines, join_braced, List.append_assoc]
    rfl
  have hinterface : ∀ c : ClassModel, interfaceText f.enumerationNames c ++ "\n\n" =
      openInterface f.enumerationNames c ++ blockEnd := by
    intro c
    rw [interfaceText, interfaceLines, join_braced, List.append_assoc]
    rfl
  rw [blockPart, blocks, openBlocks, List.flatMap_append, List.flatMap_append, List.flatMap_map, List.flatMap_map,
    List.flatMap_map, List.flatMap_map]
  simp only [henum, hinterface]

/-- The blocks of a file whose descriptions are on one line have the same plain lines without them. -/
theorem forall₂_openBlocks_undescribed (h : ∀ c ∈ f.enums ++ f.interfaces, c.DescribedBy ('\n' ∉ ·)) :
    List.Forall₂ (fun s t => plainLines s = plainLines t) f.undescribed.openBlocks f.openBlocks := by
  have hnames : f.undescribed.enumerationNames = f.enumerationNames := by
    rw [enumerationNames, undescribed, List.map_map]
    rfl
  rw [openBlocks, openBlocks, hnames, undescribed, List.map_map, List.map_map]
  refine List.rel_append ?_ ?_
  · rw [List.forall₂_map_left_iff, List.forall₂_map_right_iff, List.forall₂_same]
    exact fun c hc => plainLines_openEnum_undescribed (h c (List.mem_append_left _ hc))
  · rw [List.forall₂_map_left_iff, List.forall₂_map_right_iff, List.forall₂_same]
    exact fun c hc => plainLines_openInterface_undescribed _ (h c (List.mem_append_right _ hc))

/-- What stands in front of the blocks ends in a line feed. -/
theorem exists_front_eq (f : File) : ∃ front, f.header ++ f.aliasPart = front ++ ['\n'] := by
  rw [aliasPart]
  split
  · have hheader : f.header = ("// Auto-generated from LuaCATS annotations\n// Source: " ++ f.sourceFile) ++
        "\n// Do not edit manually\n\n" := rfl
    have hend : "\n// Do not edit manually\n\n".toList = "\n// Do not edit manually\n".toList ++ ['\n'] := rfl
    exact ⟨_, by rw [hheader, hend, List.append_nil, ← List.append_assoc]⟩
  · exact ⟨f.header ++ f.aliases.flatMap aliasLine, (List.append_assoc _ _ _).symm⟩

/-- A file whose descriptions are on one line has the same plain lines without them. -/
theorem plainLines_render_undescribed (h : ∀ c ∈ f.enums ++ f.interfaces, c.DescribedBy ('\n' ∉ ·)) :
    plainLines f.undescribed.render = plainLines f.render := by
  obtain ⟨front, hfront⟩ := f.exists_front_eq
  have hrender : ∀ g : File, g.header ++ g.aliasPart = front ++ ['\n'] → g.exportPart = f.exportPart →
      g.render = stripEnd (front ++ '\n' :: ((g.openBlocks.flatMap fun block => block ++ blockEnd) ++ f.exportPart)) ++ "\n" := by
    intro g hg hexport
    rw [render, hg, hexport, blockPart_eq]
    simp
  rw [hrender f hfront rfl, hrender f.undescribed hfront rfl]
  exact plainLines_stripEnd_congr (forall₂_openBlocks_undescribed h) front f.exportPart

/-- A class is an enumeration with and without descriptions. -/
theorem isEnumeration_undescribed (c : ClassModel) : isEnumeration c.undescribed = isEnumeration c := by
  simp only [isEnumeration, ClassModel.undescribed, List.isEmpty_map, List.all_map]
  rfl

/-- The same classes are kept with and without descriptions. -/
theorem keptClasses_undescribed (classes : List ClassModel) (patterns : List Text) :
    keptClasses (classes.map (·.undescribed)) patterns = (keptClasses classes patterns).map (·.undescribed) := by
  rw [keptClasses, keptClasses]
  split
  · rfl
  · rw [List.filter_map]
    rfl

/-- The file of a model without descriptions is that of the model without them. -/
theorem undescribed_ofModel (m : Model) (spec : ModuleSpec) :
    (File.ofModel m spec).undescribed = File.ofModel m.undescribed spec := by
  have hkept : keptClasses m.undescribed.classes spec.classFilter =
      (keptClasses m.classes spec.classFilter).map (·.undescribed) := keptClasses_undescribed _ _
  have hexport : chosenExport spec m.undescribed ((keptClasses m.classes spec.classFilter).map (·.undescribed)) =
      chosenExport spec m (keptClasses m.classes spec.classFilter) := by
    simp only [chosenExport, List.any_map]
    rfl
  have hchoice : isEnumeration ∘ ClassModel.undescribed = isEnumeration := funext isEnumeration_undescribed
  have hother : (fun c => !isEnumeration c) ∘ ClassModel.undescribed = fun c => !isEnumeration c :=
    funext fun c => congrArg not (isEnumeration_undescribed c)
  rw [ofModel, ofModel, hkept, hexport, undescribed]
  simp only [List.filter_map, hchoice, hother]
  rfl

/-- The file of a model whose descriptions are on one line has the same plain lines without them. -/
theorem plainLines_render_ofModel {m : Model} (h : m.DescribedBy ('\n' ∉ ·)) (spec : ModuleSpec) :
    plainLines (File.ofModel m.undescribed spec).render = plainLines (File.ofModel m spec).render := by
  rw [← undescribed_ofModel]
  refine plainLines_render_undescribed fun c hc => h c ?_
  have hkept : ∀ c ∈ keptClasses m.classes spec.classFilter, c ∈ m.classes := by
    intro c hc
    rw [keptClasses] at hc
    split at hc
    · exact hc
    · exact List.mem_of_mem_filter hc
  obtain hc | hc := List.mem_append.mp hc
  · exact hkept c (List.mem_of_mem_filter hc)
  · exact hkept c (List.mem_of_mem_filter hc)

end File

/-- **Documentation never influences types.** Two sources that are equal but for their lines of prose have the same model
up to descriptions, and under every specification of a module their declaration files are equal but for the comments of
members. -/
theorem plainLines_render_ofLines {lines others : List Text} (hlines : ∀ line ∈ lines, '\n' ∉ line)
    (hothers : ∀ line ∈ others, '\n' ∉ line)
    (h : lines.filter (fun line => (Source.Directive.ofLine line).prose?.isNone) =
      others.filter (fun line => (Source.Directive.ofLine line).prose?.isNone)) :
    (Model.ofLines lines).undescribed = (Model.ofLines others).undescribed ∧
      ∀ spec, plainLines (File.ofModel (.ofLines lines) spec).render =
        plainLines (File.ofModel (.ofLines others) spec).render := by
  have hmodel := Model.undescribed_ofLines h
  refine ⟨hmodel, fun spec => ?_⟩
  rw [← File.plainLines_render_ofModel (Model.describedBy_ofLines hlines),
    ← File.plainLines_render_ofModel (Model.describedBy_ofLines hothers), hmodel]

/-- A line of prose takes the place of the words behind a type, and another one describes a method. -/
theorem plainLines_render_of_added_prose :
    let bare : List Text := ["---@class Unit", "---@field hp number Left over", "function Unit.heal() end"]
    let told : List Text :=
      ["---@class Unit", "--- Hit points.", "---@field hp number Left over", "--- Heals.", "function Unit.heal() end"]
    Model.ofLines bare ≠ Model.ofLines told ∧
      (Model.ofLines bare).undescribed = (Model.ofLines told).undescribed ∧
        ∀ spec, plainLines (File.ofModel (.ofLines bare) spec).render =
          plainLines (File.ofModel (.ofLines told) spec).render :=
  ⟨by decide +kernel, plainLines_render_ofLines (by decide +kernel) (by decide +kernel) (by decide +kernel)⟩

end LuaTypings.Declaration
