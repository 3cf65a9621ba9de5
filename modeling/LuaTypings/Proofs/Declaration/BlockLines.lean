import LuaTypings.Proofs.Declaration.PlainLines
import LuaTypings.Proofs.Model.OneLine

/-!
# The lines of a block

A block is joined from its lines, and these are the lines it is split into again, under every reading of line ends. What
makes it so is that no line of a block holds a line end (`isOneLine_of_mem_interfaceLines`,
`isOneLine_of_mem_enumLines`): it is written around names, descriptions and declared types of a class, and none of the
texts of a class in a source has one. So every member has a line of its own, and the number of lines is that of the members
and descriptions and of the two lines around them (`splitLines_block`).
-/

namespace LuaTypings.Declaration

open Text

/-! ## Filled lines -/

/-- Whether a text makes a line of its own: it is not empty and on one line. -/
structure IsFilledLine (t : Text) : Prop where
  /-- There is something on the line. -/
  ne_nil : t ≠ []
  /-- Nothing ends the line. -/
  oneLine : isOneLine t = true

/-- A filled line goes on with a text on one line. -/
theorem IsFilledLine.append {s t : Text} (hs : IsFilledLine s) (ht : isOneLine t = true) : IsFilledLine (s ++ t) :=
  ⟨List.append_ne_nil_of_left_ne_nil hs.ne_nil t, isOneLine_append_of hs.oneLine ht⟩

/-- The indentation of members fills a line. -/
theorem isFilledLine_indentation : IsFilledLine "  " := ⟨by decide, by decide⟩

/-! ## Comments -/

/-- A comment is on one line when its description is. -/
theorem isOneLine_commentText {text : Text} (h : isOneLine text = true) : isOneLine (commentText text) = true := by
  have hescaped : isOneLine (escapeCommentEnd text) = true := by
    refine isOneLine_iff.mpr fun c hc => ?_
    obtain hc | rfl := mem_of_mem_escapeCommentEnd hc
    · exact isOneLine_iff.mp h c hc
    · decide
  rw [commentText_eq]
  exact isOneLine_append_of (isOneLine_append_of (by decide) hescaped) (by decide)

/-- The line of a description is filled when the description is on one line. -/
theorem isFilledLine_of_mem_docLines {description : Option Text} (h : ∀ text ∈ description, isOneLine text = true) :
    ∀ line ∈ docLines description, IsFilledLine line := by
  unfold docLines
  split
  · exact fun _ hline => absurd hline List.not_mem_nil
  · exact fun _ hline => absurd hline List.not_mem_nil
  · rename_i text _
    exact List.forall_mem_singleton.mpr (isFilledLine_indentation.append (isOneLine_commentText (h text rfl)))

/-- A description that has words has one line. -/
theorem length_docLines {description : Option Text} (h : ∀ text ∈ description, text ≠ []) :
    (docLines description).length = if description.isSome then 1 else 0 := by
  unfold docLines
  split
  · rfl
  · exact absurd rfl (h [] rfl)
  · rfl

/-! ## Members -/

section Members

variable {α : Type} {describe : α → Option Text} {line : α → Text} {members : List α}

/-- Members with their descriptions take one line each, and one more for each description. -/
theorem length_memberLines (h : ∀ m ∈ members, ∀ text ∈ describe m, text ≠ []) :
    (members.flatMap fun m => docLines (describe m) ++ [line m]).length =
      members.length + members.countP fun m => (describe m).isSome := by
  induction members with
  | nil => rfl
  | cons m members ih =>
    obtain ⟨hm, hrest⟩ := List.forall_mem_cons.mp h
    have hlast : [line m].length = 1 := rfl
    rw [List.flatMap_cons, List.length_append, List.length_append, length_docLines hm, ih hrest, hlast, List.length_cons,
      List.countP_cons]
    omega

/-- Among the lines of members with their descriptions each member has one, in their order. -/
theorem sublist_memberLines (members : List α) :
    (members.map line).Sublist (members.flatMap fun m => docLines (describe m) ++ [line m]) := by
  induction members with
  | nil => exact List.Sublist.refl []
  | cons m members ih =>
    rw [List.map_cons, List.flatMap_cons]
    exact (List.sublist_append_right _ [line m]).append ih

/-- Members with their descriptions fill their lines. -/
theorem isFilledLine_of_mem_memberLines (hdescription : ∀ m ∈ members, ∀ text ∈ describe m, isOneLine text = true)
    (hline : ∀ m ∈ members, IsFilledLine (line m)) :
    ∀ s ∈ members.flatMap fun m => docLines (describe m) ++ [line m], IsFilledLine s := by
  intro s hs
  obtain ⟨m, hm, hs⟩ := List.mem_flatMap.mp hs
  obtain hs | hs := List.mem_append.mp hs
  · exact isFilledLine_of_mem_docLines (hdescription m hm) s hs
  · obtain rfl := List.mem_singleton.mp hs
    exact hline m hm

end Members

/-- An index signature fills its line when its texts are on one line. -/
theorem isFilledLine_indexLine {signature : IndexSignature} (h : ∀ t ∈ signature.texts, isOneLine t = true) :
    IsFilledLine (indexLine signature) := by
  obtain ⟨hkey, hvalue⟩ := IndexSignature.forall_mem_texts.mp h
  have hopening : IsFilledLine "  [key: " := ⟨by decide, by decide⟩
  exact (((hopening.append (TypeText.isOneLine_declaredType hkey)).append (by decide)).append
    (TypeText.isOneLine_declaredType hvalue)).append (by decide)

/-- A data field fills its line when its name and its type are on one line. -/
theorem isFilledLine_dataFieldLine {f : DataField} (hname : isOneLine f.name = true) (htype : isOneLine f.type = true)
    (names : List Text) : IsFilledLine (dataFieldLine names f) := by
  have hmark : isOneLine (if f.optional then ['?'] else []) = true := by split <;> decide
  have hdeclared : isOneLine (dataFieldType names f.type) = true := by
    have hdeclared := TypeText.isOneLine_declaredType htype
    have htype : dataFieldType names f.type =
        if names.contains (TypeText.declaredType f.type) then "typeof " ++ TypeText.declaredType f.type
        else TypeText.declaredType f.type := rfl
    rw [htype]
    split
    · exact isOneLine_append_of (by decide) hdeclared
    · exact hdeclared
  exact ((((isFilledLine_indentation.append hname).append hmark).append (by decide)).append hdeclared).append (by decide)

/-- A method fills its line when its name and its type are on one line. -/
theorem isFilledLine_methodLine {m : Method} (hname : isOneLine m.name = true) (htype : isOneLine m.type = true) :
    IsFilledLine (methodLine m) :=
  (isFilledLine_indentation.append (TypeText.isOneLine_memberText_ofText hname htype)).append (by decide)

/-- A member of an enumeration fills its line when its name is on one line. -/
theorem isFilledLine_enumMemberLine {f : DataField} (hname : isOneLine f.name = true) :
    IsFilledLine (enumMemberLine f) :=
  (isFilledLine_indentation.append hname).append (by decide)

/-! ## Blocks -/

/-- The lines between brackets are filled when the heading and they are. -/
theorem isFilledLine_of_mem_braced {heading : Text} {body : List Text} (hheading : IsFilledLine heading)
    (hbody : ∀ line ∈ body, IsFilledLine line) : ∀ line ∈ braced heading body, IsFilledLine line := by
  have hend : IsFilledLine ['\x7d'] := ⟨by decide, by decide⟩
  exact List.forall_mem_append.mpr ⟨List.forall_mem_cons.mpr ⟨hheading.append (by decide), hbody⟩,
    List.forall_mem_singleton.mpr hend⟩

/-- Brackets add two lines. -/
theorem length_braced (heading : Text) (body : List Text) : (braced heading body).length = body.length + 2 := by
  simp [braced]

/-- The lines between brackets are among those with the brackets. -/
theorem sublist_braced (heading : Text) (body : List Text) : body.Sublist (braced heading body) :=
  ((List.sublist_cons_self _ body).trans (List.sublist_append_left _ _))

/-- Filled lines are found again in the text that they are joined to. -/
theorem splitLines_join_of_isFilledLine {lines : List Text} (h : ∀ line ∈ lines, IsFilledLine line) :
    splitLines (join "\n" lines) = lines :=
  splitLines_join fun line hline => ⟨(h line hline).ne_nil, (h line hline).oneLine⟩

variable {c : ClassModel}

/-- The lines of an interface are filled when the texts of the class are on one line. -/
theorem isFilledLine_of_mem_interfaceLines (h : ∀ t ∈ c.texts, isOneLine t = true) (names : List Text) :
    ∀ line ∈ interfaceLines names c, IsFilledLine line := by
  obtain ⟨hname, hsignatures, hfields, hmethods⟩ := ClassModel.forall_mem_texts.mp h
  have hheading : IsFilledLine "interface " := ⟨by decide, by decide⟩
  refine isFilledLine_of_mem_braced (hheading.append hname)
    (List.forall_mem_append.mpr ⟨List.forall_mem_append.mpr ⟨List.forall_mem_map.mpr ?_, ?_⟩, ?_⟩)
  · exact fun signature hsignature => isFilledLine_indexLine (hsignatures signature hsignature)
  · refine isFilledLine_of_mem_memberLines (fun f hf => ?_) fun f hf => ?_
    · exact (DataField.forall_mem_texts.mp (hfields f hf)).2.2
    · obtain ⟨hname, htype, -⟩ := DataField.forall_mem_texts.mp (hfields f hf)
      exact isFilledLine_dataFieldLine hname htype names
  · refine isFilledLine_of_mem_memberLines (fun m hm => ?_) fun m hm => ?_
    · exact (Method.forall_mem_texts.mp (hmethods m hm)).2.2
    · obtain ⟨hname, htype, -⟩ := Method.forall_mem_texts.mp (hmethods m hm)
      exact isFilledLine_methodLine hname htype

/-- The lines of an enumeration are filled when the texts of the class are on one line. -/
theorem isFilledLine_of_mem_enumLines (h : ∀ t ∈ c.texts, isOneLine t = true) :
    ∀ line ∈ enumLines c, IsFilledLine line := by
  obtain ⟨hname, -, hfields, -⟩ := ClassModel.forall_mem_texts.mp h
  have hheading : IsFilledLine "declare enum " := ⟨by decide, by decide⟩
  refine isFilledLine_of_mem_braced (hheading.append hname) (isFilledLine_of_mem_memberLines (fun f hf => ?_) fun f hf => ?_)
  · exact (DataField.forall_mem_texts.mp (hfields f hf)).2.2
  · exact isFilledLine_enumMemberLine (DataField.forall_mem_texts.mp (hfields f hf)).1

/-- An interface has a line for each member and each description, and two lines around them. -/
theorem length_interfaceLines (h : c.DescribedBy (· ≠ [])) (names : List Text) :
    (interfaceLines names c).length =
      2 + c.indexSignatures.length + c.dataFields.length + c.methods.length +
        (c.dataFields.countP (·.description.isSome) + c.methods.countP (·.description.isSome)) := by
  rw [interfaceLines, length_braced, List.length_append, List.length_append, List.length_map,
    length_memberLines h.dataFields, length_memberLines h.methods]
  omega

/-- An enumeration has a line for each member and each description, and two lines around them. -/
theorem length_enumLines (h : c.DescribedBy (· ≠ [])) :
    (enumLines c).length = 2 + c.dataFields.length + c.dataFields.countP (·.description.isSome) := by
  rw [enumLines, length_braced, length_memberLines h.dataFields]
  omega

/-- Each member of an interface has a line, in their order. -/
theorem sublist_interfaceLines (names : List Text) (c : ClassModel) :
    (c.indexSignatures.map indexLine ++ c.dataFields.map (dataFieldLine names) ++ c.methods.map methodLine).Sublist
      (interfaceLines names c) := by
  refine List.Sublist.trans ?_ (sublist_braced _ _)
  exact ((List.Sublist.refl _).append (sublist_memberLines c.dataFields)).append (sublist_memberLines c.methods)

/-- **No source breaks the lines of a block.** No name, type or description of a class in a source has a line end. The
text of the class as an interface has one line for each of its members, one for each description and two around them; so
has its text as an enumeration, for its data fields. -/
theorem splitLines_block {source : Text} (hc : c ∈ (Model.ofSource source).classes) :
    (∀ t ∈ c.texts, isOneLine t = true) ∧
      (∀ names, splitLines (interfaceText names c) = interfaceLines names c ∧
        (c.indexSignatures.map indexLine ++ c.dataFields.map (dataFieldLine names) ++ c.methods.map methodLine).Sublist
          (splitLines (interfaceText names c)) ∧
        (splitLines (interfaceText names c)).length =
          2 + c.indexSignatures.length + c.dataFields.length + c.methods.length +
            (c.dataFields.countP (·.description.isSome) + c.methods.countP (·.description.isSome))) ∧
      splitLines (enumText c) = enumLines c ∧
      (c.dataFields.map enumMemberLine).Sublist (splitLines (enumText c)) ∧
      (splitLines (enumText c)).length = 2 + c.dataFields.length + c.dataFields.countP (·.description.isSome) := by
  have htexts : ∀ t ∈ c.texts, isOneLine t = true := fun t ht =>
    Model.isOneLine_of_mem_texts source t (List.mem_flatMap.mpr ⟨c, hc, ht⟩)
  have hdescribed : c.DescribedBy (· ≠ []) := Model.describedBy_ne_nil source c hc
  have henum : splitLines (enumText c) = enumLines c :=
    splitLines_join_of_isFilledLine (isFilledLine_of_mem_enumLines htexts)
  refine ⟨htexts, fun names => ?_, henum, ?_, ?_⟩
  · have hinterface : splitLines (interfaceText names c) = interfaceLines names c :=
      splitLines_join_of_isFilledLine (isFilledLine_of_mem_interfaceLines htexts names)
    rw [hinterface]
    exact ⟨rfl, sublist_interfaceLines names c, length_interfaceLines hdescribed names⟩
  · rw [henum]
    exact (sublist_memberLines c.dataFields).trans (sublist_braced _ _)
  · rw [henum]
    exact length_enumLines hdescribed

/-- A class with a described field and a described method, in a source whose lines end in several ways. -/
theorem splitLines_block_of_described_members :
    let source : Text :=
      "---@class Unit\x0b--- Hit points.\r\n---@field hp number|nil\n--- Heals.\x0c--- Twice.\nfunction Unit.heal(n) end"
    ∃ c ∈ (Model.ofSource source).classes,
      c.texts.all isOneLine = true ∧ (splitLines (interfaceText [] c)).length = 6 := by
  intro source
  let c : ClassModel := ⟨"Unit", [⟨"heal", "fun(n: any): nil", some "Heals. Twice."⟩],
    [⟨"hp", "number|nil", some "Hit points.", false⟩], []⟩
  have hc : c ∈ (Model.ofSource source).classes := by decide +kernel
  obtain ⟨htexts, hinterface, -⟩ := splitLines_block hc
  exact ⟨c, hc, List.all_eq_true.mpr htexts, (hinterface []).2.2⟩

end LuaTypings.Declaration
