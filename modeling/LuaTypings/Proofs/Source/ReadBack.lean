import LuaTypings.Proofs.Source.DeclarationLine

/-!
# Directives are read back from their lines

Most texts can stand in most places of a line, and no two kinds of line are mistaken for each other. What cannot be
written is what reading takes away or cuts apart: a blank at an end, a name that is a scope, prose behind a type, and a
capitalised word inside one. Every directive without these is read back from its line, whatever blanks stand around it
(`Directive.ofLine_of_isWritable`).
-/

namespace LuaTypings.Source

open Text (isWord isLastPart isWordChar isBlank)

/-! ## What can be written -/

/-- Whether the annotation of a parameter can be written: its name is a word, or the three dots without a mark, and its
type is all that its text starts with. -/
def ParamNote.isWritable (note : ParamNote) : Bool :=
  (isWord note.name || (note.name == "..." && !note.optional)) &&
    (isLastPart note.type && TypeText.spanType note.type == (note.type, []))

/-- Whether a field can be written. Its name is a word and no scope. A function type stands alone; any other type has no
capitalised word, and the description starts with one. The type "fun" with a description is read as a function type, so
type and description are looked at together. -/
def FieldNote.isWritable (note : FieldNote) : Bool :=
  (isWord note.name && !fieldScopes.contains note.name) && (isLastPart note.type &&
    match note.description with
    | none => TypeText.isFunctionText note.type || !Text.hasCapitalised note.type
    | some prose => (isLastPart prose && Text.startsCapitalised (' ' :: prose)) &&
        (!Text.hasCapitalised note.type && !TypeText.isFunctionText (note.type ++ ' ' :: prose)))

/-- Whether a declaration can be written: its names are words, and three dots may stand for a parameter. -/
def DeclaredFunction.isWritable (d : DeclaredFunction) : Bool :=
  isWord d.className && isWord d.method && d.params.all isParamName

/-- Whether a directive can be written: it has a line, and its parts are such that the line says them. -/
def Directive.isWritable : Directive → Bool
  | .classStart name | .exportHint name => isWord name
  | .alias name body => isWord name && isLastPart body
  | .param note => note.isWritable
  | .returns type => isLastPart type && TypeText.withoutProse type == type
  | .indexField key value => isWord key && isLastPart value
  | .field note => note.isWritable
  | .description text => isLastPart text && text.head? != some '@'
  | .function d => d.isWritable
  | .nested outer inner => isWord outer && isWord inner
  | .otherCode | .silent => false

/-! ## Parameters -/

/-- The name of a parameter is read with its mark. -/
theorem paramNote?_of_name {note : ParamNote} {part : Text}
    (hname : isWord note.name = true ∨ note.name = "..." ∧ note.optional = false) (hpart : isLastPart part = true) :
    paramNote? (note.name ++ optionalMark note.optional ++ ' ' :: part) =
      some ⟨note.name, (TypeText.spanType part).1, note.optional⟩ := by
  obtain ⟨name, type, optional⟩ := note
  dsimp only at hname ⊢
  have hlast := lastPart?_space_cons hpart
  -- A word does not start with a dot, so it is not taken for the three dots.
  obtain hword | ⟨rfl, rfl⟩ := hname
  · have hdots : Text.dropStart? "..." (name ++ optionalMark optional ++ ' ' :: part) = none := by
      obtain ⟨c, name, rfl⟩ := List.exists_cons_of_ne_nil (Text.isWord_iff.mp hword).1
      exact if_neg (Text.ne_of_isWordChar ((Text.isWord_iff.mp hword).2 c List.mem_cons_self) (by decide)).symm
    have hmarked := markedWord?_marked hword optional part
    rw [← List.append_assoc] at hmarked
    rw [paramNote?, hdots, hmarked]
    simp only [Option.bind_eq_bind, Option.bind_some, hlast, Option.pure_def]
  · have hdots : Text.dropStart? "..." ("..." ++ optionalMark false ++ ' ' :: part) = some (' ' :: part) := rfl
    rw [paramNote?, hdots]
    simp only [Option.bind_eq_bind, Option.bind_some, hlast, Option.pure_def]

/-- A parameter that can be written is read back. -/
theorem ofLine_param {note : ParamNote} (h : note.isWritable = true) :
    Directive.ofLine (annotationLine "param" [note.name ++ optionalMark note.optional, note.type]) = .param note := by
  simp only [ParamNote.isWritable, Bool.and_eq_true, Bool.or_eq_true, Bool.not_eq_true', beq_iff_eq] at h
  obtain ⟨hname, htype, hspan⟩ := h
  have hmarked : isLastPart (note.name ++ optionalMark note.optional) = true := by
    obtain hword | ⟨hdots, hmark⟩ := hname
    · exact Text.isLastPart_of_isPhrase (isPhrase_marked hword _)
    · rw [hdots, hmark]
      decide
  have hread := paramNote?_of_name hname htype
  rw [hspan] at hread
  have htag : ∀ body, tagged? "param" body = (paramNote? body).map .param := fun _ => rfl
  rw [ofLine_annotationLine (by decide) (List.cons_ne_nil _ _) (forall_mem_pair hmarked htype), join_pair, htag, hread]
  rfl

/-! ## Fields -/

/-- A field that can be written is read back. -/
theorem ofLine_writtenField {note : FieldNote} (h : note.isWritable = true) :
    Directive.ofLine note.line = .field note := by
  obtain ⟨name, type, optional, description⟩ := note
  simp only [FieldNote.isWritable, Bool.and_eq_true, Bool.not_eq_true', List.contains_eq_mem,
    decide_eq_false_iff_not] at h
  obtain ⟨⟨hname, hscope⟩, htype, hkind⟩ := h
  cases description with
  | none =>
    rw [Bool.or_eq_true, Bool.not_eq_true'] at hkind
    have htexts : ∀ text ∈ type :: (none : Option Text).toList, isLastPart text = true := by simpa using htype
    rw [ofLine_field hname hscope htexts, Option.toList_none, Text.join_singleton,
      FieldNote.ofParts_of_not_prose optional (hkind.imp_right Text.cutCapitalised?_eq_none)]
  | some prose =>
    simp only [Bool.and_eq_true, Bool.not_eq_true'] at hkind
    obtain ⟨⟨hprose, hstart⟩, hplain, hfunction⟩ := hkind
    have htrim : Text.strip type = type := (Text.isLastPart_iff.mp htype).2.1
    have hproseTrim : Text.strip (' ' :: prose) = prose :=
      (Text.strip_blanks_append Text.isBlank_of_mem_space prose).trans (Text.isLastPart_iff.mp hprose).2.1
    -- The space between type and description is the first one with a capitalised word behind it.
    have hcut := Text.cutCapitalised?_append hplain hstart
    have hparts : FieldNote.ofParts name optional (type ++ ' ' :: prose) = ⟨name, type, optional, some prose⟩ := by
      rw [FieldNote.ofParts, if_neg (Bool.eq_false_iff.mp hfunction), hcut]
      dsimp only
      rw [htrim, hproseTrim]
    have hjoin : Text.join " " (type :: (some prose).toList) = type ++ ' ' :: prose := join_pair type prose
    rw [ofLine_field hname hscope (forall_mem_pair htype hprose), hjoin, hparts]

/-! ## Tables -/

/-- A path without a blank behind its first name declares no function, even when that name starts like the keyword. -/
theorem declaredFunction?_of_path {outer : Text} (houter : isWord outer = true) (rest : Text) :
    declaredFunction? (outer ++ '.' :: rest) = none := by
  cases hstart : Text.dropStart? "function" (outer ++ '.' :: rest) with
  | none =>
    rw [declaredFunction?, hstart]
    rfl
  | some tail =>
    -- The keyword is read inside the first name, and what follows it is the rest of that name or the dot.
    have hwhole := Text.dropStart?_eq_some_iff.mp hstart
    have hprefix : "function".toList <+: outer :=
      Text.isPrefix_of_not_mem ⟨tail, hwhole.symm⟩ (Text.not_mem_of_isWord (by decide) (by decide))
    obtain ⟨name, rfl⟩ := hprefix
    rw [List.append_assoc] at hwhole
    have htail : tail = name ++ '.' :: rest := (List.append_cancel_left hwhole).symm
    have hblank : tail.head?.any isBlank = false := by
      have hdot : isBlank '.' = false := by decide
      rw [htail]
      cases name with
      | nil => simpa using hdot
      | cons c name => simpa using Text.isBlank_of_mem_isWord houter c (by simp)
    have hnone : afterBlanks? tail = none := if_neg (by simp [hblank])
    rw [declaredFunction?, hstart, Option.bind_eq_bind, Option.bind_some, hnone]
    rfl

/-- The assignment of an empty table is read. -/
theorem emptyTable?_append {outer inner : Text} (houter : isWord outer = true) (hinner : isWord inner = true) :
    emptyTable? (outer ++ '.' :: (inner ++ " = \x7b\x7d")) = some (outer, inner) := by
  have hdot : isWordChar '.' = false := by decide
  have hspace : isWordChar ' ' = false := by decide
  have hfirst : word? (outer ++ '.' :: (inner ++ " = \x7b\x7d")) = some (outer, '.' :: (inner ++ " = \x7b\x7d")) :=
    word?_append houter (by simp [hdot])
  have hsecond : word? (inner ++ " = \x7b\x7d") = some (inner, " = \x7b\x7d".toList) :=
    word?_append hinner (by simp [hspace])
  have hmark : Text.dropStart? "." ('.' :: (inner ++ " = \x7b\x7d")) = some (inner ++ " = \x7b\x7d") := rfl
  simp only [emptyTable?, hfirst, hmark, hsecond, Option.bind_eq_bind, Option.bind_some]
  rfl

/-- The assignment of an empty table is read back. -/
theorem ofLine_nested {outer inner : Text} (houter : isWord outer = true) (hinner : isWord inner = true) :
    Directive.ofLine (outer ++ "." ++ inner ++ " = \x7b\x7d") = .nested outer inner := by
  have hbraces : " = \x7b\x7d".toList = " = \x7b".toList ++ ['\x7d'] := rfl
  have htrim : Text.strip (outer ++ "." ++ inner ++ " = \x7b\x7d") = outer ++ "." ++ inner ++ " = \x7b\x7d" := by
    have hends := Text.strip_append_append (m := "." ++ inner ++ " = \x7b") (t := ['\x7d'])
      (Text.strip_of_isWord houter) (by decide) (Text.isWord_iff.mp houter).1 (List.cons_ne_nil _ _)
    rw [hbraces]
    simpa only [List.append_assoc] using hends
  have hwhole : outer ++ "." ++ inner ++ " = \x7b\x7d" = outer ++ '.' :: (inner ++ " = \x7b\x7d") := by
    simp
  rw [Directive.ofLine, htrim, hwhole, declaredFunction?_of_path houter, emptyTable?_append houter hinner]

/-! ## Every line -/

/-- A directive that can be written is read back from its line. -/
theorem map_ofLine_of_isWritable {path : List Text} {d : Directive} (h : d.isWritable = true)
    (hpath : ∀ name ∈ path, isWord name = true) : (d.line? path).map Directive.ofLine = some d := by
  match d, h with
  | .classStart name, h => exact congrArg some (ofLine_classStart h)
  | .exportHint name, h => exact congrArg some (ofLine_exportHint h)
  | .alias name body, h =>
    obtain ⟨hname, hbody⟩ := Bool.and_eq_true_iff.mp h
    exact congrArg some (ofLine_alias hname hbody)
  | .param note, h => exact congrArg some (ofLine_param h)
  | .returns type, h =>
    obtain ⟨htype, hclean⟩ := Bool.and_eq_true_iff.mp h
    have hread := ofLine_returns htype
    rw [beq_iff_eq.mp hclean] at hread
    exact congrArg some hread
  | .indexField key value, h =>
    obtain ⟨hkey, hvalue⟩ := Bool.and_eq_true_iff.mp h
    exact congrArg some (ofLine_indexField hkey hvalue)
  | .field note, h => exact congrArg some (ofLine_writtenField h)
  | .description text, h =>
    obtain ⟨htext, hmark⟩ := Bool.and_eq_true_iff.mp h
    exact congrArg some (ofLine_description htext (bne_iff_ne.mp hmark))
  | .function d, h =>
    simp only [Directive.isWritable, DeclaredFunction.isWritable, Bool.and_eq_true, List.all_eq_true] at h
    obtain ⟨⟨hclass, hmethod⟩, hparams⟩ := h
    have hread := ofLine_declaration hpath hclass hmethod hparams []
    rw [List.append_nil] at hread
    exact congrArg some hread
  | .nested outer inner, h =>
    obtain ⟨houter, hinner⟩ := Bool.and_eq_true_iff.mp h
    exact congrArg some (ofLine_nested houter hinner)

/-- Blanks around a line make no difference. -/
theorem ofLine_blanks {before after : Text} (hbefore : ∀ c ∈ before, isBlank c = true)
    (hafter : ∀ c ∈ after, isBlank c = true) (line : Text) :
    Directive.ofLine (before ++ line ++ after) = Directive.ofLine line := by
  rw [← ofLine_strip, Text.strip_append_blanks hafter, Text.strip_blanks_append hbefore, ofLine_strip]

/-- **Directives are read back.** Every directive that can be written has a line, and with any blanks around it that line
says this directive, whatever path of names stands in front of the class of a declaration. -/
theorem Directive.ofLine_of_isWritable {path : List Text} {d : Directive} (h : d.isWritable = true)
    (hpath : ∀ name ∈ path, isWord name = true) {before after : Text} (hbefore : ∀ c ∈ before, isBlank c = true)
    (hafter : ∀ c ∈ after, isBlank c = true) :
    (d.line? path).map (fun line => Directive.ofLine (before ++ line ++ after)) = some d := by
  simp only [ofLine_blanks hbefore hafter]
  exact map_ofLine_of_isWritable h hpath

/-- An optional field with a description, and a method that is declared behind a path, are read back from indented
lines. -/
theorem Directive.ofLine_of_isWritable_of_members :
    (Directive.function ⟨"Panel", "resize", ["width", "..."], true⟩).line? ["ui"] =
        some "function ui.Panel:resize(width, ...)" ∧
      ((Directive.function ⟨"Panel", "resize", ["width", "..."], true⟩).line? ["ui"]).map
          (fun line => Directive.ofLine ("\t" ++ line ++ " ")) =
        some (.function ⟨"Panel", "resize", ["width", "..."], true⟩) ∧
      (Directive.field ⟨"width", "number|nil", true, some "Width in pixels"⟩).line? [] =
        some "---@field width? number|nil Width in pixels" ∧
      ((Directive.field ⟨"width", "number|nil", true, some "Width in pixels"⟩).line? []).map
          (fun line => Directive.ofLine ("\t" ++ line ++ " ")) =
        some (.field ⟨"width", "number|nil", true, some "Width in pixels"⟩) := by
  have htab : ∀ c ∈ ['\t'], isBlank c = true := List.forall_mem_singleton.mpr (by decide)
  have hspace := Text.isBlank_of_mem_space
  exact ⟨by decide, Directive.ofLine_of_isWritable (by decide) (by decide) htab hspace,
    by decide, Directive.ofLine_of_isWritable (by decide) (by decide) htab hspace⟩

end LuaTypings.Source
