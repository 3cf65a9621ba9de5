import LuaTypings.Proofs.Model.OneLine
import LuaTypings.Proofs.Source.ReadBack
import LuaTypings.Proofs.TypeText.LeadingWords
import LuaTypings.Proofs.TypeText.Prose

/-!
# The type of a field and of a parameter

A solid type is one word of a line: it starts with a word character, its brackets are balanced, and all its blanks stand
inside them. The line of a parameter counts brackets and records a solid type as it stands (`spanType_of_isSolid`). The
line of a field looks for a capitalised word behind a space, whether a bracket is open there or not. It records a solid
type as it stands when that is a function type or has no such word; any other one is cut inside its brackets
(`ofLine_of_isSolid`).
-/

namespace LuaTypings

open Text (isWord isWordChar isBlank isLastPart hasCapitalised startsCapitalised)

/-! ## Solid types -/

namespace TypeText

/-- A type that is one word of a line. -/
structure IsSolid (t : Text) : Prop where
  /-- The first character is a word character. -/
  starts : t.head?.any isWordChar = true
  /-- No bracket is closed that is not open, and none is left open. -/
  balanced : isBalanced t = true
  /-- Every blank stands inside a bracket. -/
  unbroken : isUnbroken isBlank 0 t = true
  /-- The type is on one line. -/
  lineFeed : '\n' ∉ t

variable {t : Text}

/-- A solid type is not empty. -/
theorem IsSolid.ne_nil (h : IsSolid t) : t ≠ [] := by
  rintro rfl
  cases h.starts

/-- A solid type has no blanks at its ends: no bracket is open there. -/
theorem IsSolid.strip (h : IsSolid t) : Text.strip t = t :=
  Text.strip_eq_self_iff.mpr ⟨isBlank_head_of_isUnbroken h.unbroken,
    isBlank_getLast_of_isUnbroken h.unbroken (openAfter_of_isBalanced h.balanced)⟩

/-- A solid type can be the last part of a line. -/
theorem IsSolid.isLastPart (h : IsSolid t) : isLastPart t = true :=
  Text.isLastPart_iff.mpr ⟨h.ne_nil, h.strip, h.lineFeed⟩

/-- A solid type is all type, without free text behind it. -/
theorem spanType_of_isSolid (h : IsSolid t) : spanType t = (t, []) := by
  have hwords : topLevelWords t = [t] := topPartsBy_of_isUnbroken h.unbroken h.ne_nil h.strip
  rw [spanType, hwords]
  exact congrArg (·, []) (Text.join_singleton " " t)

/-- A bracket is open in front of a blank that separates no words. -/
theorem openAfter_pos_of_isUnbroken {front rest : Text} {c : Char} (hc : isBlank c = true)
    (h : isUnbroken isBlank 0 (front ++ c :: rest) = true) : 0 < openAfter 0 front := by
  rw [isUnbroken_append_openAfter, isUnbroken, isTopSeparator_isBlank, hc] at h
  by_contra hzero
  have hdepth : openAfter 0 front = 0 := by omega
  simp [hdepth] at h

end TypeText

/-! ## Cut types -/

namespace Source

open TypeText (IsSolid isFunctionText openAfter isBalanced)

variable {name type : Text}

/-- A text with a capitalised word behind a space is cut in front of the first one. -/
theorem exists_cutCapitalised?_eq {t : Text} (h : hasCapitalised t = true) :
    ∃ head x u, Text.cutCapitalised? t = some (head, ' ' :: x :: u) ∧ t = head ++ ' ' :: x :: u ∧
      hasCapitalised head = false ∧ startsCapitalised (' ' :: x :: u) = true ∧ Text.isCapital x = true := by
  have hbefore := Text.hasCapitalised_beforeCapitalised t
  rw [Text.beforeCapitalised] at hbefore
  cases hcut : Text.cutCapitalised? t with
  | none =>
    rw [hcut] at hbefore
    exact absurd (h.symm.trans hbefore) Bool.noConfusion
  | some parts =>
    obtain ⟨head, rest⟩ := parts
    rw [hcut] at hbefore
    have hstarts := Text.startsCapitalised_of_cutCapitalised? hcut
    obtain ⟨x, y, hx, -, u, rfl⟩ := Text.startsCapitalised_iff.mp hstarts
    exact ⟨head, x, y :: u, rfl, (TypeText.append_of_cutCapitalised? hcut).symm, hbefore, hstarts, hx⟩

/-- Where a text without blanks at its ends is cut in front of a capitalised word, blanks stand at the cut only. -/
theorem strip_cut {head u : Text} {x : Char} (hx : Text.isCapital x = true)
    (htrim : Text.strip (head ++ ' ' :: x :: u) = head ++ ' ' :: x :: u) :
    Text.strip head = Text.stripEnd head ∧ Text.strip (' ' :: x :: u) = x :: u := by
  obtain ⟨hfirst, hlast⟩ := Text.strip_eq_self_iff.mp htrim
  constructor
  · have hhead : ∀ c ∈ head.head?, isBlank c = false := by
      intro c hc
      refine hfirst c ?_
      rw [List.head?_append, hc, Option.some_or]
      rfl
    rw [Text.strip, Text.stripStart_eq_self_iff.mpr hhead]
  · refine (Text.strip_blanks_append Text.isBlank_of_mem_space (x :: u)).trans (Text.strip_eq_self_iff.mpr ⟨?_, ?_⟩)
    · rintro c ⟨⟩
      exact Text.isBlank_of_isCapital hx
    · exact fun c hc => hlast c (Text.mem_getLast?_append_cons hc)

/-- A type with a capitalised word in it that is no function type is cut in front of the first one. -/
theorem FieldNote.exists_ofParts_eq (htype : IsSolid type) (hplain : isFunctionText type = false)
    (hcapital : hasCapitalised type = true) (name : Text) (optional : Bool) :
    ∃ kept blanks prose : Text, type = kept ++ blanks ++ ' ' :: prose ∧ (∀ c ∈ blanks, isBlank c = true) ∧
      hasCapitalised (kept ++ blanks) = false ∧ startsCapitalised (' ' :: prose) = true ∧
      FieldNote.ofParts name optional type = ⟨name, kept, optional, some prose⟩ := by
  obtain ⟨head, x, u, hcut, htext, hbefore, hstarts, hx⟩ := exists_cutCapitalised?_eq hcapital
  obtain ⟨hhead, hprose⟩ := strip_cut hx (htext ▸ htype.strip)
  obtain ⟨blanks, hblanks, hkept⟩ := Text.exists_stripEnd_append head
  refine ⟨Text.stripEnd head, blanks, x :: u, ?_, hblanks, by rwa [hkept], hstarts, ?_⟩
  · rw [hkept, htext]
  · rw [FieldNote.ofParts, hplain, if_neg Bool.false_ne_true, hcut]
    dsimp only
    rw [hhead, hprose]

/-- **The type of a field and of a parameter.** The line of a parameter records a solid type as it stands. The line of a
field does so exactly when the type is a function type or has no capitalised word behind a space. Otherwise it records
what stands in front of the first such word, where a bracket is still open, and takes the word and all behind it for a
description. -/
theorem ofLine_of_isSolid (hname : isWord name = true) (hscope : name ∉ fieldScopes) (optional : Bool)
    (htype : IsSolid type) :
    Directive.ofLine (annotationLine "param" [name ++ optionalMark optional, type]) = .param ⟨name, type, optional⟩ ∧
      (Directive.ofLine (annotationLine "field" [name ++ optionalMark optional, type]) =
          .field ⟨name, type, optional, none⟩ ↔ isFunctionText type = true ∨ hasCapitalised type = false) ∧
      (isFunctionText type = false → hasCapitalised type = true → ∃ kept blanks prose : Text,
        type = kept ++ blanks ++ ' ' :: prose ∧ (∀ c ∈ blanks, isBlank c = true) ∧
          hasCapitalised (kept ++ blanks) = false ∧ startsCapitalised (' ' :: prose) = true ∧
          0 < openAfter 0 kept ∧
          Directive.ofLine (annotationLine "field" [name ++ optionalMark optional, type]) =
            .field ⟨name, kept, optional, some prose⟩) := by
  have hfield : Directive.ofLine (annotationLine "field" [name ++ optionalMark optional, type]) =
      .field (.ofParts name optional type) := by
    have hread := @ofLine_field ⟨name, type, optional, none⟩ hname hscope
      (List.forall_mem_singleton.mpr htype.isLastPart)
    rwa [FieldNote.line, Option.toList_none, Text.join_singleton] at hread
  have hparam : ParamNote.isWritable ⟨name, type, optional⟩ = true := by
    simp [ParamNote.isWritable, hname, htype.isLastPart, TypeText.spanType_of_isSolid htype]
  refine ⟨@ofLine_param ⟨name, type, optional⟩ hparam, ?_, fun hplain hcapital => ?_⟩
  · rw [hfield]
    constructor
    · intro hkept
      by_contra hcut
      rw [not_or, Bool.not_eq_true, Bool.not_eq_false] at hcut
      obtain ⟨kept, blanks, prose, -, -, -, -, hparts⟩ :=
        FieldNote.exists_ofParts_eq htype hcut.1 hcut.2 name optional
      rw [hparts] at hkept
      cases hkept
    · intro h
      rw [FieldNote.ofParts_of_not_prose optional (h.imp_right Text.cutCapitalised?_eq_none)]
  · obtain ⟨kept, blanks, prose, hsplit, hblanks, hbefore, hstarts, hparts⟩ :=
      FieldNote.exists_ofParts_eq htype hplain hcapital name optional
    have hopen : 0 < openAfter 0 (kept ++ blanks) :=
      TypeText.openAfter_pos_of_isUnbroken (by decide) (hsplit ▸ htype.unbroken)
    rw [TypeText.openAfter_append, TypeText.openAfter_of_blanks hblanks] at hopen
    exact ⟨kept, blanks, prose, hsplit, hblanks, hbefore, hstarts, hopen, hfield.trans (congrArg _ hparts)⟩

/-- A function type keeps the capitalised class in its parameters. -/
theorem ofLine_of_isSolid_of_function :
    isWord "x".toList = true ∧ "x".toList ∉ fieldScopes ∧ IsSolid "fun(a: Vec)" ∧
      Directive.ofLine "---@param x? fun(a: Vec)" = .param ⟨"x", "fun(a: Vec)", true⟩ ∧
      Directive.ofLine "---@field x? fun(a: Vec)" = .field ⟨"x", "fun(a: Vec)", true, none⟩ := by
  have hsolid : IsSolid "fun(a: Vec)" := ⟨by decide, by decide, by decide, by decide⟩
  have h := @ofLine_of_isSolid "x" _ (by decide) (by decide) true hsolid
  exact ⟨by decide, by decide, hsolid, h.1, h.2.1.mpr (.inl (by decide))⟩

/-- A table of a capitalised class is cut behind its comma, in the line of a field only. -/
theorem ofLine_of_isSolid_differently :
    IsSolid "table<string, Vector>" ∧
      Directive.ofLine "---@param x table<string, Vector>" = .param ⟨"x", "table<string, Vector>", false⟩ ∧
      Directive.ofLine "---@field x table<string, Vector>" = .field ⟨"x", "table<string,", false, some "Vector>"⟩ :=
  ⟨⟨by decide, by decide, by decide, by decide⟩, by decide, by decide⟩

end Source

end LuaTypings
