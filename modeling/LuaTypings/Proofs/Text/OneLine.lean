import LuaTypings.Proofs.Text.Lines

/-!
# Texts on one line

Whatever is cut out of a text on one line is on one line, because it has no other characters than the text
(`isOneLine_of_subset`). What is put together again stays on one line as long as nothing written in between breaks it
(`isOneLine_join`). The lines of a text are on one line each, whichever characters end them (`isOneLine_of_mem_splitLines`).
-/

namespace LuaTypings.Text

variable {s t : Text}

/-- A text that has only characters of a text on one line is on one line. -/
theorem isOneLine_of_subset (h : s ⊆ t) (ht : isOneLine t = true) : isOneLine s = true :=
  isOneLine_iff.mpr fun c hc => isOneLine_iff.mp ht c (h hc)

/-- A part of a text on one line is on one line. -/
theorem isOneLine_of_isInfix (h : s <:+: t) (ht : isOneLine t = true) : isOneLine s = true :=
  isOneLine_of_subset h.subset ht

/-- A trimmed text on one line is on one line. -/
theorem isOneLine_strip (ht : isOneLine t = true) : isOneLine (strip t) = true := isOneLine_of_isInfix (isInfix_strip t) ht

/-- Texts on one line are on one line together. -/
theorem isOneLine_append_of (hs : isOneLine s = true) (ht : isOneLine t = true) : isOneLine (s ++ t) = true := by
  rw [isOneLine_append, hs, ht]
  rfl

/-- Texts on one line are on one line with a separator between neighbours that is so too. -/
theorem isOneLine_join {separator : Text} (hsep : isOneLine separator = true) {parts : List Text}
    (h : ∀ part ∈ parts, isOneLine part = true) : isOneLine (join separator parts) = true := by
  by_cases hne : parts = []
  · rw [hne]
    rfl
  · exact join_of_append (fun _ _ => isOneLine_append_of) hsep hne h

/-! ## Pieces -/

/-- What follows a mark is on one line when the text is. -/
theorem isOneLine_of_dropStart? {mark : Text} (h : dropStart? mark t = some s) (ht : isOneLine t = true) :
    isOneLine s = true := by
  rw [dropStart?_eq_some_iff.mp h, isOneLine_append, Bool.and_eq_true] at ht
  exact ht.2

/-- What comes before a mark is on one line when the text is. -/
theorem isOneLine_of_dropEnd? {mark : Text} (h : dropEnd? mark t = some s) (ht : isOneLine t = true) :
    isOneLine s = true := by
  rw [dropEnd?_eq_some_iff.mp h, isOneLine_append, Bool.and_eq_true] at ht
  exact ht.1

/-- What stands in front of a cut and behind it has only characters of the text. -/
theorem subset_of_cutAtChar {c : Char} {rest : Option Text} (h : cutAtChar c t = (s, rest)) :
    s ⊆ t ∧ ∀ r ∈ rest, r ⊆ t := by
  rw [cutAtChar, List.span_eq_takeWhile_dropWhile] at h
  split at h
  · rename_i head hspan
    obtain ⟨rfl, rfl⟩ := Prod.mk.inj h
    obtain ⟨rfl, -⟩ := Prod.mk.inj hspan
    exact ⟨(List.takeWhile_prefix _).subset, by simp⟩
  · rename_i head d behind hspan
    obtain ⟨rfl, rfl⟩ := Prod.mk.inj h
    obtain ⟨rfl, hbehind⟩ := Prod.mk.inj hspan
    refine ⟨(List.takeWhile_prefix _).subset, ?_⟩
    rintro r ⟨⟩
    exact List.Subset.trans (List.subset_cons_self d behind) (hbehind ▸ (List.dropWhile_suffix _).subset)

/-- A line of a text is on one line. -/
theorem isOneLine_of_mem_splitLines (h : s ∈ splitLines t) : isOneLine s = true := by
  fun_induction splitLines t generalizing s with
  | case1 => cases h
  | case2 t ih | case3 c t hpair hend ih =>
    obtain rfl | h := List.mem_cons.mp h
    · rfl
    · exact ih h
  | case4 c t hpair hend hnone ih =>
    obtain rfl := List.mem_singleton.mp h
    simpa [isOneLine] using hend
  | case5 c t hpair hend line lines hlines ih =>
    rw [hlines] at ih
    obtain rfl | h := List.mem_cons.mp h
    · rw [isOneLine, List.all_cons, Bool.and_eq_true]
      exact ⟨by simpa using hend, ih List.mem_cons_self⟩
    · exact ih (List.mem_cons_of_mem line h)

end LuaTypings.Text
