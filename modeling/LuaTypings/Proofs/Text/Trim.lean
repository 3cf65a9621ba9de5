import Mathlib.Data.List.DropRight
import LuaTypings.Text.Word

/-!
# Blanks, words and trimming

No word character is blank (`isBlank_of_isWordChar`). A text is trimmed when neither of its ends is blank
(`strip_eq_self_iff`), and blanks at either end of a text make no difference to what `strip` gives
(`strip_blanks_append`, `strip_append_blanks`).
-/

namespace LuaTypings.Text

/-! ## Word characters -/

/-- Two lists of ranges in which every range of the one lies beside every range of the other have no character in
common. -/
theorem inRanges_eq_false_of_apart {r s : List (Nat × Nat)} {c : Char}
    (hapart : ∀ a ∈ r, ∀ b ∈ s, a.2 < b.1 ∨ b.2 < a.1) (hc : inRanges r c = true) : inRanges s c = false := by
  simp only [inRanges, List.any_eq_true, Bool.and_eq_true, decide_eq_true_eq] at hc
  obtain ⟨a, ha, hlo, hhi⟩ := hc
  rw [← Bool.not_eq_true]
  intro hs
  simp only [inRanges, List.any_eq_true, Bool.and_eq_true, decide_eq_true_eq] at hs
  obtain ⟨b, hb, hlo', hhi'⟩ := hs
  rcases hapart a ha b hb with h | h <;> omega

/-- The ranges of the word characters lie beside those of the blanks. -/
theorem wordRanges_apart_blankRanges : ∀ a ∈ wordRanges, ∀ b ∈ blankRanges, a.2 < b.1 ∨ b.2 < a.1 := by
  decide +kernel

/-- The English letters and digits and the underscore as ranges of code points. -/
theorem toNat_of_isAlphanum {c : Char} (h : (c.isAlphanum || c == '_') = true) :
    inRanges [(0x30, 0x39), (0x41, 0x5a), (0x5f, 0x5f), (0x61, 0x7a)] c = true := by
  unfold Char.isAlphanum Char.isAlpha Char.isUpper Char.isLower Char.isDigit at h
  simp only [Bool.or_eq_true, Bool.and_eq_true, decide_eq_true_eq, beq_iff_eq] at h
  simp only [inRanges, List.any_cons, List.any_nil, Bool.or_false, Bool.or_eq_true, Bool.and_eq_true,
    decide_eq_true_eq]
  rcases h with ((h | h) | h) | rfl
  · exact .inr (.inl ⟨h.1, h.2⟩)
  · exact .inr (.inr (.inr ⟨h.1, h.2⟩))
  · exact .inl ⟨h.1, h.2⟩
  · exact .inr (.inr (.inl ⟨by decide, by decide⟩))

/-- No word character is blank. -/
theorem isBlank_of_isWordChar {c : Char} (h : isWordChar c = true) : isBlank c = false := by
  rw [isWordChar, Bool.or_eq_true] at h
  rcases h with h | h
  · exact inRanges_eq_false_of_apart (by decide) (toNat_of_isAlphanum h)
  · rw [Bool.and_eq_true] at h
    exact inRanges_eq_false_of_apart wordRanges_apart_blankRanges h.2

/-- No capital is blank. -/
theorem isBlank_of_isCapital {c : Char} (h : isCapital c = true) : isBlank c = false := by
  rw [isCapital, Bool.and_eq_true, decide_eq_true_eq, decide_eq_true_eq] at h
  have hfirst : 'A'.toNat ≤ c.toNat := h.1
  have hlast : c.toNat ≤ 'Z'.toNat := h.2
  refine inRanges_eq_false_of_apart (r := [(0x41, 0x5a)]) (by decide) ?_
  simpa [inRanges] using ⟨hfirst, hlast⟩

/-- A blank differs from every character that is none. -/
theorem ne_of_isBlank {c d : Char} (hc : isBlank c = true) (hd : isBlank d = false) : c ≠ d := by
  rintro rfl
  rw [hc] at hd
  contradiction

/-- A word character differs from every character that is none. -/
theorem ne_of_isWordChar {c d : Char} (hc : isWordChar c = true) (hd : isWordChar d = false) : c ≠ d := by
  rintro rfl
  rw [hc] at hd
  contradiction

/-- A word is one word character or more. -/
theorem isWord_iff {t : Text} : isWord t = true ↔ t ≠ [] ∧ ∀ c ∈ t, isWordChar c = true := by
  simp [isWord]

/-- No character of a word is blank. -/
theorem isBlank_of_mem_isWord {t : Text} (h : isWord t = true) : ∀ c ∈ t, isBlank c = false :=
  fun c hc => isBlank_of_isWordChar ((isWord_iff.mp h).2 c hc)

/-- A character that is no word character does not occur in a word. -/
theorem not_mem_of_isWord {t : Text} {d : Char} (h : isWord t = true) (hd : isWordChar d = false) : d ∉ t :=
  fun hmem => ne_of_isWordChar ((isWord_iff.mp h).2 d hmem) hd rfl

/-! ## Trimming -/

/-- A text starts with no blank exactly when trimming its start leaves it alone. -/
theorem stripStart_eq_self_iff {t : Text} : stripStart t = t ↔ ∀ c ∈ t.head?, isBlank c = false := by
  cases t with
  | nil => simp [stripStart]
  | cons c t =>
    rw [stripStart, List.dropWhile_eq_self_iff]
    simp

/-- A text ends in no blank exactly when trimming its end leaves it alone. -/
theorem stripEnd_eq_self_iff {t : Text} : stripEnd t = t ↔ ∀ c ∈ t.getLast?, isBlank c = false := by
  rw [stripEnd, List.reverse_eq_iff]
  have h := stripStart_eq_self_iff (t := t.reverse)
  rw [List.head?_reverse] at h
  exact h

/-- Trimming the end of a text leaves a text that the whole one starts with. -/
theorem isPrefix_stripEnd (t : Text) : stripEnd t <+: t := List.rdropWhile_prefix isBlank t

/-- A text that does not start with a blank is shortened at its end only. -/
theorem isPrefix_strip {t : Text} (h : ∀ c ∈ t.head?, isBlank c = false) : strip t <+: t := by
  rw [strip, stripStart_eq_self_iff.mpr h]
  exact isPrefix_stripEnd t

/-- What trimming gives is a part of the text. -/
theorem isInfix_strip (t : Text) : strip t <:+: t :=
  (isPrefix_stripEnd (stripStart t)).isInfix.trans (List.dropWhile_suffix isBlank).isInfix

/-- What trimming gives is no longer than the text. -/
theorem length_strip_le (t : Text) : (strip t).length ≤ t.length := by
  have hStart : (stripStart t).length ≤ t.length := (List.dropWhile_suffix isBlank).length_le
  exact le_trans (isPrefix_stripEnd (stripStart t)).length_le hStart

/-- A text is trimmed exactly when neither of its ends is blank. -/
theorem strip_eq_self_iff {t : Text} :
    strip t = t ↔ (∀ c ∈ t.head?, isBlank c = false) ∧ ∀ c ∈ t.getLast?, isBlank c = false := by
  constructor
  · intro h
    -- Trimming the end cannot make up for a blank that is lost at the start.
    have hStart : stripStart t = t := by
      refine (List.dropWhile_suffix isBlank).eq_of_length_le ?_
      calc t.length = (strip t).length := by rw [h]
        _ ≤ (stripStart t).length := (isPrefix_stripEnd (stripStart t)).length_le
    refine ⟨stripStart_eq_self_iff.mp hStart, stripEnd_eq_self_iff.mp ?_⟩
    rwa [strip, hStart] at h
  · rintro ⟨hhead, hlast⟩
    rw [strip, stripStart_eq_self_iff.mpr hhead, stripEnd_eq_self_iff.mpr hlast]

/-- A text ends as what stands behind one of its characters does. -/
theorem mem_getLast?_append_cons {s t : Text} {c d : Char} (h : d ∈ t.getLast?) : d ∈ (s ++ c :: t).getLast? := by
  rw [List.getLast?_append, List.getLast?_cons, show t.getLast? = some d from h]
  rfl

/-- An end of a text that does not end in a blank does not end in one either. -/
theorem isBlank_getLast_of_isSuffix {s t : Text} (h : s <:+ t) (ht : ∀ c ∈ t.getLast?, isBlank c = false) :
    ∀ c ∈ s.getLast?, isBlank c = false := by
  obtain ⟨front, rfl⟩ := h
  intro c hc
  refine ht c ?_
  rw [List.getLast?_append, Option.mem_def.mp hc]
  rfl

/-- A text without blanks is trimmed. -/
theorem strip_of_not_blank {t : Text} (h : ∀ c ∈ t, isBlank c = false) : strip t = t :=
  strip_eq_self_iff.mpr ⟨fun c hc => h c (List.mem_of_mem_head? hc), fun c hc => h c (List.mem_of_mem_getLast? hc)⟩

/-- A word is trimmed. -/
theorem strip_of_isWord {t : Text} (h : isWord t = true) : strip t = t := strip_of_not_blank (isBlank_of_mem_isWord h)

/-- Blanks in front of a text are trimmed away. -/
theorem strip_blanks_append {w : Text} (hw : ∀ c ∈ w, isBlank c = true) (t : Text) : strip (w ++ t) = strip t := by
  rw [strip, stripStart, List.dropWhile_append_of_pos hw]
  rfl

/-- Blanks behind a text are trimmed away from its end. -/
theorem stripEnd_append_blanks {w : Text} (hw : ∀ c ∈ w, isBlank c = true) (t : Text) :
    stripEnd (t ++ w) = stripEnd t := by
  have hw' : ∀ c ∈ w.reverse, isBlank c = true := fun c hc => hw c (List.mem_reverse.mp hc)
  rw [stripEnd, List.reverse_append, List.dropWhile_append_of_pos hw']
  rfl

/-- Blanks behind a text are trimmed away. -/
theorem strip_append_blanks {w : Text} (hw : ∀ c ∈ w, isBlank c = true) (t : Text) : strip (t ++ w) = strip t := by
  rw [strip, strip, stripStart, stripStart, List.dropWhile_append]
  split
  · -- Nothing but blanks: the blanks behind them go with the start already.
    rename_i hempty
    rw [List.isEmpty_iff.mp hempty, List.dropWhile_eq_nil_iff.mpr hw]
  · exact stripEnd_append_blanks hw _

/-- Only blanks are trimmed from the end of a text. -/
theorem exists_stripEnd_append (t : Text) : ∃ w, (∀ c ∈ w, isBlank c = true) ∧ stripEnd t ++ w = t := by
  refine ⟨(t.reverse.takeWhile isBlank).reverse, fun c hc => ?_, ?_⟩
  · exact List.all_eq_true.mp List.all_takeWhile c (List.mem_reverse.mp hc)
  · rw [stripEnd, ← List.reverse_append, List.takeWhile_append_dropWhile, List.reverse_reverse]

/-- Trimming the end first makes no difference. -/
theorem strip_stripEnd (t : Text) : strip (stripEnd t) = strip t := by
  obtain ⟨w, hw, ht⟩ := exists_stripEnd_append t
  calc strip (stripEnd t) = strip (stripEnd t ++ w) := (strip_append_blanks hw _).symm
    _ = strip t := by rw [ht]

/-- Only blanks at the two ends are trimmed from a text. -/
theorem exists_append_strip_append (t : Text) :
    ∃ v w, (∀ c ∈ v, isBlank c = true) ∧ (∀ c ∈ w, isBlank c = true) ∧ v ++ strip t ++ w = t := by
  obtain ⟨w, hw, ht⟩ := exists_stripEnd_append (stripStart t)
  refine ⟨t.takeWhile isBlank, w, fun c hc => List.all_eq_true.mp List.all_takeWhile c hc, hw, ?_⟩
  rw [strip, List.append_assoc, ht]
  exact List.takeWhile_append_dropWhile

/-- A text of which nothing is left is blank. -/
theorem isBlank_of_strip_eq_nil {t : Text} (h : strip t = []) : ∀ c ∈ t, isBlank c = true := by
  obtain ⟨v, w, hv, hw, ht⟩ := exists_append_strip_append t
  rw [h, List.append_nil] at ht
  rw [← ht]
  exact List.forall_mem_append.mpr ⟨hv, hw⟩

/-- Nothing is left of a text exactly when it is blank. -/
theorem strip_eq_nil_iff {t : Text} : strip t = [] ↔ ∀ c ∈ t, isBlank c = true := by
  refine ⟨isBlank_of_strip_eq_nil, fun h => ?_⟩
  have hblank := strip_blanks_append h []
  rwa [List.append_nil] at hblank

/-- Only blanks are trimmed from a text. -/
theorem exists_strip_append (t : Text) : ∃ w, (∀ c ∈ w, isBlank c = true) ∧ strip t ++ w <:+ t := by
  obtain ⟨v, w, -, hw, ht⟩ := exists_append_strip_append t
  rw [List.append_assoc] at ht
  exact ⟨w, hw, v, ht⟩

/-- Trimming a second time changes nothing. -/
theorem strip_strip (t : Text) : strip (strip t) = strip t := by
  calc strip (strip t) = strip (stripStart t) := strip_stripEnd _
    _ = strip t := by rw [strip, strip, stripStart, stripStart, List.dropWhile_idempotent]

/-- What trimming gives starts with no blank. -/
theorem isBlank_of_strip_eq_cons {t u : Text} {c : Char} (h : strip t = c :: u) : isBlank c = false :=
  (strip_eq_self_iff.mp (strip_strip t)).1 c (by simp [h])

/-- A text is trimmed at its end behind its characters that are not blank. -/
theorem stripEnd_append_cons {c : Char} (hc : isBlank c = false) (s t : Text) :
    stripEnd (s ++ c :: t) = s ++ c :: stripEnd t := by
  rw [stripEnd, List.reverse_append, List.reverse_cons, List.append_assoc, List.dropWhile_append, stripEnd]
  split
  · rename_i hempty
    rw [List.isEmpty_iff.mp hempty, List.singleton_append, List.dropWhile_cons_of_neg (by simp [hc])]
    simp
  · simp

/-- Behind a first character that is not blank only the end is trimmed. -/
theorem strip_cons {c : Char} (hc : isBlank c = false) (t : Text) : strip (c :: t) = c :: stripEnd t := by
  rw [strip, stripStart, List.dropWhile_cons_of_neg (by simp [hc])]
  exact stripEnd_append_cons hc [] t

/-- A space is blank. -/
theorem isBlank_of_mem_space : ∀ c ∈ [' '], isBlank c = true := List.forall_mem_singleton.mpr (by decide)

/-- A text that starts as a trimmed one does and ends as another one does is trimmed. -/
theorem strip_append_append {s m t : Text} (hs : strip s = s) (ht : strip t = t) (hs' : s ≠ []) (ht' : t ≠ []) :
    strip (s ++ m ++ t) = s ++ m ++ t := by
  refine strip_eq_self_iff.mpr ⟨?_, ?_⟩
  · rw [List.append_assoc, List.head?_append_of_ne_nil _ hs']
    exact (strip_eq_self_iff.mp hs).1
  · rw [List.getLast?_append_of_ne_nil _ ht']
    exact (strip_eq_self_iff.mp ht).2

/-- Only blanks at its start are trimmed from a text that does not end in a blank. -/
theorem exists_append_strip_of_getLast? {s : Text} (hs : ∀ c ∈ s.getLast?, isBlank c = false) :
    ∃ v, (∀ c ∈ v, isBlank c = true) ∧ v ++ strip s = s := by
  obtain ⟨v, w, hv, hw, hwhole⟩ := exists_append_strip_append s
  -- The text does not end in the blanks that are trimmed from its end.
  have hnil : w = [] := by
    rcases List.eq_nil_or_concat w with h | ⟨w', c, rfl⟩
    · exact h
    · have hlast : s.getLast? = some c := by
        rw [← hwhole, List.concat_eq_append, ← List.append_assoc, List.getLast?_concat]
      exact absurd (hw c (by simp)) (by simp [hs c hlast])
  rw [hnil, List.append_nil] at hwhole
  exact ⟨v, hv, hwhole⟩

/-- A text that does not end in a blank ends as the trimmed text does. -/
theorem getLast?_strip {s : Text} {c : Char} (h : s.getLast? = some c) (hc : isBlank c = false) :
    (strip s).getLast? = some c := by
  have hend : ∀ d ∈ s.getLast?, isBlank d = false := fun d hd => Option.some.inj (h.symm.trans hd) ▸ hc
  obtain ⟨v, -, hwhole⟩ := exists_append_strip_of_getLast? hend
  have hne : strip s ≠ [] := by
    intro hnil
    have hblank := isBlank_of_strip_eq_nil hnil c (List.mem_of_mem_getLast? h)
    rw [hc] at hblank
    cases hblank
  rwa [← hwhole, List.getLast?_append_of_ne_nil _ hne] at h

/-- A text that does not end in a blank is trimmed at its start only, when a trimmed text stands behind it. -/
theorem strip_append_of_getLast? {s t : Text} (hs : ∀ c ∈ s.getLast?, isBlank c = false) (ht : strip t = t)
    (hne : t ≠ []) : strip (s ++ t) = strip s ++ t := by
  obtain ⟨v, hv, hwhole⟩ := exists_append_strip_of_getLast? hs
  calc strip (s ++ t) = strip (v ++ (strip s ++ t)) := by rw [← List.append_assoc, hwhole]
    _ = strip (strip s ++ t) := strip_blanks_append hv _
    _ = strip s ++ t := by
      by_cases hstrip : strip s = []
      · rw [hstrip, List.nil_append, ht]
      · have hends := strip_append_append (m := []) (strip_strip s) ht hstrip hne
        rwa [List.append_nil] at hends

end LuaTypings.Text
