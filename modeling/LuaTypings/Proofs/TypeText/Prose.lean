import LuaTypings.Proofs.Text.Cut
import LuaTypings.Proofs.Text.Lines
import LuaTypings.Proofs.TypeText.Operands

/-!
# What cleaning leaves of a return text

A return text is cleaned by one cut after another. What the cuts leave has no comment mark, no capitalised word and no
two types in a row (`isClean_withoutProse`), and of all these a part of the text has none either. The one cut that may
find something to do again is the last: a cleaned text can still end in a word that looks like prose. A second cleaning is
therefore nothing but that cut (`withoutProse_withoutProse`), and it leaves nothing for a third
(`withoutProse_thrice`).
-/

namespace LuaTypings

namespace Text

/-! ## Marks -/

/-- What stands before the first occurrence of a mark does not hold the mark. -/
theorem not_isInfix_before {mark : Text} (hmark : mark ≠ []) (t : Text) : ¬ mark <:+: before mark t := by
  induction t with
  | nil => simp [before, cutAt?, hmark]
  | cons c t ih =>
    by_cases h : mark <+: c :: t
    · rw [before_of_isPrefix h]
      simp [hmark]
    · rw [before_cons_of_not_isPrefix h, List.infix_cons_iff, not_or]
      exact ⟨fun hfirst => h (hfirst.trans (List.cons_prefix_cons.mpr ⟨rfl, isPrefix_before mark t⟩)), ih⟩

/-- A text that does not hold a mark is all before it. -/
theorem before_eq_self {mark t : Text} (h : ¬ mark <:+: t) : before mark t = t := by
  have hnone : cutAt? mark t = none := by
    rw [Option.eq_none_iff_forall_ne_some]
    rintro ⟨head, rest⟩ hcut
    exact h ⟨head, rest, by rw [eq_append_of_cutAt? hcut, List.append_assoc]⟩
  rw [before, hnone]

/-- A mark that starts with another character is not found at the start. -/
theorem before_cons {m c : Char} (hne : m ≠ c) (mark t : Text) :
    before (m :: mark) (c :: t) = c :: before (m :: mark) t :=
  before_cons_of_not_isPrefix fun h => hne (List.cons_prefix_cons.mp h).1

/-- A mark in the text is found there, whatever follows the text. -/
theorem before_append_of_isInfix {mark t : Text} (h : mark <:+: t) (u : Text) : before mark (t ++ u) = before mark t := by
  induction t with
  | nil =>
    obtain rfl := List.infix_nil.mp h
    rw [before_of_isPrefix List.nil_prefix, before_of_isPrefix List.nil_prefix]
  | cons c t ih =>
    by_cases hfirst : mark <+: c :: t
    · rw [before_of_isPrefix hfirst, before_of_isPrefix (hfirst.trans (List.prefix_append (c :: t) u))]
    · -- The mark is no longer than the text, so one that starts here does not end behind it.
      have hlonger : ¬ mark <+: c :: (t ++ u) := fun hstart =>
        hfirst (List.prefix_of_prefix_length_le hstart (List.prefix_append (c :: t) u) h.length_le)
      rw [before_cons_of_not_isPrefix hfirst, List.cons_append, before_cons_of_not_isPrefix hlonger,
        ih ((List.infix_cons_iff.mp h).resolve_left hfirst)]

/-- A mark behind a text without it is found there, when its first character does not occur in it again. -/
theorem before_append_mark {m : Char} {mark t : Text} (hm : m ∉ mark) (h : ¬ m :: mark <:+: t) (u : Text) :
    before (m :: mark) (t ++ m :: (mark ++ u)) = t := by
  induction t with
  | nil => exact before_of_isPrefix (List.prefix_append (m :: mark) u)
  | cons c t ih =>
    rw [List.infix_cons_iff, not_or] at h
    -- A mark that started earlier would hold its first character twice.
    have hfirst : ¬ m :: mark <+: c :: (t ++ m :: (mark ++ u)) := by
      intro hstart
      obtain ⟨rfl, hrest⟩ := List.cons_prefix_cons.mp hstart
      exact h.1 (List.cons_prefix_cons.mpr ⟨rfl, isPrefix_of_not_mem hrest hm⟩)
    rw [List.cons_append, before_cons_of_not_isPrefix hfirst, ih h.2]

/-! ## Capitalised words -/

/-- A text has a capitalised word where a space, a capital and a small letter are a part of it. -/
theorem hasCapitalised_iff {t : Text} : hasCapitalised t = true ↔
    ∃ x y, isCapital x = true ∧ isSmall y = true ∧ [' ', x, y] <:+: t := by
  rw [hasCapitalised, List.any_eq_true]
  constructor
  · rintro ⟨s, hs, hstarts⟩
    obtain ⟨x, y, hx, hy, hfirst⟩ := startsCapitalised_iff.mp hstarts
    exact ⟨x, y, hx, hy, hfirst.isInfix.trans ((List.mem_tails _ _).mp hs).isInfix⟩
  · rintro ⟨x, y, hx, hy, hin⟩
    obtain ⟨s, hfirst, hsuffix⟩ := List.infix_iff_prefix_suffix.mp hin
    exact ⟨s, (List.mem_tails _ _).mpr hsuffix, startsCapitalised_iff.mpr ⟨x, y, hx, hy, hfirst⟩⟩

/-- A part of a text without capitalised words has none. -/
theorem hasCapitalised_of_isInfix {s t : Text} (h : s <:+: t) (ht : hasCapitalised t = false) :
    hasCapitalised s = false := by
  rw [← Bool.not_eq_true] at ht ⊢
  intro hs
  obtain ⟨x, y, hx, hy, hin⟩ := hasCapitalised_iff.mp hs
  exact ht (hasCapitalised_iff.mpr ⟨x, y, hx, hy, hin.trans h⟩)

/-- What is left of a text before its first capitalised word. -/
def beforeCapitalised (t : Text) : Text :=
  match cutCapitalised? t with
  | some (head, _) => head
  | none => t

/-- What stands before the first capitalised word starts the text. -/
theorem isPrefix_beforeCapitalised (t : Text) : beforeCapitalised t <+: t := by
  rw [beforeCapitalised]
  cases hcut : cutCapitalised? t with
  | none => exact List.prefix_rfl
  | some parts => exact ⟨parts.2, TypeText.append_of_cutCapitalised? hcut⟩

/-- A character in front of a text that is cut goes in front of what is left. -/
theorem beforeCapitalised_cons {c : Char} {t : Text} (h : startsCapitalised (c :: t) = false) :
    beforeCapitalised (c :: t) = c :: beforeCapitalised t := by
  rw [beforeCapitalised, beforeCapitalised, cutCapitalised?_cons h]
  cases cutCapitalised? t <;> rfl

/-- What stands before the first capitalised word has none. -/
theorem hasCapitalised_beforeCapitalised (t : Text) : hasCapitalised (beforeCapitalised t) = false := by
  induction t with
  | nil => rfl
  | cons c t ih =>
    cases hstarts : startsCapitalised (c :: t) with
    | true =>
      rw [beforeCapitalised, cutCapitalised?_of_starts hstarts]
      rfl
    | false =>
      have hstart : startsCapitalised (c :: beforeCapitalised t) = false := by
        rw [← Bool.not_eq_true] at hstarts ⊢
        intro h
        obtain ⟨x, y, hx, hy, hfirst⟩ := startsCapitalised_iff.mp h
        have hcons : c :: beforeCapitalised t <+: c :: t :=
          List.cons_prefix_cons.mpr ⟨rfl, isPrefix_beforeCapitalised t⟩
        exact hstarts (startsCapitalised_iff.mpr ⟨x, y, hx, hy, hfirst.trans hcons⟩)
      rw [beforeCapitalised_cons hstarts, hasCapitalised, List.tails_cons, List.any_cons, hstart, ← hasCapitalised, ih]
      rfl

/-- A text without capitalised words is all before the first one. -/
theorem beforeCapitalised_eq_self {t : Text} (h : hasCapitalised t = false) : beforeCapitalised t = t := by
  rw [beforeCapitalised, cutCapitalised?_eq_none h]

end Text

namespace TypeText

open Text

variable {s t front word : Text}

/-! ## Types in a row -/

/-- Whether a text starts with blanks and a word character behind them. -/
def startsWithWord (t : Text) : Bool :=
  match t.span isBlank with
  | (_ :: _, d :: _) => isWordChar d
  | _ => false

/-- What a text starts with that starts with blanks and a word character. -/
theorem startsWithWord_iff : startsWithWord t = true ↔
    ∃ w d, w ≠ [] ∧ (∀ b ∈ w, isBlank b = true) ∧ isWordChar d = true ∧ w ++ [d] <+: t := by
  constructor
  · intro h
    unfold startsWithWord at h
    split at h
    · rename_i b w d u hspan
      rw [List.span_eq_takeWhile_dropWhile, Prod.mk.injEq] at hspan
      have hall : ∀ x ∈ b :: w, isBlank x = true := fun x hx => by
        rw [← hspan.1] at hx
        exact List.mem_takeWhile_imp hx
      refine ⟨b :: w, d, List.cons_ne_nil b w, hall, h, u, ?_⟩
      rw [← List.takeWhile_append_dropWhile (p := isBlank) (l := t), hspan.1, hspan.2, List.append_assoc]
      rfl
    · cases h
  · rintro ⟨w, d, hne, hw, hd, u, rfl⟩
    have hspan : (w ++ [d] ++ u).span isBlank = (w, d :: u) := by
      rw [List.append_assoc]
      exact span_append hw (by simp [isBlank_of_isWordChar hd])
    obtain ⟨b, w, rfl⟩ := List.exists_cons_of_ne_nil hne
    rw [startsWithWord, hspan]
    exact hd

/-- Two types stand in a row where blanks are between the end of a type and a word character. -/
theorem hasWordAfterType_iff : hasWordAfterType t = true ↔
    ∃ c w d, endsType c = true ∧ w ≠ [] ∧ (∀ b ∈ w, isBlank b = true) ∧ isWordChar d = true ∧ c :: (w ++ [d]) <:+: t := by
  induction t with
  | nil => simp [hasWordAfterType]
  | cons c t ih =>
    have hcons : hasWordAfterType (c :: t) = (endsType c && startsWithWord t || hasWordAfterType t) := rfl
    rw [hcons, Bool.or_eq_true, Bool.and_eq_true, startsWithWord_iff, ih]
    constructor
    · rintro (⟨hc, w, d, hne, hw, hd, hfirst⟩ | ⟨e, w, d, he, hne, hw, hd, hin⟩)
      · exact ⟨c, w, d, hc, hne, hw, hd, (List.cons_prefix_cons.mpr ⟨rfl, hfirst⟩).isInfix⟩
      · exact ⟨e, w, d, he, hne, hw, hd, hin.trans (List.suffix_cons c t).isInfix⟩
    · rintro ⟨e, w, d, he, hne, hw, hd, hin⟩
      obtain hfirst | hin := List.infix_cons_iff.mp hin
      · obtain ⟨rfl, hrest⟩ := List.cons_prefix_cons.mp hfirst
        exact .inl ⟨he, w, d, hne, hw, hd, hrest⟩
      · exact .inr ⟨e, w, d, he, hne, hw, hd, hin⟩

/-- A part of a text without two types in a row has none. -/
theorem hasWordAfterType_of_isInfix (h : s <:+: t) (ht : hasWordAfterType t = false) : hasWordAfterType s = false := by
  rw [← Bool.not_eq_true] at ht ⊢
  intro hs
  obtain ⟨c, w, d, hc, hne, hw, hd, hin⟩ := hasWordAfterType_iff.mp hs
  exact ht (hasWordAfterType_iff.mpr ⟨c, w, d, hc, hne, hw, hd, hin.trans h⟩)

/-! ## A last word of prose -/

/-- Whether a text ends in a word of prose that a single space sets off. -/
def EndsInProse (t : Text) : Prop := ∃ front word, t = front ++ ' ' :: word ∧ isWord word = true ∧ isProseWord word = true

/-- A last word of prose is dropped. -/
theorem dropProseWord_append (hword : isWord word = true) (hprose : isProseWord word = true) (front : Text) :
    dropProseWord (front ++ ' ' :: word) = strip front := by
  have hspan : (front ++ ' ' :: word).reverse.span isWordChar = (word.reverse, ' ' :: front.reverse) := by
    have hspace : isWordChar ' ' = false := by decide
    rw [List.reverse_append, List.reverse_cons, List.append_assoc]
    exact span_append (fun c hc => (isWord_iff.mp hword).2 c (List.mem_reverse.mp hc)) (by simp [hspace])
  simp only [dropProseWord, hspan, List.reverse_reverse, hprose, if_true]

/-- A text that does not end in a word of prose loses nothing. -/
theorem dropProseWord_eq_self (h : ¬ EndsInProse t) : dropProseWord t = t := by
  rw [dropProseWord]
  split
  · rename_i word rest hspan
    rw [List.span_eq_takeWhile_dropWhile, Prod.mk.injEq] at hspan
    have ht : t = rest.reverse ++ ' ' :: word.reverse := by
      rw [← List.reverse_reverse t, ← List.takeWhile_append_dropWhile (p := isWordChar) (l := t.reverse), hspan.1, hspan.2]
      simp
    refine if_neg fun hprose => h ⟨rest.reverse, word.reverse, ht, ?_, hprose⟩
    have hne : word.reverse ≠ [] := by
      intro hnil
      rw [hnil] at hprose
      cases hprose
    refine isWord_iff.mpr ⟨hne, fun c hc => ?_⟩
    rw [List.mem_reverse, ← hspan.1] at hc
    exact List.mem_takeWhile_imp hc
  · rfl

/-- What is left without a last word of prose is a part of the text. -/
theorem isInfix_dropProseWord (t : Text) : dropProseWord t <:+: t := by
  by_cases h : EndsInProse t
  · obtain ⟨front, word, rfl, hword, hprose⟩ := h
    rw [dropProseWord_append hword hprose]
    exact (isInfix_strip front).trans (List.prefix_append front _).isInfix
  · rw [dropProseWord_eq_self h]

/-- A trimmed text stays trimmed without its last word of prose. -/
theorem strip_dropProseWord (ht : strip t = t) : strip (dropProseWord t) = dropProseWord t := by
  by_cases h : EndsInProse t
  · obtain ⟨front, word, rfl, hword, hprose⟩ := h
    rw [dropProseWord_append hword hprose, strip_strip]
  · rwa [dropProseWord_eq_self h]

/-- A text loses something exactly when it ends in a word of prose. -/
theorem dropProseWord_eq_self_iff : dropProseWord t = t ↔ ¬ EndsInProse t := by
  refine ⟨?_, dropProseWord_eq_self⟩
  rintro h ⟨front, word, rfl, hword, hprose⟩
  rw [dropProseWord_append hword hprose] at h
  have hlen := length_strip_le front
  rw [h, List.length_append, List.length_cons] at hlen
  omega

/-- Without two types in a row there is one last word of prose at most. -/
theorem not_endsInProse_dropProseWord (h : hasWordAfterType t = false) : ¬ EndsInProse (dropProseWord t) := by
  by_cases hends : EndsInProse t
  · obtain ⟨front, word, rfl, hword, hprose⟩ := hends
    rw [dropProseWord_append hword hprose]
    rintro ⟨front', word', hfront, hword', -⟩
    -- Only blanks stood between the word that is left at the end and the one that was dropped.
    obtain ⟨blanks, hblanks, pre, hpre⟩ := exists_strip_append front
    obtain ⟨hne', hchars'⟩ := isWord_iff.mp hword'
    obtain ⟨hne, hchars⟩ := isWord_iff.mp hword
    obtain ⟨first, c, rfl⟩ := List.eq_nil_or_concat word' |>.resolve_left hne'
    obtain ⟨d, rest, rfl⟩ := List.exists_cons_of_ne_nil hne
    have hc : endsType c = true := by simp [endsType, hchars' c (by simp)]
    have hwhole : front ++ ' ' :: d :: rest =
        pre ++ (front' ++ ' ' :: first) ++ (c :: (blanks ++ [' '] ++ [d])) ++ rest := by
      rw [← hpre, hfront]
      simp
    refine Bool.false_ne_true (h.symm.trans (hasWordAfterType_iff.mpr ⟨c, blanks ++ [' '], d, hc, by simp, ?_, ?_, ?_⟩))
    · exact List.forall_mem_append.mpr ⟨hblanks, isBlank_of_mem_space⟩
    · exact hchars d List.mem_cons_self
    · exact ⟨_, _, hwhole.symm⟩
  · rwa [dropProseWord_eq_self hends]

/-! ## Comments -/

/-- Whether a text is trimmed and holds no mark of a comment. -/
structure IsBare (t : Text) : Prop where
  /-- The text is trimmed. -/
  trimmed : strip t = t
  /-- No comment starts with dashes. -/
  no_dashes : ¬ " --".toList <:+: t
  /-- No comment starts with a number sign. -/
  no_numberSign : ¬ "  #".toList <:+: t

/-- A trimmed part of a text without comments has none. -/
theorem IsBare.of_isInfix (ht : IsBare t) (h : s <:+: t) (hs : strip s = s) : IsBare s :=
  ⟨hs, fun hmark => ht.no_dashes (hmark.trans h), fun hmark => ht.no_numberSign (hmark.trans h)⟩

/-- No comment is left. -/
theorem isBare_withoutComment (t : Text) : IsBare (withoutComment t) := by
  have hdashes : ¬ " --".toList <:+: strip (before " --" (strip t)) := fun hmark =>
    not_isInfix_before (by decide) _ (hmark.trans (isInfix_strip _))
  have hsecond : withoutComment t <:+: before "  #" (strip (before " --" (strip t))) := isInfix_strip _
  exact ⟨strip_strip _, fun hmark => hdashes ((hmark.trans hsecond).trans (isPrefix_before _ _).isInfix),
    fun hmark => not_isInfix_before (by decide) _ (hmark.trans hsecond)⟩

/-- A text without a comment stays as it is. -/
theorem withoutComment_of_isBare (h : IsBare t) : withoutComment t = t := by
  rw [withoutComment, h.trimmed, before_eq_self h.no_dashes, h.trimmed, before_eq_self h.no_numberSign, h.trimmed]

/-! ## Cleaning -/

/-- Whether a text is one that cleaning leaves but for a last word of prose. -/
structure IsClean (t : Text) : Prop where
  /-- The text is trimmed and holds no comment. -/
  bare : IsBare t
  /-- No capitalised word stands behind a space. -/
  no_capital : hasCapitalised t = false
  /-- No two types stand in a row. -/
  no_row : hasWordAfterType t = false

/-- What is left of a return text before its first capitalised word, without the comment. -/
def plainStart (t : Text) : Text := strip (beforeCapitalised (withoutComment t))

/-- Cleaning drops a last word of prose from what is left before, unless two types stand in a row. -/
theorem withoutProse_eq (t : Text) : withoutProse t =
    if hasWordAfterType (dropProseWord (plainStart t)) then "any".toList else dropProseWord (plainStart t) := by
  cases hcut : cutCapitalised? (withoutComment t) with
  | none =>
    have hplain : plainStart t = withoutComment t := by
      rw [plainStart, beforeCapitalised, hcut]
      exact (isBare_withoutComment t).trimmed
    simp only [withoutProse, hcut, hplain]
  | some parts =>
    have hplain : plainStart t = strip parts.1 := by rw [plainStart, beforeCapitalised, hcut]
    simp only [withoutProse, hcut, hplain]

/-- What cleaning leaves is a part of the text, unless two types stand in a row. -/
theorem isInfix_withoutProse (t : Text) : withoutProse t = "any".toList ∨ withoutProse t <:+: t := by
  have hplain : plainStart t <:+: t :=
    ((isInfix_strip _).trans (isPrefix_beforeCapitalised _).isInfix).trans (isInfix_withoutComment t)
  rw [withoutProse_eq]
  split
  · exact .inl rfl
  · exact .inr ((isInfix_dropProseWord _).trans hplain)

/-- What is left before the first capitalised word has none and holds no comment. -/
theorem isBare_plainStart (t : Text) : IsBare (plainStart t) ∧ hasCapitalised (plainStart t) = false := by
  have hin : plainStart t <:+: beforeCapitalised (withoutComment t) := isInfix_strip _
  have hbare := (isBare_withoutComment t).of_isInfix (hin.trans (isPrefix_beforeCapitalised _).isInfix) (strip_strip _)
  exact ⟨hbare, hasCapitalised_of_isInfix hin (hasCapitalised_beforeCapitalised _)⟩

/-- Cleaning leaves a clean text. -/
theorem isClean_withoutProse (t : Text) : IsClean (withoutProse t) := by
  obtain ⟨hbare, hcapital⟩ := isBare_plainStart t
  rw [withoutProse_eq]
  split
  · exact ⟨⟨by decide, by decide, by decide⟩, by decide, by decide⟩
  · rename_i hrow
    have hin := isInfix_dropProseWord (plainStart t)
    exact ⟨hbare.of_isInfix hin (strip_dropProseWord hbare.trimmed), hasCapitalised_of_isInfix hin hcapital,
      by simpa using hrow⟩

/-- A clean text can only lose a last word of prose. -/
theorem withoutProse_of_isClean (h : IsClean t) : withoutProse t = dropProseWord t := by
  have hplain : plainStart t = t := by
    rw [plainStart, withoutComment_of_isBare h.bare, beforeCapitalised_eq_self h.no_capital, h.bare.trimmed]
  rw [withoutProse_eq, hplain, hasWordAfterType_of_isInfix (isInfix_dropProseWord t) h.no_row]
  rfl

/-- A second cleaning drops one more word of prose, if there is one. -/
theorem withoutProse_withoutProse (t : Text) : withoutProse (withoutProse t) = dropProseWord (withoutProse t) :=
  withoutProse_of_isClean (isClean_withoutProse t)

/-- A second cleaning changes nothing exactly when no word of prose is left at the end. -/
theorem withoutProse_twice_iff (t : Text) :
    withoutProse (withoutProse t) = withoutProse t ↔ ¬ EndsInProse (withoutProse t) := by
  rw [withoutProse_withoutProse, dropProseWord_eq_self_iff]

/-- A third cleaning changes nothing. -/
theorem withoutProse_thrice (t : Text) :
    withoutProse (withoutProse (withoutProse t)) = withoutProse (withoutProse t) := by
  rw [withoutProse_twice_iff, withoutProse_withoutProse]
  exact not_endsInProse_dropProseWord (isClean_withoutProse t).no_row

/-! ## Something is left -/

/-- A comment never takes the first character of a text. -/
theorem exists_withoutComment {c : Char} {u : Text} (ht : strip t = c :: u) : ∃ v, withoutComment t = c :: v := by
  have hc : isBlank c = false := isBlank_of_strip_eq_cons ht
  have hspace : ' ' ≠ c := ne_of_isBlank (by decide) hc
  have hdashes : before " --" (strip t) = c :: before " --" u := by
    rw [ht]
    exact before_cons hspace _ u
  refine ⟨stripEnd (before "  #" (stripEnd (before " --" u))), ?_⟩
  have hnumberSign : before "  #" (c :: stripEnd (before " --" u)) = c :: before "  #" (stripEnd (before " --" u)) :=
    before_cons hspace _ _
  rw [withoutComment, hdashes, strip_cons hc, hnumberSign, strip_cons hc]

/-- A last word of prose never takes the first character of a text. -/
theorem exists_dropProseWord {c : Char} (hc : isBlank c = false) (t : Text) : ∃ u, dropProseWord (c :: t) = c :: u := by
  by_cases h : EndsInProse (c :: t)
  · obtain ⟨front, word, hfront, hword, hprose⟩ := h
    rw [hfront, dropProseWord_append hword hprose]
    cases front with
    | nil =>
      obtain ⟨rfl, -⟩ := List.cons.inj hfront
      exact absurd hc (by decide)
    | cons d front =>
      obtain ⟨rfl, -⟩ := List.cons.inj hfront
      exact ⟨stripEnd front, strip_cons hc front⟩
  · exact ⟨t, dropProseWord_eq_self h⟩

/-- Cleaning leaves the first character of a text, unless two types stand in a row. -/
theorem exists_withoutProse {c : Char} {u : Text} (ht : strip t = c :: u) :
    withoutProse t = "any".toList ∨ ∃ v, withoutProse t = c :: v := by
  have hc : isBlank c = false := isBlank_of_strip_eq_cons ht
  obtain ⟨v, hcomment⟩ := exists_withoutComment ht
  have hstart : startsCapitalised (c :: v) = false := by
    rw [← Bool.not_eq_true]
    intro h
    obtain ⟨x, y, -, -, w, hw⟩ := startsCapitalised_iff.mp h
    obtain ⟨rfl, -⟩ := List.cons.inj hw
    exact absurd hc (by decide)
  have hplain : plainStart t = c :: stripEnd (beforeCapitalised v) := by
    rw [plainStart, hcomment, beforeCapitalised_cons hstart, strip_cons hc]
  rw [withoutProse_eq, hplain]
  split
  · exact .inl rfl
  · exact .inr (exists_dropProseWord hc _)

/-- Cleaning leaves something of every text that is not blank. -/
theorem withoutProse_ne_nil (ht : strip t ≠ []) : withoutProse t ≠ [] := by
  obtain ⟨c, u, hcons⟩ := List.exists_cons_of_ne_nil ht
  obtain h | ⟨v, h⟩ := exists_withoutProse hcons
  · rw [h]
    decide
  · rw [h]
    exact List.cons_ne_nil c v

end TypeText

end LuaTypings
