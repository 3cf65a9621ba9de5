import Mathlib.Data.List.TakeDrop
import Mathlib.Data.List.TakeWhile
import LuaTypings.Text.Search

/-!
# Cutting and joining

A text without a mark has none to drop (`dropEnd?_eq_none_of_not_mem`), and what stands before a mark is a start of the
text (`isPrefix_before`). A mark is found at its first place (`exists_cutAt?_append`), whatever stands behind it
(`cutAt?_append`). A text is cut at the first character of a kind (`cutAtChar_append_cons`) or, where it holds none,
left whole (`cutAtChar_of_not_mem`). What two texts one after another keep, texts with a separator between neighbours keep
too (`join_of_append`).
-/

namespace LuaTypings.Text

/-- A text does not end in a mark whose last character it does not end in. -/
theorem dropEnd?_eq_none_of_getLast? {mark t : Text} {c d : Char} (ht : t.getLast? = some c)
    (hmark : mark.getLast? = some d) (hne : c ≠ d) : dropEnd? mark t = none := by
  rw [Option.eq_none_iff_forall_ne_some]
  intro rest hrest
  rw [dropEnd?_eq_some_iff.mp hrest, List.getLast?_append, hmark] at ht
  exact hne (Option.some.inj ht).symm

/-- Behind a start that was dropped a text still ends in its last character, and so in no other one. -/
theorem dropEnd?_of_dropStart? {mark t front : Text} {c d : Char} (hstart : dropStart? mark t = some front)
    (ht : t.getLast? = some c) (hne : c ≠ d) : dropEnd? [d] front = none := by
  rw [Option.eq_none_iff_forall_ne_some]
  intro inner hinner
  rw [dropStart?_eq_some_iff.mp hstart, dropEnd?_eq_some_iff.mp hinner, ← List.append_assoc, List.getLast?_concat] at ht
  exact hne (Option.some.inj ht).symm

/-- A text without a certain character does not hold a mark with it at the end. -/
theorem dropEnd?_eq_none_of_not_mem {mark t : Text} {c : Char} (ht : c ∉ t) (hmark : c ∈ mark) :
    dropEnd? mark t = none := by
  rw [Option.eq_none_iff_forall_ne_some]
  intro rest hrest
  rw [dropEnd?_eq_some_iff.mp hrest] at ht
  exact ht (List.mem_append_right rest hmark)

/-- A text without a certain character does not start with a mark that holds it. -/
theorem dropStart?_eq_none_of_not_mem {mark t : Text} {c : Char} (ht : c ∉ t) (hmark : c ∈ mark) :
    dropStart? mark t = none := by
  rw [Option.eq_none_iff_forall_ne_some]
  intro rest hrest
  rw [dropStart?_eq_some_iff.mp hrest] at ht
  exact ht (List.mem_append_left rest hmark)

/-! ## Cutting at a mark -/

/-- A mark is not found in a text that does not hold its first character. -/
theorem before_eq_self_of_not_mem {m : Char} {mark t : Text} (h : m ∉ t) : before (m :: mark) t = t := by
  have hnone : cutAt? (m :: mark) t = none := by
    induction t with
    | nil => rfl
    | cons c t ih =>
      rw [cutAt?, dropStart?_eq_none_of_not_mem h List.mem_cons_self]
      simp [ih (List.not_mem_of_not_mem_cons h)]
  rw [before, hnone]

/-- Nothing stands before a mark that starts the text. -/
theorem before_of_isPrefix {mark t : Text} (h : mark <+: t) : before mark t = [] := by
  cases t with
  | nil =>
    rw [List.prefix_nil.mp h]
    rfl
  | cons c t =>
    obtain ⟨rest, hrest⟩ := h
    rw [before, cutAt?, dropStart?_eq_some_iff.mpr hrest.symm]

/-- A character at which no mark starts stands before the mark. -/
theorem before_cons_of_not_isPrefix {mark t : Text} {c : Char} (h : ¬ mark <+: c :: t) :
    before mark (c :: t) = c :: before mark t := by
  have hstart : dropStart? mark (c :: t) = none := by
    rw [Option.eq_none_iff_forall_ne_some]
    intro rest hrest
    exact h ⟨rest, (dropStart?_eq_some_iff.mp hrest).symm⟩
  rw [before, before, cutAt?, hstart]
  cases cutAt? mark t <;> rfl

/-- The text before a mark is a start of the text. -/
theorem isPrefix_before (mark t : Text) : before mark t <+: t := by
  induction t with
  | nil => by_cases h : mark = [] <;> simp [before, cutAt?, h]
  | cons c t ih =>
    by_cases h : mark <+: c :: t
    · rw [before_of_isPrefix h]
      exact List.nil_prefix
    · rw [before_cons_of_not_isPrefix h]
      exact List.cons_prefix_cons.mpr ⟨rfl, ih⟩

/-- A mark in a text is found, there or earlier. -/
theorem exists_cutAt?_append (mark s t : Text) :
    ∃ head rest, cutAt? mark (s ++ (mark ++ t)) = some (head, rest) ∧ head <+: s := by
  induction s with
  | nil =>
    have hdrop : dropStart? mark (mark ++ t) = some t := dropStart?_eq_some_iff.mpr rfl
    rw [List.nil_append]
    cases htext : mark ++ t with
    | nil => exact ⟨[], [], if_pos (List.append_eq_nil_iff.mp htext).1, List.prefix_refl []⟩
    | cons c u =>
      rw [htext] at hdrop
      exact ⟨[], t, by rw [cutAt?, hdrop], List.prefix_refl []⟩
  | cons c s ih =>
    obtain ⟨head, rest, hcut, hhead⟩ := ih
    rw [List.cons_append, cutAt?, hcut]
    cases dropStart? mark (c :: (s ++ (mark ++ t))) with
    | some rest => exact ⟨[], rest, rfl, List.nil_prefix⟩
    | none => exact ⟨c :: head, rest, rfl, List.cons_prefix_cons.mpr ⟨rfl, hhead⟩⟩

/-- More text behind a cut makes no difference to it. -/
theorem cutAt?_append {mark s head rest : Text} (h : cutAt? mark s = some (head, rest)) (t : Text) :
    cutAt? mark (s ++ t) = some (head, rest ++ t) := by
  induction s generalizing head with
  | nil =>
    rw [cutAt?] at h
    split at h
    · rename_i hmark
      obtain ⟨rfl, rfl⟩ := Prod.mk.inj (Option.some.inj h)
      rw [hmark]
      cases t <;> rfl
    · cases h
  | cons c s ih =>
    have hsplit := eq_append_of_cutAt? h
    rw [cutAt?] at h
    rw [List.cons_append, cutAt?]
    split at h
    · rename_i rest' hdrop
      obtain ⟨rfl, rfl⟩ := Prod.mk.inj (Option.some.inj h)
      have hmore : dropStart? mark (c :: (s ++ t)) = some (rest' ++ t) := by
        rw [dropStart?_eq_some_iff, ← List.append_assoc, ← dropStart?_eq_some_iff.mp hdrop]
        rfl
      rw [hmore]
    · rename_i hdrop
      obtain ⟨⟨head', rest'⟩, hcut, heq⟩ := Option.map_eq_some_iff.mp h
      obtain ⟨rfl, rfl⟩ := Prod.mk.inj heq
      -- The mark is in the text in front, so none that starts there reaches into what is behind it.
      have hmore : dropStart? mark (c :: (s ++ t)) = none := by
        refine Option.eq_none_iff_forall_ne_some.mpr fun more hmore => ?_
        have hlength : mark.length ≤ (c :: s).length := by
          rw [hsplit]
          simp only [List.length_append]
          omega
        have hstart : mark <+: c :: s :=
          List.prefix_of_prefix_length_le ⟨more, (dropStart?_eq_some_iff.mp hmore).symm⟩
            (List.prefix_append (c :: s) t) hlength
        obtain ⟨more, hmore⟩ := hstart
        rw [dropStart?_eq_some_iff.mpr hmore.symm] at hdrop
        cases hdrop
      rw [hmore, ih hcut]
      rfl

/-- The first such character ends the part before the cut. -/
theorem cutAtChar_append_cons {c : Char} {s : Text} (hs : c ∉ s) (t : Text) :
    cutAtChar c (s ++ c :: t) = (s, some t) := by
  have hall : ∀ x ∈ s, decide (x ≠ c) = true := fun x hx => decide_eq_true fun h => hs (h ▸ hx)
  rw [cutAtChar, List.span_eq_takeWhile_dropWhile, List.takeWhile_append_of_pos hall,
    List.dropWhile_append_of_pos hall]
  simp

/-- What stands behind the last character of a kind is determined by the text. -/
theorem eq_of_append_cons {c : Char} {a b s t : Text} (h : a ++ c :: s = b ++ c :: t) (hs : c ∉ s) (ht : c ∉ t) :
    s = t := by
  -- Seen from the end, the last such character is the first one, where a text is cut.
  have hrev := congrArg List.reverse h
  simp only [List.reverse_append, List.reverse_cons, List.append_assoc, List.singleton_append] at hrev
  have hcut := cutAtChar_append_cons (mt List.mem_reverse.mp hs) a.reverse
  rw [hrev, cutAtChar_append_cons (mt List.mem_reverse.mp ht), Prod.mk.injEq] at hcut
  exact (List.reverse_inj.mp hcut.1).symm

/-- A text without such a character is not cut. -/
theorem cutAtChar_of_not_mem {c : Char} {t : Text} (ht : c ∉ t) : cutAtChar c t = (t, none) := by
  have hall : ∀ x ∈ t, decide (x ≠ c) = true := fun x hx => decide_eq_true fun h => ht (h ▸ hx)
  have htake : t.takeWhile (fun x => decide (x ≠ c)) = t := List.takeWhile_eq_self_iff.mpr hall
  have hdrop : t.dropWhile (fun x => decide (x ≠ c)) = [] := List.dropWhile_eq_nil_iff.mpr hall
  rw [cutAtChar, List.span_eq_takeWhile_dropWhile, htake, hdrop]

/-- A text is cut at the first character of a kind. -/
theorem cutAtChar_eq_some_iff {c : Char} {s t rest : Text} :
    cutAtChar c t = (s, some rest) ↔ t = s ++ c :: rest ∧ c ∉ s := by
  constructor
  · intro h
    by_cases hc : c ∈ t
    · obtain ⟨s', t', rfl, hs'⟩ := List.eq_append_cons_of_mem hc
      rw [cutAtChar_append_cons hs', Prod.mk.injEq, Option.some.injEq] at h
      obtain ⟨rfl, rfl⟩ := h
      exact ⟨rfl, hs'⟩
    · rw [cutAtChar_of_not_mem hc] at h
      simp at h
  · rintro ⟨rfl, hs⟩
    exact cutAtChar_append_cons hs rest

/-- The first character of a kind in a text stands no later than any other one of that kind. -/
theorem eq_or_of_append_cons_eq {c : Char} {s f t u : Text} (h : s ++ c :: t = f ++ c :: u) (hf : c ∉ f) :
    (s = f ∧ t = u) ∨ ∃ m, s = f ++ c :: m ∧ u = m ++ c :: t := by
  obtain ⟨m, hfm, hm⟩ | ⟨m, hsm, hm⟩ := List.append_eq_append_iff.mp h
  · cases m with
    | nil => exact .inl ⟨by simpa using hfm.symm, by simpa using hm⟩
    | cons d m =>
      obtain ⟨rfl, -⟩ := List.cons.inj hm
      exact absurd (hfm ▸ List.mem_append_right s List.mem_cons_self) hf
  · cases m with
    | nil => exact .inl ⟨by simpa using hsm, (List.cons.inj hm).2.symm⟩
    | cons d m =>
      obtain ⟨rfl, hu⟩ := List.cons.inj hm
      exact .inr ⟨m, hsm, hu⟩

/-- The first character of a kind in a text is determined by the text. -/
theorem eq_of_first_append_cons {c : Char} {s f t u : Text} (h : s ++ c :: t = f ++ c :: u) (hs : c ∉ s) (hf : c ∉ f) :
    s = f ∧ t = u := by
  obtain heq | ⟨m, rfl, -⟩ := eq_or_of_append_cons_eq h hf
  · exact heq
  · exact absurd (List.mem_append_right f List.mem_cons_self) hs

/-- A character that is not in the end of a text stands before that end. -/
theorem eq_append_cons_of_append_eq {c : Char} {s p f m : Text} (h : s ++ p = f ++ c :: m) (hc : c ∉ p) :
    ∃ a, s = f ++ c :: a ∧ m = a ++ p := by
  obtain ⟨x, -, hp⟩ | ⟨x, hs, hx⟩ := List.append_eq_append_iff.mp h
  · exact absurd (hp ▸ List.mem_append_right x List.mem_cons_self) hc
  · cases x with
    | nil =>
      rw [List.nil_append] at hx
      exact absurd (hx ▸ List.mem_cons_self) hc
    | cons d x =>
      obtain ⟨rfl, hm⟩ := List.cons.inj hx
      exact ⟨x, hs, hm⟩

/-- A start of a text without a character of a kind ends in front of the first one. -/
theorem isPrefix_of_not_mem {c : Char} {m s t : Text} (h : m <+: s ++ c :: t) (hc : c ∉ m) : m <+: s := by
  obtain ⟨u, hu⟩ := h
  obtain ⟨x, hs, -⟩ | ⟨x, rfl, hx⟩ := List.append_eq_append_iff.mp hu
  · exact ⟨x, hs.symm⟩
  · cases x with
    | nil => simp
    | cons d x =>
      obtain ⟨rfl, -⟩ := List.cons.inj hx
      exact absurd (List.mem_append_right s List.mem_cons_self) hc

/-- Of two different characters in a text the first one stands in front of the other. -/
theorem mem_or_mem_of_append_cons_eq {c d : Char} (hne : c ≠ d) {s f t u : Text} (h : s ++ c :: t = f ++ d :: u) :
    d ∈ s ∨ c ∈ f := by
  obtain ⟨m, hf, hm⟩ | ⟨m, hs, hm⟩ := List.append_eq_append_iff.mp h
  · cases m with
    | nil => exact absurd (List.cons.inj hm).1 hne
    | cons e m => exact .inr (hf ▸ List.mem_append_right s ((List.cons.inj hm).1 ▸ List.mem_cons_self))
  · cases m with
    | nil => exact absurd (List.cons.inj hm).1.symm hne
    | cons e m => exact .inl (hs ▸ List.mem_append_right f ((List.cons.inj hm).1 ▸ List.mem_cons_self))

/-- A place in a text with a last character stands in the text before it or is that character. -/
theorem eq_append_of_concat_eq {s before after : Text} {c d : Char} (h : s ++ [d] = before ++ c :: after) :
    ∃ z, s = before ++ z ∧ c :: after = z ++ [d] := by
  obtain ⟨m, hbefore, hm⟩ | ⟨m, hs, hm⟩ := List.append_eq_append_iff.mp h
  · cases m with
    | nil => exact ⟨[], by simpa using hbefore.symm, hm.symm⟩
    | cons e m => simp at hm
  · exact ⟨m, hs, hm⟩

/-- A text that is a start of another one ends in front of a character of that one or behind it, when it does not end in
that character itself. -/
theorem concat_isPrefix_append_cons {s t u : Text} {c d : Char} (hne : c ≠ d)
    (h : t ++ [d] <+: s ++ c :: u) :
    t ++ [d] <+: s ∨ ∃ v, t = s ++ c :: v ∧ v ++ [d] <+: u := by
  obtain ⟨x, hx⟩ := h
  obtain ⟨m, hs, -⟩ | ⟨m, ht, hm⟩ := List.append_eq_append_iff.mp hx
  · exact .inl ⟨m, hs.symm⟩
  · cases m with
    | nil => exact .inl ⟨[], by simpa using ht⟩
    | cons e m =>
      obtain ⟨rfl, hu⟩ := List.cons.inj hm
      obtain ⟨z, hz, hend⟩ := eq_append_of_concat_eq ht
      cases z with
      | nil => exact absurd (List.cons.inj hend).1 hne
      | cons e v =>
        obtain ⟨rfl, hv⟩ := List.cons.inj hend
        have hrest : v ++ [d] ++ x = u := by
          rw [hu, hv]
          rfl
        exact .inr ⟨v, hz, x, hrest⟩

/-- Both sides of a cut are shorter than the text, together by the character that is cut out. -/
theorem length_of_cutAtChar {c : Char} {t s rest : Text} (h : cutAtChar c t = (s, some rest)) :
    s.length + rest.length + 1 = t.length := by
  obtain ⟨rfl, -⟩ := cutAtChar_eq_some_iff.mp h
  rw [List.length_append, List.length_cons]
  omega

/-- A run of characters of a kind ends where a character of another kind follows. -/
theorem span_append {p : Char → Bool} {s t : Text} (hs : ∀ c ∈ s, p c = true) (ht : ∀ c ∈ t.head?, p c = false) :
    (s ++ t).span p = (s, t) := by
  rw [List.span_eq_takeWhile_dropWhile, List.takeWhile_append_of_pos hs, List.dropWhile_append_of_pos hs]
  cases t with
  | nil => simp
  | cons c t =>
    have hc : ¬ p c = true := by simp [ht c rfl]
    rw [List.takeWhile_cons_of_neg hc, List.dropWhile_cons_of_neg hc, List.append_nil]

/-! ## Joining -/

/-- Two endings of a text that are equally long are the same. -/
theorem eq_of_isSuffix {a b t : Text} (ha : a <:+ t) (hb : b <:+ t) (hlen : a.length = b.length) : a = b :=
  (List.suffix_of_suffix_length_le ha hb hlen.le).eq_of_length hlen

/-- A single text is joined to nothing. -/
theorem join_singleton (separator t : Text) : join separator [t] = t := by
  rw [join, List.intercalate_singleton]

/-- A separator stands between the first text and the others. -/
theorem join_cons_cons (separator s t : Text) (parts : List Text) :
    join separator (s :: t :: parts) = s ++ separator ++ join separator (t :: parts) := by
  rw [join, List.intercalate_cons_cons, join]

/-- What stands behind a separating character can be written in front of the next part. -/
theorem join_cons_separator (c : Char) (w s : Text) (parts : List Text) :
    join (c :: w) (s :: parts) = join [c] (s :: parts.map (w ++ ·)) := by
  induction parts generalizing s with
  | nil => rw [List.map_nil, join_singleton, join_singleton]
  | cons r parts ih =>
    rw [List.map_cons, join_cons_cons, join_cons_cons, ih]
    cases parts with
    | nil => simp [join_singleton]
    | cons q parts => simp [join_cons_cons]

/-- A separator stands between the last text and the others. -/
theorem join_concat (separator : Text) {parts : List Text} (hne : parts ≠ []) (t : Text) :
    join separator (parts ++ [t]) = join separator parts ++ separator ++ t := by
  induction parts with
  | nil => exact absurd rfl hne
  | cons s parts ih =>
    cases parts with
    | nil => rw [List.singleton_append, join_cons_cons, join_singleton, join_singleton]
    | cons r parts =>
      have hrest := ih (List.cons_ne_nil r parts)
      rw [List.cons_append] at hrest
      rw [List.cons_append, List.cons_append, join_cons_cons, hrest, join_cons_cons]
      simp only [List.append_assoc]

/-- What a text has that is made of two texts that have it, joined texts have. -/
theorem join_of_append {motive : Text → Prop} (append : ∀ s t, motive s → motive t → motive (s ++ t))
    {separator : Text} (hsep : motive separator) {parts : List Text} (hne : parts ≠ [])
    (h : ∀ t ∈ parts, motive t) : motive (join separator parts) := by
  induction parts with
  | nil => exact absurd rfl hne
  | cons s parts ih =>
    have hs := h s List.mem_cons_self
    cases parts with
    | nil =>
      rw [join_singleton]
      exact hs
    | cons r parts =>
      rw [join_cons_cons]
      refine append _ _ (append _ _ hs hsep) (ih (List.cons_ne_nil r parts) fun t ht => ?_)
      exact h t (List.mem_cons_of_mem s ht)

/-- Every part of a joined text is in it. -/
theorem isInfix_join {separator part : Text} {parts : List Text} (h : part ∈ parts) : part <:+: join separator parts := by
  induction parts with
  | nil => exact absurd h List.not_mem_nil
  | cons s parts ih =>
    cases parts with
    | nil =>
      obtain rfl := List.mem_singleton.mp h
      exact ⟨[], [], by simp [join_singleton]⟩
    | cons t parts =>
      rw [join_cons_cons]
      obtain rfl | h := List.mem_cons.mp h
      · exact ((List.prefix_append part separator).trans (List.prefix_append _ _)).isInfix
      · exact (ih h).trans (List.suffix_append _ _).isInfix

/-- There is always a piece. -/
theorem exists_splitAll (isSeparator : Char → Bool) (t : Text) :
    ∃ piece pieces, splitAll isSeparator t = piece :: pieces := by
  cases t with
  | nil => exact ⟨[], [], rfl⟩
  | cons c t =>
    rw [splitAll]
    split
    · exact ⟨_, _, rfl⟩
    · split
      · exact ⟨_, _, rfl⟩
      · exact ⟨_, _, rfl⟩

/-- Pieces that are cut at every character of a kind are joined by that character. -/
theorem join_splitAll (c : Char) (t : Text) : join [c] (splitAll (· == c) t) = t := by
  induction t with
  | nil => exact join_singleton [c] []
  | cons d t ih =>
    obtain ⟨piece, pieces, hpieces⟩ := exists_splitAll (· == c) t
    rw [hpieces] at ih
    rw [splitAll, hpieces]
    split
    · rename_i hd
      rw [join_cons_cons, ih, eq_of_beq hd]
      rfl
    · cases pieces with
      | nil =>
        rw [join_singleton] at ih ⊢
        rw [ih]
      | cons next pieces =>
        rw [join_cons_cons] at ih ⊢
        rw [← ih]
        rfl

/-- A text without characters of a kind is one piece. -/
theorem splitAll_of_forall {isSeparator : Char → Bool} {t : Text} (h : ∀ c ∈ t, isSeparator c = false) :
    splitAll isSeparator t = [t] := by
  induction t with
  | nil => rfl
  | cons c t ih =>
    rw [splitAll, if_neg (by simp [h c List.mem_cons_self]), ih fun d hd => h d (List.mem_cons_of_mem c hd)]

/-- No piece holds a character of the kind. -/
theorem eq_false_of_mem_splitAll {isSeparator : Char → Bool} {t piece : Text} (h : piece ∈ splitAll isSeparator t) :
    ∀ c ∈ piece, isSeparator c = false := by
  induction t generalizing piece with
  | nil =>
    obtain rfl := List.mem_singleton.mp h
    simp
  | cons c t ih =>
    obtain ⟨first, pieces, hpieces⟩ := exists_splitAll isSeparator t
    rw [hpieces] at ih
    rw [splitAll, hpieces] at h
    split at h
    · obtain rfl | hrest := List.mem_cons.mp h
      · simp
      · exact ih hrest
    · rename_i hc
      obtain rfl | hrest := List.mem_cons.mp h
      · exact List.forall_mem_cons.mpr ⟨by simpa using hc, ih List.mem_cons_self⟩
      · exact ih (List.mem_cons_of_mem first hrest)

/-- A character of the kind stands between the pieces of the text before it and those of the text behind it. -/
theorem splitAll_append_cons {isSeparator : Char → Bool} {c : Char} (hc : isSeparator c = true) (s t : Text) :
    splitAll isSeparator (s ++ c :: t) = splitAll isSeparator s ++ splitAll isSeparator t := by
  induction s with
  | nil => exact if_pos hc
  | cons d s ih =>
    obtain ⟨piece, pieces, hpieces⟩ := exists_splitAll isSeparator s
    rw [hpieces, List.cons_append] at ih
    rw [List.cons_append, splitAll, ih, splitAll, hpieces]
    split <;> rfl

/-- Joined texts have the pieces that they have one by one. -/
theorem splitAll_join {c : Char} {parts : List Text} (hne : parts ≠ []) :
    splitAll (· == c) (join [c] parts) = parts.flatMap (splitAll (· == c)) := by
  induction parts with
  | nil => exact absurd rfl hne
  | cons s parts ih =>
    cases parts with
    | nil => rw [join_singleton, List.flatMap_singleton]
    | cons r parts =>
      have hcut := @splitAll_append_cons (· == c) c (beq_self_eq_true c) s (join [c] (r :: parts))
      rw [join_cons_cons, List.append_assoc, List.singleton_append, hcut, ih (List.cons_ne_nil r parts)]
      rfl

end LuaTypings.Text
