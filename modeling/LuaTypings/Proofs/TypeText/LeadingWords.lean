import Mathlib.Data.List.Chain
import LuaTypings.Proofs.TypeText.TopParts
import LuaTypings.TypeText.Leading

/-!
# The words of a leading type

The words of a text are the runs of its characters between the blanks at depth zero (`depthZeroRuns`). The type in front
of free text takes the longest run of words at the start in which neighbours are glued (`isLongestGlued_spanGlued`), and
single spaces between the words that it takes are found again as the places between them. So a leading type is its own
leading type, with nothing behind it.

The words are those of the trimmed text. A blank at the end of a text in which a bracket stays open belongs to the last
run, and it is trimmed away (`spanType_open_bracket`).
-/

namespace LuaTypings.TypeText

open Text (isBlank strip)

/-- The runs of a text between its blanks at depth zero. -/
def depthZeroRuns (t : Text) : List Text :=
  (((withDepths 0 t).splitOnP fun x => x.2 == 0 && isBlank x.1).map (·.map Prod.fst)).filter (· ≠ [])

/-- A word is glued to the next one: it ends in a bar, a colon or a comma, or the next one starts with a bar. -/
def GoesOn (left right : Text) : Prop :=
  "|".toList <:+ left ∨ ":".toList <:+ left ∨ ",".toList <:+ left ∨ "|".toList <+: right

/-- The words that are taken are the longest start of all the words, and not an empty one, in which neighbours are glued;
the others stay behind. -/
structure IsLongestGlued (words taken behind : List Text) : Prop where
  /-- No word is lost or repeated, and none changes its place. -/
  append_eq : taken ++ behind = words
  /-- Neighbours among the taken words are glued. -/
  glued : taken.IsChain GoesOn
  /-- The first word is taken in any case. -/
  ne_nil : words ≠ [] → taken ≠ []
  /-- No longer start of the words is glued. -/
  longest : ∀ first, first <+: words → first.IsChain GoesOn → first.length ≤ taken.length

/-! ## Runs -/

/-- A blank at depth zero separates. -/
theorem isTopSeparator_isBlank (depth : Nat) (c : Char) :
    isTopSeparator isBlank depth c = (depth == 0 && isBlank c) := by
  by_cases hc : isBlank c = true
  · obtain ⟨hopener, hcloser⟩ := not_bracket_of_kind (by decide) hc
    simp [isTopSeparator, hopener, hcloser]
  · simp [isTopSeparator, hc]

/-- The runs of a text are its pieces between blanks, without the empty ones. -/
theorem depthZeroRuns_eq (t : Text) : depthZeroRuns t = (segments isBlank 0 t).filter (· ≠ []) := by
  unfold depthZeroRuns
  rw [segments_eq_splitOnP]
  simp only [isTopSeparator_isBlank]

/-- A piece between blanks does not start with one. -/
theorem isBlank_head_of_isUnbroken {s : Text} (hs : isUnbroken isBlank 0 s = true) : ∀ c ∈ s.head?, isBlank c = false := by
  cases s with
  | nil => nofun
  | cons c s =>
    rw [isUnbroken, isTopSeparator_isBlank, Bool.and_eq_true] at hs
    rintro d ⟨⟩
    simpa using hs.1

/-- A piece that leaves no bracket open does not end in a blank: at that depth it would separate. -/
theorem isBlank_getLast_of_isUnbroken {s : Text} (hs : isUnbroken isBlank 0 s = true) (hopen : openAfter 0 s = 0) :
    ∀ c ∈ s.getLast?, isBlank c = false := by
  intro c hc
  obtain ⟨front, rfl⟩ := List.getLast?_eq_some_iff.mp hc
  rw [← Bool.not_eq_true]
  intro hblank
  have hdepth : openAfter 0 front = 0 := by
    rw [openAfter_append] at hopen
    rwa [openAfter_of_blanks (List.forall_mem_singleton.mpr hblank)] at hopen
  rw [isUnbroken_append_openAfter, hdepth, isUnbroken, isTopSeparator_isBlank, hblank, Bool.and_eq_true] at hs
  cases hs.2

/-- The pieces between the blanks of a text that does not end in a blank are trimmed. -/
theorem strip_of_mem_segments {t : Text} (hlast : ∀ c ∈ t.getLast?, isBlank c = false) :
    ∀ s ∈ segments isBlank 0 t, strip s = s := by
  induction t using separator_induction (p := isBlank) with
  | unbroken t h =>
    rw [segments_of_isUnbroken h]
    exact List.forall_mem_singleton.mpr (Text.strip_eq_self_iff.mpr ⟨isBlank_head_of_isUnbroken h, hlast⟩)
  | separated s c r hs hopen hc ih =>
    have htrim : strip s = s :=
      Text.strip_eq_self_iff.mpr ⟨isBlank_head_of_isUnbroken hs, isBlank_getLast_of_isUnbroken hs hopen⟩
    have hrest : ∀ d ∈ r.getLast?, isBlank d = false := fun d hd => hlast d (Text.mem_getLast?_append_cons hd)
    rw [segments_append_separator hopen hs hc]
    exact List.forall_mem_cons.mpr ⟨htrim, ih hrest⟩

/-- The words of a text are the runs of the trimmed text. -/
theorem topLevelWords_eq (t : Text) : topLevelWords t = depthZeroRuns (strip t) := by
  have htrim : ∀ s ∈ segments isBlank 0 (strip t), strip s = s :=
    strip_of_mem_segments (Text.strip_eq_self_iff.mp (Text.strip_strip t)).2
  have hpieces : (segments isBlank 0 (strip t)).map strip = segments isBlank 0 (strip t) :=
    (List.map_congr_left htrim).trans (List.map_id _)
  rw [topLevelWords, ← topPartsBy_strip, topPartsBy, hpieces, depthZeroRuns_eq]
  refine List.filter_congr fun s _ => ?_
  cases s <;> rfl

/-- A text has no words exactly when it is blank. -/
theorem topLevelWords_eq_nil_iff {t : Text} : topLevelWords t = [] ↔ ∀ c ∈ t, isBlank c = true := by
  refine ⟨fun h c hc => ?_, fun h => topPartsBy_of_blanks h⟩
  obtain hblank | hblank := isBlank_or_of_topPartsBy_eq_nil h c hc
  · exact hblank
  · exact hblank

/-! ## Glued words -/

/-- Two words are found to be glued as they should be. -/
theorem glued_iff {left right : Text} : glued left right = true ↔ GoesOn left right := by
  have hlast : ∀ c : Char, left.getLast? = some c ↔ [c] <:+ left := fun c => by
    rw [List.getLast?_eq_some_iff]
    exact ⟨fun ⟨front, h⟩ => ⟨front, h.symm⟩, fun ⟨front, h⟩ => ⟨front, h.symm⟩⟩
  have hhead : right.head? = some '|' ↔ "|".toList <+: right := by
    rw [List.head?_eq_some_iff]
    exact ⟨fun ⟨rest, h⟩ => ⟨rest, h.symm⟩, fun ⟨rest, h⟩ => ⟨rest, h.symm⟩⟩
  show _ ↔ ['|'] <:+ left ∨ [':'] <:+ left ∨ [','] <:+ left ∨ "|".toList <+: right
  rw [glued, Bool.or_eq_true, beq_iff_eq, hhead, ← hlast, ← hlast, ← hlast, Option.any_eq_true]
  simp only [Bool.or_eq_true, beq_iff_eq]
  constructor
  · rintro (⟨c, hc, (rfl | rfl) | rfl⟩ | hbar)
    · exact .inl hc
    · exact .inr (.inl hc)
    · exact .inr (.inr (.inl hc))
    · exact .inr (.inr (.inr hbar))
  · rintro (hc | hc | hc | hbar)
    · exact .inl ⟨'|', hc, .inl (.inl rfl)⟩
    · exact .inl ⟨':', hc, .inl (.inr rfl)⟩
    · exact .inl ⟨',', hc, .inr rfl⟩
    · exact .inr hbar

/-- Glued words are taken as a whole. -/
theorem spanGlued_of_isChain {words : List Text} (h : words.IsChain GoesOn) : spanGlued words = (words, []) := by
  induction words with
  | nil => rfl
  | cons word words ih =>
    cases words with
    | nil => rfl
    | cons next words =>
      obtain ⟨hglued, hrest⟩ := List.isChain_cons_cons.mp h
      rw [spanGlued, if_pos (glued_iff.mpr hglued), ih hrest]

/-- The words are cut behind the longest start in which neighbours are glued. -/
theorem isLongestGlued_spanGlued (words : List Text) :
    IsLongestGlued words (spanGlued words).1 (spanGlued words).2 := by
  induction words with
  | nil => exact ⟨rfl, .nil, fun h => absurd rfl h, fun first h _ => h.length_le⟩
  | cons word words ih =>
    cases words with
    | nil => exact ⟨rfl, .singleton word, fun _ => List.cons_ne_nil word [], fun first h _ => h.length_le⟩
    | cons next words =>
      rw [spanGlued]
      split
      · rename_i hglued
        -- The next word is taken first among the others, so the chain goes on from it.
        obtain ⟨more, hmore⟩ : ∃ more, (spanGlued (next :: words)).1 = next :: more := by
          obtain ⟨n, more, hcons⟩ := List.exists_cons_of_ne_nil (ih.ne_nil (List.cons_ne_nil next words))
          have happend := ih.append_eq
          rw [hcons, List.cons_append] at happend
          exact ⟨more, by rw [hcons, (List.cons.inj happend).1]⟩
        refine ⟨congrArg (word :: ·) ih.append_eq, ?_, fun _ => List.cons_ne_nil word _, fun first hfirst hchain => ?_⟩
        · have hrest := ih.glued
          show (word :: (spanGlued (next :: words)).1).IsChain GoesOn
          rw [hmore] at hrest ⊢
          exact List.isChain_cons_cons.mpr ⟨glued_iff.mp hglued, hrest⟩
        · cases first with
          | nil => exact Nat.zero_le _
          | cons w first =>
            have hrest := ih.longest first (List.cons_prefix_cons.mp hfirst).2 hchain.tail
            exact Nat.succ_le_succ hrest
      · rename_i hapart
        refine ⟨rfl, .singleton word, fun _ => List.cons_ne_nil word [], fun first hfirst hchain => ?_⟩
        -- A longer start would hold the two neighbours that are not glued.
        rcases first with _ | ⟨w, _ | ⟨n, first⟩⟩
        · exact Nat.zero_le _
        · exact le_rfl
        · obtain ⟨rfl, hnext⟩ := List.cons_prefix_cons.mp hfirst
          obtain ⟨rfl, -⟩ := List.cons_prefix_cons.mp hnext
          exact absurd (glued_iff.mpr (List.isChain_cons_cons.mp hchain).1) hapart

/-! ## Leading types -/

/-- Single spaces between words that are taken are found again. -/
theorem topLevelWords_join {t : Text} {taken : List Text} (h : taken <+: topLevelWords t) :
    topLevelWords (Text.join " " taken) = taken :=
  topPartsBy_join_of_sublist (by decide) h.sublist

/-- **The type in front of free text.** The words of a text are its runs between blanks at depth zero, when the text is
trimmed. The longest start of the words in which neighbours are glued is the type, the other words are the free text, and
single spaces stand between the words of either. There is neither a type nor free text exactly in a blank text. The type
is read back as a type with nothing behind it. -/
theorem spanType_spec (t : Text) :
    (∃ taken behind, IsLongestGlued (depthZeroRuns (strip t)) taken behind ∧
        spanType t = (Text.join " " taken, Text.join " " behind)) ∧
      (spanType t = ([], []) ↔ ∀ c ∈ t, isBlank c = true) ∧
      spanType (spanType t).1 = ((spanType t).1, []) := by
  have hlongest := isLongestGlued_spanGlued (topLevelWords t)
  have hspan : spanType t =
      (Text.join " " (spanGlued (topLevelWords t)).1, Text.join " " (spanGlued (topLevelWords t)).2) := rfl
  have hwords := topLevelWords_join ⟨_, hlongest.append_eq⟩
  refine ⟨⟨_, _, topLevelWords_eq t ▸ hlongest, hspan⟩, ?_, ?_⟩
  · rw [← topLevelWords_eq_nil_iff]
    constructor
    · intro h
      -- An empty type has no words, and only a text without words has no word to take.
      rw [hspan, Prod.mk.injEq] at h
      rw [h.1] at hwords
      by_contra hne
      exact hlongest.ne_nil hne hwords.symm
    · intro h
      rw [hspan, h]
      rfl
  · rw [hspan]
    unfold spanType
    rw [hwords, spanGlued_of_isChain hlongest.glued]
    rfl

/-- Behind a stray closer a bar and a comma glue three words, the last of which has blanks between brackets. -/
example : spanType " a> |b,\t(c  d, e) f  [g" = ("a> |b, (c  d, e)".toList, "f [g".toList) := by decide

/-- A blank behind an open bracket belongs to the last run of a text, but not to the type. -/
theorem spanType_open_bracket :
    ¬ ∃ taken behind, IsLongestGlued (depthZeroRuns "(a ") taken behind ∧
      spanType "(a " = (Text.join " " taken, Text.join " " behind) := by
  have hruns : depthZeroRuns "(a " = ["(a ".toList] := by decide
  have htype : spanType "(a " = ("(a".toList, []) := by decide
  rintro ⟨taken, behind, hlongest, heq⟩
  rw [hruns] at hlongest
  -- The only run is taken as a whole.
  obtain rfl : taken = ["(a ".toList] := by
    obtain ⟨rfl, -⟩ | ⟨h, -⟩ := List.append_eq_singleton_iff.mp hlongest.append_eq
    · exact absurd rfl (hlongest.ne_nil (List.cons_ne_nil _ _))
    · exact h
  rw [htype, Text.join_singleton, Prod.mk.injEq] at heq
  exact absurd heq.1 (by decide)

end LuaTypings.TypeText
