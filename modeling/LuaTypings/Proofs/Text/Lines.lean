import Mathlib.Data.List.Infix
import LuaTypings.Text.Lines
import LuaTypings.Proofs.Text.Cut
import LuaTypings.Proofs.Text.Trim

/-!
# Lines of a text

Lines that are written one after another, with a line feed between neighbours, are found again: `splitLines_join`. Behind
a line feed at the end of any text its lines are followed by those of the text added there (`exists_splitLines_append`).
What fills the end of a line is a phrase, a trimmed text on one line; a line itself is read up to a line feed only, so its
last part may hold other line ends.
-/

namespace LuaTypings.Text

/-- Whether a text has no line end in it. -/
def isOneLine (t : Text) : Bool := t.all (!isLineEnd ·)

/-- A text on one line has no line end in it. -/
theorem isOneLine_iff {t : Text} : isOneLine t = true ↔ ∀ c ∈ t, isLineEnd c = false := by
  simp [isOneLine]

/-- Texts on one line stay so one behind the other. -/
theorem isOneLine_append {s t : Text} : isOneLine (s ++ t) = (isOneLine s && isOneLine t) := List.all_append

/-- Every line end is blank. -/
theorem isBlank_of_isLineEnd {c : Char} (h : isLineEnd c = true) : isBlank c = true := by
  simp only [isLineEnd, isBlank, inRanges, blankRanges, List.any_cons, List.any_nil, Bool.or_false, Bool.or_eq_true,
    Bool.and_eq_true, decide_eq_true_eq] at h ⊢
  omega

/-- A word is on one line. -/
theorem isOneLine_of_isWord {t : Text} (h : isWord t = true) : isOneLine t = true := by
  refine isOneLine_iff.mpr fun c hc => ?_
  have hblank := isBlank_of_mem_isWord h c hc
  rw [← Bool.not_eq_true]
  exact fun hend => by simp [isBlank_of_isLineEnd hend] at hblank

/-! ## Splitting what was joined -/

/-- A character that ends no line goes in front of the first line. -/
theorem splitLines_cons {c : Char} (hc : isLineEnd c = false) (t : Text) :
    splitLines (c :: t) = match splitLines t with
      | [] => [[c]]
      | line :: lines => (c :: line) :: lines := by
  rw [splitLines.eq_def]
  split
  · rename_i heq
    cases heq
  · rename_i heq
    obtain ⟨rfl, -⟩ := List.cons.inj heq
    exact absurd hc (by decide)
  · rename_i heq
    obtain ⟨rfl, rfl⟩ := List.cons.inj heq
    exact if_neg (by simp [hc])

/-- A line end ends an empty line, unless it is a return with a line feed behind it. -/
theorem splitLines_lineEnd {c : Char} (hc : isLineEnd c = true) {t : Text} (ht : c = '\r' → t.head? ≠ some '\n') :
    splitLines (c :: t) = [] :: splitLines t := by
  rw [splitLines.eq_def]
  split
  · rename_i heq
    cases heq
  · rename_i heq
    obtain ⟨rfl, rfl⟩ := List.cons.inj heq
    exact absurd rfl (ht rfl)
  · rename_i heq
    obtain ⟨rfl, rfl⟩ := List.cons.inj heq
    exact if_pos hc

/-- A line feed ends an empty line. -/
theorem splitLines_lineFeed (t : Text) : splitLines ('\n' :: t) = [] :: splitLines t :=
  splitLines_lineEnd (by decide) fun h => absurd h (by decide)

/-- A line in front of a line feed is the first line. -/
theorem splitLines_append {line : Text} (hline : isOneLine line = true) (t : Text) :
    splitLines (line ++ '\n' :: t) = line :: splitLines t := by
  induction line with
  | nil => exact splitLines_lineFeed t
  | cons c line ih =>
    rw [isOneLine, List.all_cons, Bool.and_eq_true, Bool.not_eq_true'] at hline
    rw [List.cons_append, splitLines_cons hline.1, ih hline.2]

/-- A text on one line is that line, unless it is empty. -/
theorem splitLines_of_isOneLine {line : Text} (hline : isOneLine line = true) (hne : line ≠ []) :
    splitLines line = [line] := by
  induction line with
  | nil => exact absurd rfl hne
  | cons c line ih =>
    rw [isOneLine, List.all_cons, Bool.and_eq_true, Bool.not_eq_true'] at hline
    rw [splitLines_cons hline.1]
    by_cases h : line = []
    · rw [h]
      rfl
    · rw [ih hline.2 h]

/-- Lines that are joined by line feeds are found again. -/
theorem splitLines_join {lines : List Text} (hlines : ∀ line ∈ lines, line ≠ [] ∧ isOneLine line = true) :
    splitLines (join "\n" lines) = lines := by
  induction lines with
  | nil => rfl
  | cons line lines ih =>
    obtain ⟨hne, hline⟩ := hlines line List.mem_cons_self
    cases lines with
    | nil => rw [join_singleton, splitLines_of_isOneLine hline hne]
    | cons next lines =>
      have hrest := ih fun l hl => hlines l (List.mem_cons_of_mem line hl)
      have hfeed : line ++ "\n".toList ++ join "\n" (next :: lines) = line ++ '\n' :: join "\n" (next :: lines) := by
        simp
      rw [join_cons_cons, hfeed, splitLines_append hline, hrest]

/-! ## Splitting what was put together -/

/-- Only an empty text has no lines. -/
theorem splitLines_eq_nil_iff {t : Text} : splitLines t = [] ↔ t = [] := by
  constructor
  · intro h
    rw [splitLines.eq_def] at h
    split at h
    · rfl
    · cases h
    · split at h
      · cases h
      · split at h <;> cases h
  · rintro rfl
    rfl

/-- Behind a line feed a text has lines of its own. In front of them stand those of the text before, and an empty one if
that text ended a line itself. -/
theorem exists_splitLines_append (s t : Text) :
    ∃ blank, (∀ line ∈ blank, line = []) ∧ splitLines (s ++ '\n' :: t) = splitLines s ++ blank ++ splitLines t := by
  fun_induction splitLines s with
  | case1 => exact ⟨[[]], by simp, splitLines_lineFeed t⟩
  | case2 s ih =>
    obtain ⟨blank, hblank, hsplit⟩ := ih
    exact ⟨blank, hblank, congrArg ([] :: ·) hsplit⟩
  | case3 c s hpair hend ih =>
    by_cases hs : s = []
    · subst hs
      by_cases hc : c = '\r'
      · -- The return and the line feed end one line together.
        subst hc
        exact ⟨[], by simp, rfl⟩
      · refine ⟨[[]], by simp, ?_⟩
        rw [List.singleton_append, splitLines_lineEnd hend fun h => absurd h hc, splitLines_lineFeed]
        rfl
    · obtain ⟨blank, hblank, hsplit⟩ := ih
      refine ⟨blank, hblank, ?_⟩
      have hhead : c = '\r' → (s ++ '\n' :: t).head? ≠ some '\n' := by
        intro hc hhead
        rw [List.head?_append_of_ne_nil _ hs] at hhead
        obtain ⟨rest, rfl⟩ := List.head?_eq_some_iff.mp hhead
        exact hpair rest hc rfl
      rw [List.cons_append, splitLines_lineEnd hend hhead, hsplit]
      rfl
  | case4 c s hpair hend hnone ih =>
    have hs : s = [] := splitLines_eq_nil_iff.mp hnone
    subst hs
    refine ⟨[], by simp, ?_⟩
    rw [List.singleton_append, splitLines_cons (by simpa using hend), splitLines_lineFeed]
    rfl
  | case5 c s hpair hend line lines hlines ih =>
    obtain ⟨blank, hblank, hsplit⟩ := ih
    refine ⟨blank, hblank, ?_⟩
    rw [List.cons_append, splitLines_cons (by simpa using hend), hsplit, hlines]
    rfl

/-! ## Filled texts -/

/-- A text is filled when it is not empty and neither of its ends is blank. -/
structure IsFilled (t : Text) : Prop where
  /-- Something stands in the text. -/
  ne_nil : t ≠ []
  /-- No blank stands at an end of the text. -/
  trimmed : strip t = t

/-- Something is left of a filled text when it is trimmed. -/
theorem IsFilled.strip_ne_nil {t : Text} (h : IsFilled t) : strip t ≠ [] := h.trimmed.symm ▸ h.ne_nil

/-- Trimming leaves a filled text, or nothing. -/
theorem isFilled_strip {t : Text} (h : strip t ≠ []) : IsFilled (strip t) := ⟨h, strip_strip t⟩

/-- A text that does not end in a blank is filled without the blanks at its start, unless nothing is left. -/
theorem isFilled_stripStart {t : Text} (h : stripStart t ≠ []) (ht : ∀ c ∈ t.getLast?, isBlank c = false) :
    IsFilled (stripStart t) := by
  have hstart : stripStart (stripStart t) = stripStart t := List.dropWhile_idempotent _ _
  have hend := isBlank_getLast_of_isSuffix (List.dropWhile_suffix isBlank) ht
  exact ⟨h, strip_eq_self_iff.mpr ⟨stripStart_eq_self_iff.mp hstart, hend⟩⟩

/-- Filled texts with a space between neighbours are filled. -/
theorem isFilled_join {parts : List Text} (hne : parts ≠ []) (h : ∀ part ∈ parts, IsFilled part) :
    IsFilled (join " " parts) := by
  induction parts with
  | nil => exact absurd rfl hne
  | cons s parts ih =>
    obtain ⟨hs, hparts⟩ := List.forall_mem_cons.mp h
    cases parts with
    | nil => rwa [join_singleton]
    | cons t parts =>
      have ht := ih (List.cons_ne_nil t parts) hparts
      rw [join_cons_cons]
      exact ⟨List.append_ne_nil_of_right_ne_nil _ ht.ne_nil,
        strip_append_append hs.trimmed ht.trimmed hs.ne_nil ht.ne_nil⟩

/-! ## Phrases -/

/-- Whether a text can fill the end of a line: it is not empty, trimmed and on one line. -/
def isPhrase (t : Text) : Bool := !t.isEmpty && (strip t == t && isOneLine t)

/-- A phrase is not empty, trimmed and on one line. -/
theorem isPhrase_iff {t : Text} : isPhrase t = true ↔ t ≠ [] ∧ strip t = t ∧ isOneLine t = true := by
  simp [isPhrase]

/-- A word is a phrase. -/
theorem isPhrase_of_isWord {t : Text} (h : isWord t = true) : isPhrase t = true :=
  isPhrase_iff.mpr ⟨(isWord_iff.mp h).1, strip_of_isWord h, isOneLine_of_isWord h⟩

/-- Phrases with a text on one line between them are a phrase. -/
theorem isPhrase_append {s m t : Text} (hs : isPhrase s = true) (hm : isOneLine m = true) (ht : isPhrase t = true) :
    isPhrase (s ++ m ++ t) = true := by
  rw [isPhrase_iff] at hs ht ⊢
  refine ⟨by simp [hs.1], strip_append_append hs.2.1 ht.2.1 hs.1 ht.1, ?_⟩
  rw [isOneLine_append, isOneLine_append, hs.2.2, hm, ht.2.2]
  rfl

/-- Phrases with a space between neighbours are a phrase. -/
theorem isPhrase_join {parts : List Text} (hne : parts ≠ []) (h : ∀ part ∈ parts, isPhrase part = true) :
    isPhrase (join " " parts) = true := by
  have hparts := fun part hpart => isPhrase_iff.mp (h part hpart)
  have hfilled := isFilled_join hne fun part hpart => ⟨(hparts part hpart).1, (hparts part hpart).2.1⟩
  have hline : isOneLine (join " " parts) = true := by
    refine join_of_append (motive := fun t => isOneLine t = true) (fun s t hs ht => ?_) (by decide) hne
      fun part hpart => (hparts part hpart).2.2
    rw [isOneLine_append, hs, ht]
    rfl
  exact isPhrase_iff.mpr ⟨hfilled.ne_nil, hfilled.trimmed, hline⟩

/-! ## Last parts of a line -/

/-- Whether a text can be the last part of a line: it is not empty, trimmed and without a line feed. Characters that end
lines in other ways may occur in it. -/
def isLastPart (t : Text) : Bool := !t.isEmpty && (strip t == t && !t.contains '\n')

/-- A last part is not empty, trimmed and without a line feed. -/
theorem isLastPart_iff {t : Text} : isLastPart t = true ↔ t ≠ [] ∧ strip t = t ∧ '\n' ∉ t := by
  simp [isLastPart]

/-- A phrase can be the last part of a line. -/
theorem isLastPart_of_isPhrase {t : Text} (h : isPhrase t = true) : isLastPart t = true := by
  obtain ⟨hne, htrim, hline⟩ := isPhrase_iff.mp h
  exact isLastPart_iff.mpr ⟨hne, htrim, fun hmem => absurd (isOneLine_iff.mp hline _ hmem) (by decide)⟩

/-- A word can be the last part of a line. -/
theorem isLastPart_of_isWord {t : Text} (h : isWord t = true) : isLastPart t = true :=
  isLastPart_of_isPhrase (isPhrase_of_isWord h)

/-- Last parts with a space between neighbours can be the last part of a line together. -/
theorem isLastPart_join {parts : List Text} (hne : parts ≠ []) (h : ∀ part ∈ parts, isLastPart part = true) :
    isLastPart (join " " parts) = true := by
  have hparts := fun part hpart => isLastPart_iff.mp (h part hpart)
  have hfilled := isFilled_join hne fun part hpart => ⟨(hparts part hpart).1, (hparts part hpart).2.1⟩
  have hfeed : '\n' ∉ join " " parts :=
    join_of_append (motive := fun t => '\n' ∉ t) (fun s t hs ht => by simp [hs, ht]) (by decide) hne
      fun part hpart => (hparts part hpart).2.2
  exact isLastPart_iff.mpr ⟨hfilled.ne_nil, hfilled.trimmed, hfeed⟩

/-- A last part does not start with a blank. -/
theorem head?_of_isLastPart {t : Text} (h : isLastPart t = true) : ∀ c ∈ t.head?, isBlank c = false :=
  (strip_eq_self_iff.mp (isLastPart_iff.mp h).2.1).1

/-! ## Capitalised words -/

/-- Whether a text starts with a space, a capital and a small letter. -/
def startsCapitalised : Text → Bool
  | ' ' :: x :: y :: _ => isCapital x && isSmall y
  | _ => false

/-- Whether a space stands somewhere in front of a capital and a small letter. -/
def hasCapitalised (t : Text) : Bool := t.tails.any startsCapitalised

/-- A text starts with a capitalised word behind a space when its first characters are these. -/
theorem startsCapitalised_iff {t : Text} : startsCapitalised t = true ↔
    ∃ x y, isCapital x = true ∧ isSmall y = true ∧ [' ', x, y] <+: t := by
  constructor
  · intro h
    unfold startsCapitalised at h
    split at h
    · rename_i x y u
      obtain ⟨hx, hy⟩ := Bool.and_eq_true_iff.mp h
      exact ⟨x, y, hx, hy, u, rfl⟩
    · cases h
  · rintro ⟨x, y, hx, hy, u, rfl⟩
    exact Bool.and_eq_true_iff.mpr ⟨hx, hy⟩

/-- A text that starts with a capitalised word is cut at once. -/
theorem cutCapitalised?_of_starts {t : Text} (h : startsCapitalised t = true) : cutCapitalised? t = some ([], t) := by
  obtain ⟨x, y, hx, hy, u, rfl⟩ := startsCapitalised_iff.mp h
  rw [List.cons_append, List.cons_append, List.cons_append, cutCapitalised?, hx, hy]
  rfl

/-- A character that starts no capitalised word stays in front of the cut. -/
theorem cutCapitalised?_cons {c : Char} {t : Text} (h : startsCapitalised (c :: t) = false) :
    cutCapitalised? (c :: t) = (cutCapitalised? t).map fun (head, rest) => (c :: head, rest) := by
  rw [cutCapitalised?.eq_def]
  split
  · rename_i x y u heq
    obtain ⟨rfl, rfl⟩ := List.cons.inj heq
    rw [if_neg (by simpa [startsCapitalised] using h)]
  · rename_i heq
    obtain ⟨rfl, rfl⟩ := List.cons.inj heq
    rfl
  · rename_i heq
    cases heq

/-- A text without a capitalised word is not cut. -/
theorem cutCapitalised?_eq_none {t : Text} (h : hasCapitalised t = false) : cutCapitalised? t = none := by
  induction t with
  | nil => rfl
  | cons c t ih =>
    rw [hasCapitalised, List.tails_cons, List.any_cons, Bool.or_eq_false_iff] at h
    rw [cutCapitalised?_cons h.1, ih h.2]
    rfl

/-- A space behind a text does not make a capitalised word of its start. -/
theorem startsCapitalised_append_space {c : Char} {s : Text} (h : startsCapitalised (c :: s) = false) (t : Text) :
    startsCapitalised (c :: (s ++ ' ' :: t)) = false := by
  rw [← Bool.not_eq_true] at h ⊢
  intro hstarts
  obtain ⟨x, y, hx, hy, hfirst⟩ := startsCapitalised_iff.mp hstarts
  obtain ⟨rfl, hpair⟩ := List.cons_prefix_cons.mp hfirst
  -- A text of one or two characters leaves the place of the capital or of the small letter to the space.
  obtain _ | ⟨d, _ | ⟨e, s⟩⟩ := s
  · obtain ⟨rfl, -⟩ := List.cons_prefix_cons.mp hpair
    exact absurd hx (by decide)
  · obtain ⟨rfl, hlast⟩ := List.cons_prefix_cons.mp hpair
    obtain ⟨rfl, -⟩ := List.cons_prefix_cons.mp hlast
    exact absurd hy (by decide)
  · obtain ⟨rfl, hlast⟩ := List.cons_prefix_cons.mp hpair
    obtain ⟨rfl, -⟩ := List.cons_prefix_cons.mp hlast
    exact h (startsCapitalised_iff.mpr ⟨x, y, hx, hy, s, rfl⟩)

/-- A text without a capitalised word is what is cut off in front of one. -/
theorem cutCapitalised?_append {s t : Text} (hs : hasCapitalised s = false) (ht : startsCapitalised (' ' :: t) = true) :
    cutCapitalised? (s ++ ' ' :: t) = some (s, ' ' :: t) := by
  induction s with
  | nil => exact cutCapitalised?_of_starts ht
  | cons c s ih =>
    rw [hasCapitalised, List.tails_cons, List.any_cons, Bool.or_eq_false_iff] at hs
    rw [List.cons_append, cutCapitalised?_cons (startsCapitalised_append_space hs.1 t), ih hs.2]
    rfl

/-- A capitalised word stands behind a cut in front of one. -/
theorem startsCapitalised_of_cutCapitalised? {t head rest : Text} (h : cutCapitalised? t = some (head, rest)) :
    startsCapitalised rest = true := by
  induction t generalizing head with
  | nil => cases h
  | cons c t ih =>
    cases hstarts : startsCapitalised (c :: t) with
    | true =>
      rw [cutCapitalised?_of_starts hstarts] at h
      obtain ⟨-, rfl⟩ := Prod.mk.inj (Option.some.inj h)
      exact hstarts
    | false =>
      rw [cutCapitalised?_cons hstarts] at h
      obtain ⟨⟨head', rest'⟩, hcut, heq⟩ := Option.map_eq_some_iff.mp h
      obtain ⟨-, rfl⟩ := Prod.mk.inj heq
      exact ih hcut

/-- Something is left of a text that starts with a capitalised word when it is trimmed. -/
theorem strip_ne_nil_of_startsCapitalised {t : Text} (h : startsCapitalised t = true) : strip t ≠ [] := by
  obtain ⟨x, y, hx, -, u, rfl⟩ := startsCapitalised_iff.mp h
  have htrim : strip ([' ', x, y] ++ u) = x :: stripEnd (y :: u) := by
    calc strip ([' ', x, y] ++ u) = strip (x :: y :: u) := strip_blanks_append isBlank_of_mem_space _
      _ = x :: stripEnd (y :: u) := strip_cons (isBlank_of_isCapital hx) _
  rw [htrim]
  exact List.cons_ne_nil x _

end LuaTypings.Text
