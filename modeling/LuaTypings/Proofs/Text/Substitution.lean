import Mathlib.Data.List.Basic
import LuaTypings.Proofs.Text.Cut
import LuaTypings.Text.Substitute

/-!
# Substitution by a rule

A rule that takes something wherever it applies is tried at one place after another: `substituteFrom_induction` follows
it from left to right, over the characters that it keeps and the places where it writes. A rule that applies nowhere
changes nothing (`substituteFrom_of_isIdle`), so a substitution can be made again without effect as soon as it leaves no
place for its rule (`isIdle_substituteFrom`).

A text can also be changed line by line. The lines of the changed text are the changed lines (`splitAll_mapLines`), so
two such changes of a text are compared on its lines (`mapLines_eq_mapLines_iff`).
-/

namespace LuaTypings.Text

variable {rule : Rule}

/-- Wherever the rule applies it takes at least one character. -/
def Rule.Takes (rule : Rule) : Prop :=
  ∀ ⦃previous t written rest⦄, rule previous t = some (written, rest) → ∃ taken, taken ≠ [] ∧ t = taken ++ rest

/-! ## From left to right -/

/-- Where a text stands behind a character, so does what follows its first character. -/
theorem getLast?_cons_or (c : Char) (t : Text) (previous : Option Char) :
    (c :: t).getLast?.or previous = t.getLast?.or (some c) := by
  rw [List.getLast?_cons]
  cases t.getLast? <;> rfl

/-- Characters that are already taken are passed over. -/
theorem substituteFrom_append (rule : Rule) (limit : Option Nat) (previous : Option Char) (taken rest : Text) :
    substituteFrom rule limit taken.length previous (taken ++ rest) =
      substituteFrom rule limit 0 (taken.getLast?.or previous) rest := by
  induction taken generalizing previous with
  | nil => rfl
  | cons c taken ih => rw [List.length_cons, List.cons_append, substituteFrom, ih, getLast?_cons_or]

/-- A character where the rule does not apply is kept. -/
theorem substituteFrom_keep {previous : Option Char} {c : Char} {t : Text} (h : rule previous (c :: t) = none) :
    substituteFrom rule none 0 previous (c :: t) = c :: substituteFrom rule none 0 (some c) t := by
  rw [substituteFrom, if_neg (by simp), h]

/-- Where the rule applies its text is written, and what it takes is passed over. -/
theorem substituteFrom_write {previous : Option Char} {taken rest written : Text} (hne : taken ≠ [])
    (h : rule previous (taken ++ rest) = some (written, rest)) :
    substituteFrom rule none 0 previous (taken ++ rest) =
      written ++ substituteFrom rule none 0 taken.getLast? rest := by
  obtain ⟨c, taken, rfl⟩ := List.exists_cons_of_ne_nil hne
  have hskip : (taken ++ rest).length - rest.length = taken.length := by
    rw [List.length_append]
    omega
  have hlast : taken.getLast?.or (some c) = (c :: taken).getLast? := by
    rw [← getLast?_cons_or c taken none, Option.or_none]
  rw [List.cons_append] at h ⊢
  rw [substituteFrom, if_neg (by simp), h, ← hlast, ← substituteFrom_append, ← hskip]
  rfl

/-- What holds of an empty text, of a kept character in front and of a written text in front holds of every
substitution, whose place is given by the character before it. -/
theorem substituteFrom_induction (htakes : rule.Takes) {motive : Option Char → Text → Text → Prop}
    (nil : ∀ previous, motive previous [] [])
    (keep : ∀ previous c t, rule previous (c :: t) = none →
      motive (some c) t (substituteFrom rule none 0 (some c) t) →
        motive previous (c :: t) (c :: substituteFrom rule none 0 (some c) t))
    (write : ∀ previous taken rest written, taken ≠ [] → rule previous (taken ++ rest) = some (written, rest) →
      motive taken.getLast? rest (substituteFrom rule none 0 taken.getLast? rest) →
        motive previous (taken ++ rest) (written ++ substituteFrom rule none 0 taken.getLast? rest))
    (previous : Option Char) (t : Text) : motive previous t (substituteFrom rule none 0 previous t) := by
  -- What a rule takes has no fixed length, so the induction is on the length of the text.
  induction hn : t.length using Nat.strongRecOn generalizing previous t with
  | ind n ih =>
    cases t with
    | nil => exact nil previous
    | cons c t =>
      cases h : rule previous (c :: t) with
      | none =>
        rw [substituteFrom_keep h]
        exact keep previous c t h (ih t.length (by simp [← hn]) (some c) t rfl)
      | some result =>
        obtain ⟨written, rest⟩ := result
        obtain ⟨taken, hne, htaken⟩ := htakes h
        have hlength : rest.length < n := by
          have hpos := List.length_pos_of_ne_nil hne
          rw [← hn, htaken, List.length_append]
          omega
        rw [htaken] at h ⊢
        rw [substituteFrom_write hne h]
        exact write previous taken rest written hne h (ih rest.length hlength taken.getLast? rest rfl)

/-! ## Rules that apply nowhere -/

/-- The rule applies at no place of a text that stands behind a character. -/
def Rule.IsIdle (rule : Rule) : Option Char → Text → Prop
  | _, [] => True
  | previous, c :: t => rule previous (c :: t) = none ∧ IsIdle rule (some c) t

/-- A rule that applies nowhere changes nothing. -/
theorem substituteFrom_of_isIdle {previous : Option Char} {t : Text} (h : rule.IsIdle previous t)
    (limit : Option Nat) : substituteFrom rule limit 0 previous t = t := by
  induction t generalizing previous with
  | nil => rfl
  | cons c t ih =>
    obtain ⟨hnone, hrest⟩ := h
    rw [substituteFrom, hnone, ite_self, ih hrest]

/-- A rule applies nowhere in two texts when it applies neither in the first one, with the second behind it, nor in the
second one. -/
theorem isIdle_append {previous : Option Char} {s t : Text} :
    rule.IsIdle previous (s ++ t) ↔
      (∀ before c after, s = before ++ c :: after → rule (before.getLast?.or previous) (c :: after ++ t) = none) ∧
        rule.IsIdle (s.getLast?.or previous) t := by
  induction s generalizing previous with
  | nil => simp
  | cons d s ih =>
    rw [List.cons_append, Rule.IsIdle, ih, getLast?_cons_or]
    constructor
    · rintro ⟨hhead, htail, hrest⟩
      refine ⟨fun before c after hsplit => ?_, hrest⟩
      cases before with
      | nil =>
        obtain ⟨rfl, rfl⟩ := List.cons.inj hsplit
        exact hhead
      | cons e before =>
        obtain ⟨rfl, rfl⟩ := List.cons.inj hsplit
        rw [getLast?_cons_or]
        exact htail before c after rfl
    · rintro ⟨hall, hrest⟩
      refine ⟨hall [] d s rfl, fun before c after hsplit => ?_, hrest⟩
      rw [← getLast?_cons_or]
      exact hall (d :: before) c after (by rw [hsplit]; rfl)

/-- A rule applies nowhere exactly when it applies at none of the places of the text. -/
theorem isIdle_iff {previous : Option Char} {t : Text} :
    rule.IsIdle previous t ↔
      ∀ before c after, t = before ++ c :: after → rule (before.getLast?.or previous) (c :: after) = none := by
  have h := @isIdle_append rule previous t []
  simp only [List.append_nil, Rule.IsIdle, and_true] at h
  exact h

/-- A rule that applies where a word begins that starts something applies nowhere in a text exactly when nothing of that
kind starts there with a word of its own. -/
theorem isIdle_iff_of_boundary {starts : Text → Prop}
    (hrule : ∀ place t, rule place t = none ↔ ¬ (atWordBoundary place t = true ∧ starts t))
    (hne : ∀ t, starts t → t ≠ []) {t : Text} :
    rule.IsIdle none t ↔
      ¬ ∃ before after, t = before ++ after ∧ atWordBoundary before.getLast? after = true ∧ starts after := by
  rw [isIdle_iff]
  constructor
  · rintro hidle ⟨before, after, rfl, h⟩
    obtain ⟨c, after, rfl⟩ := List.exists_cons_of_ne_nil (hne after h.2)
    have hnone := hidle before c after rfl
    rw [Option.or_none, hrule] at hnone
    exact hnone h
  · intro hnowhere before c after hsplit
    rw [Option.or_none, hrule]
    exact fun h => hnowhere ⟨before, c :: after, hsplit, h⟩

/-! ## What a substitution leaves -/

/-- What starts in front of a text that a substitution leaves started there before, when this is so of what a rule writes
in front of any text. -/
theorem starts_of_substituteFrom (htakes : rule.Takes) {starts : Text → Prop}
    (hwrite : ∀ ⦃previous taken rest written⦄, rule previous (taken ++ rest) = some (written, rest) →
      ∀ s u, starts (s ++ (written ++ u)) → starts (s ++ (taken ++ rest)))
    (previous : Option Char) (t : Text) :
    ∀ s, starts (s ++ substituteFrom rule none 0 previous t) → starts (s ++ t) := by
  refine substituteFrom_induction htakes
    (motive := fun _ t u => ∀ s, starts (s ++ u) → starts (s ++ t)) ?_ ?_ ?_ previous t
  · exact fun _ s h => h
  · intro previous c t _ ih s h
    have hc := ih (s ++ [c]) (by simpa using h)
    simpa using hc
  · exact fun previous taken rest written _ hrule _ s h => hwrite hrule s _ h

/-- A substitution leaves no place for a rule that applies neither at a kept character nor in what is written. Both may
rest on what is known of the text at its place. What is written ends as what is taken does, so the text behind it stays in
its place. -/
theorem isIdle_substituteFrom (htakes : rule.Takes) {other : Rule} (known : Option Char → Text → Prop)
    (hkeep : ∀ ⦃previous c t⦄, rule previous (c :: t) = none → known previous (c :: t) →
      other previous (c :: substituteFrom rule none 0 (some c) t) = none ∧ known (some c) t)
    (hwrite : ∀ ⦃previous taken rest written⦄, rule previous (taken ++ rest) = some (written, rest) →
      known previous (taken ++ rest) → written.getLast? = taken.getLast? ∧ known taken.getLast? rest ∧
        ∀ before c after, written = before ++ c :: after → ∀ place u, other place (c :: after ++ u) = none)
    (previous : Option Char) (t : Text) (h : known previous t) :
    other.IsIdle previous (substituteFrom rule none 0 previous t) := by
  revert h
  refine substituteFrom_induction htakes
    (motive := fun previous t u => known previous t → other.IsIdle previous u) ?_ ?_ ?_ previous t
  · exact fun _ _ => trivial
  · intro previous c t hnone ih h
    obtain ⟨hhere, hrest⟩ := hkeep hnone h
    exact ⟨hhere, ih hrest⟩
  · intro previous taken rest written hne hrule ih h
    obtain ⟨hlast, hrest, hinside⟩ := hwrite hrule h
    have hplace : written.getLast?.or previous = taken.getLast? := by
      rw [hlast, List.getLast?_eq_some_getLast hne, Option.some_or]
    refine isIdle_append.mpr ⟨fun before c after hsplit => hinside before c after hsplit _ _, ?_⟩
    rw [hplace]
    exact ih hrest

/-! ## Changes of lines -/

/-- Whether a change makes no second line of a line. -/
def KeepsLines (change : Text → Text) : Prop := ∀ ⦃line⦄, '\n' ∉ line → '\n' ∉ change line

/-- A line has no line feed in it. -/
theorem not_mem_of_mem_splitAll {t line : Text} (h : line ∈ splitAll (· == '\n') t) : '\n' ∉ line :=
  fun hmem => absurd (eq_false_of_mem_splitAll h '\n' hmem) (by decide)

/-- The lines of a changed text are the changed lines. -/
theorem splitAll_mapLines {change : Text → Text} (h : KeepsLines change) (t : Text) :
    splitAll (· == '\n') (mapLines change t) = (splitAll (· == '\n') t).map change := by
  have hne : (splitAll (· == '\n') t).map change ≠ [] := by
    obtain ⟨line, lines, hlines⟩ := exists_splitAll (· == '\n') t
    simp [hlines]
  have hone : ∀ line ∈ splitAll (· == '\n') t, splitAll (· == '\n') (change line) = [change line] := by
    intro line hline
    refine splitAll_of_forall fun c hc => beq_false_of_ne ?_
    rintro rfl
    exact h (not_mem_of_mem_splitAll hline) hc
  calc splitAll (· == '\n') (mapLines change t)
      = ((splitAll (· == '\n') t).map change).flatMap (splitAll (· == '\n')) := splitAll_join hne
    _ = (splitAll (· == '\n') t).flatMap fun line => [change line] := by
        rw [List.flatMap_map]
        exact List.flatMap_congr hone
    _ = (splitAll (· == '\n') t).map change := List.map_eq_flatMap.symm

/-- Lines that stay as they are make up the same text. -/
theorem mapLines_eq_self {change : Text → Text} {t : Text} (h : ∀ line, line <:+: t → change line = line) :
    mapLines change t = t := by
  have hlines : (splitAll (· == '\n') t).map change = splitAll (· == '\n') t := by
    refine (List.map_congr_left fun line hline => ?_).trans (List.map_id _)
    have hin : line <:+: join ['\n'] (splitAll (· == '\n') t) := isInfix_join hline
    rw [join_splitAll] at hin
    exact h line hin
  rw [mapLines, hlines]
  exact join_splitAll '\n' t

/-- Changes of lines one after the other are one change. -/
theorem mapLines_mapLines {first : Text → Text} (h : KeepsLines first) (second : Text → Text) (t : Text) :
    mapLines second (mapLines first t) = mapLines (second ∘ first) t := by
  rw [mapLines, splitAll_mapLines h, List.map_map, mapLines]

/-- Two changes of a text are the same exactly when they are the same on all its lines. -/
theorem mapLines_eq_mapLines_iff {first second : Text → Text} (h : KeepsLines first) (h' : KeepsLines second)
    {t : Text} : mapLines first t = mapLines second t ↔ ∀ line ∈ splitAll (· == '\n') t, first line = second line := by
  constructor
  · intro heq
    have hlines := congrArg (splitAll (· == '\n')) heq
    rw [splitAll_mapLines h, splitAll_mapLines h'] at hlines
    exact List.map_inj_left.mp hlines
  · intro hall
    rw [mapLines, mapLines, List.map_inj_left.mpr hall]

/-! ## Changes one after another -/

/-- Changes that each leave a value as it is leave it so together. -/
theorem foldl_eq_self {α β : Type} {change : α → β → α} {a : α} {list : List β} (h : ∀ b ∈ list, change a b = a) :
    list.foldl change a = a := by
  induction list with
  | nil => rfl
  | cons b list ih =>
    obtain ⟨hfirst, hrest⟩ := List.forall_mem_cons.mp h
    rw [List.foldl_cons, hfirst, ih hrest]

end LuaTypings.Text
