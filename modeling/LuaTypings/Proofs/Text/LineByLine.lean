import LuaTypings.Proofs.Text.Substitution

/-!
# Substitution line by line

A rule keeps to a line when it finds there the same with further lines behind the line as without them (`Rule.KeepsTo`).
A substitution whose rule keeps to every line of a text changes the lines one by one (`substitute_eq_mapLines`), and its
rule applies nowhere in the text if it applies nowhere in a line (`isIdle_of_lines`). The rule must not see whether a line
feed stands in front of a place or the text starts there. Changes of the lines that are made one after another are one
such change together (`foldl_eq_mapLines`).
-/

namespace LuaTypings.Text

variable {rule : Rule} {previous : Option Char} {line t : Text}

/-! ## Texts by their first line -/

/-- What holds of every line, and of a line in front of any text that it holds of, holds of every text. -/
theorem line_induction {motive : Text → Prop} (line : ∀ line, '\n' ∉ line → motive line)
    (cons : ∀ line t, '\n' ∉ line → motive t → motive (line ++ '\n' :: t)) (t : Text) : motive t := by
  -- A first line has no fixed length, so the induction is on the length of the text.
  induction hn : t.length using Nat.strongRecOn generalizing t with
  | ind n ih =>
    by_cases hfeed : '\n' ∈ t
    · obtain ⟨first, rest, rfl, hfirst⟩ := List.eq_append_cons_of_mem hfeed
      refine cons first rest hfirst (ih rest.length ?_ rest rfl)
      rw [← hn, List.length_append, List.length_cons]
      omega
    · exact line t hfeed

/-- A line is the only line of itself. -/
theorem splitAll_line (h : '\n' ∉ line) : splitAll (· == '\n') line = [line] :=
  splitAll_of_forall fun _ hc => beq_false_of_ne fun heq => h (heq ▸ hc)

/-- The lines of a text with a line in front are that line and the lines of the text. -/
theorem splitAll_line_append (h : '\n' ∉ line) (t : Text) :
    splitAll (· == '\n') (line ++ '\n' :: t) = line :: splitAll (· == '\n') t := by
  rw [@splitAll_append_cons (· == '\n') '\n' (beq_self_eq_true _), splitAll_line h, List.singleton_append]

/-- A change of lines changes the only line of a line. -/
theorem mapLines_line (h : '\n' ∉ line) (change : Text → Text) : mapLines change line = change line := by
  rw [mapLines, splitAll_line h, List.map_singleton, join_singleton]

/-- A change of lines changes the first line and the text behind it. -/
theorem mapLines_line_append (h : '\n' ∉ line) (change : Text → Text) (t : Text) :
    mapLines change (line ++ '\n' :: t) = change line ++ '\n' :: mapLines change t := by
  obtain ⟨next, lines, hlines⟩ := exists_splitAll (· == '\n') t
  rw [mapLines, mapLines, splitAll_line_append h, hlines, List.map_cons, List.map_cons, join_cons_cons]
  simp

/-! ## Rules that keep to a line -/

/-- The rule finds at every place of a line that stands behind a character, with further lines behind it, what it finds
in the line by itself. -/
def Rule.KeepsTo (rule : Rule) (previous : Option Char) (line : Text) : Prop :=
  ∀ before after, line = before ++ after → ∀ more,
    rule (before.getLast?.or previous) (after ++ '\n' :: more) =
      (rule (before.getLast?.or previous) after).map fun (written, rest) => (written, rest ++ '\n' :: more)

/-- A rule that keeps to a line keeps to the end of it. -/
theorem Rule.KeepsTo.of_append {s : Text} (h : rule.KeepsTo previous (s ++ t)) :
    rule.KeepsTo (s.getLast?.or previous) t := by
  rintro before after rfl more
  have hplace : (s ++ before).getLast?.or previous = before.getLast?.or (s.getLast?.or previous) := by
    rw [List.getLast?_append, Option.or_assoc]
  rw [← hplace]
  exact h (s ++ before) after (List.append_assoc s before after).symm more

/-- A rule keeps to a line when more text behind a place does not change what it finds there, and it finds nothing with
further lines where it finds nothing without them. -/
theorem Rule.KeepsTo.of_cases
    (happend : ∀ ⦃place s written rest⦄, rule place s = some (written, rest) → ∀ u,
      rule place (s ++ u) = some (written, rest ++ u))
    (hstays : ∀ before after, line = before ++ after → rule (before.getLast?.or previous) after = none → ∀ more,
      rule (before.getLast?.or previous) (after ++ '\n' :: more) = none) : rule.KeepsTo previous line := by
  intro before after hsplit more
  cases h : rule (before.getLast?.or previous) after with
  | none => exact hstays before after hsplit h more
  | some found => exact happend h ('\n' :: more)

/-- A rule that takes something finds nothing in an empty text. -/
theorem Rule.Takes.apply_nil (htakes : rule.Takes) (previous : Option Char) : rule previous [] = none := by
  refine Option.eq_none_iff_forall_ne_some.mpr ?_
  rintro ⟨written, rest⟩ h
  obtain ⟨taken, hne, heq⟩ := htakes h
  exact hne (List.append_eq_nil_iff.mp heq.symm).1

/-- A rule that keeps to a line does not apply at the line feed behind it. -/
theorem Rule.KeepsTo.lineFeed (htakes : rule.Takes) (h : rule.KeepsTo previous line) (more : Text) :
    rule (line.getLast?.or previous) ('\n' :: more) = none := by
  have hend := h line [] (List.append_nil line).symm more
  rwa [htakes.apply_nil, Option.map_none, List.nil_append] at hend

/-- A substitution whose rule keeps to a line changes the line and, behind the line feed, the other lines. -/
theorem substituteFrom_append_lineFeed (htakes : rule.Takes) (h : rule.KeepsTo previous line) (more : Text) :
    substituteFrom rule none 0 previous (line ++ '\n' :: more) =
      substituteFrom rule none 0 previous line ++ '\n' :: substituteFrom rule none 0 (some '\n') more := by
  revert h
  refine substituteFrom_induction htakes
    (motive := fun previous s u => rule.KeepsTo previous s →
      substituteFrom rule none 0 previous (s ++ '\n' :: more) =
        u ++ '\n' :: substituteFrom rule none 0 (some '\n') more) ?_ ?_ ?_ previous line
  · intro previous h
    exact substituteFrom_keep (h.lineFeed htakes more)
  · intro previous c s hnone ih h
    have hmore : rule previous (c :: s ++ '\n' :: more) = none := by
      have hfirst := h [] (c :: s) rfl more
      rwa [List.getLast?_nil, Option.none_or, hnone, Option.map_none] at hfirst
    rw [List.cons_append] at hmore ⊢
    rw [substituteFrom_keep hmore, ih (Rule.KeepsTo.of_append (s := [c]) h)]
    rfl
  · intro previous taken rest written hne hrule ih h
    have hmore : rule previous (taken ++ (rest ++ '\n' :: more)) = some (written, rest ++ '\n' :: more) := by
      have hfirst := h [] (taken ++ rest) rfl more
      rwa [List.getLast?_nil, Option.none_or, hrule, Option.map_some, List.append_assoc] at hfirst
    have hrest : rule.KeepsTo taken.getLast? rest := by
      have hplace : taken.getLast?.or previous = taken.getLast? := by
        rw [List.getLast?_eq_some_getLast hne, Option.some_or]
      exact hplace ▸ h.of_append
    rw [List.append_assoc, substituteFrom_write hne hmore, ih hrest, List.append_assoc]

/-- A substitution makes no second line of a line when its rule writes no line feed that it does not take. -/
theorem keepsLines_substitute (htakes : rule.Takes)
    (hwrite : ∀ ⦃previous t written rest⦄, rule previous t = some (written, rest) → '\n' ∉ t → '\n' ∉ written) :
    KeepsLines (substitute rule none) := by
  intro line hline
  revert hline
  refine substituteFrom_induction htakes (motive := fun _ t u => '\n' ∉ t → '\n' ∉ u) ?_ ?_ ?_ none line
  · exact fun _ h => h
  · intro previous c t _ ih h
    rw [List.mem_cons, not_or] at h ⊢
    exact ⟨h.1, ih h.2⟩
  · intro previous taken rest written _ hrule ih h
    have hwritten := hwrite hrule h
    rw [List.mem_append, not_or] at h ⊢
    exact ⟨hwritten, ih h.2⟩

section Lines

variable (hstart : ∀ t, rule (some '\n') t = rule none t)

include hstart

/-- A substitution behind a line feed is one at the start of a text. -/
theorem substituteFrom_lineFeed (t : Text) :
    substituteFrom rule none 0 (some '\n') t = substituteFrom rule none 0 none t := by
  cases t with
  | nil => rfl
  | cons c t => rw [substituteFrom, substituteFrom, hstart]

/-- A substitution whose rule keeps to every line changes every line by itself. -/
theorem substitute_eq_mapLines (htakes : rule.Takes) (h : ∀ line ∈ splitAll (· == '\n') t, rule.KeepsTo none line) :
    substitute rule none t = mapLines (substitute rule none) t := by
  induction t using line_induction with
  | line line hline => rw [mapLines_line hline]
  | cons line t hline ih =>
    rw [splitAll_line_append hline] at h
    obtain ⟨hkeeps, hrest⟩ := List.forall_mem_cons.mp h
    rw [mapLines_line_append hline, ← ih hrest, substitute, substituteFrom_append_lineFeed htakes hkeeps,
      substituteFrom_lineFeed hstart]
    rfl

/-- A rule that keeps to the lines of a text applies nowhere when it applies nowhere in a line. -/
theorem isIdle_of_lines (htakes : rule.Takes)
    (h : ∀ line ∈ splitAll (· == '\n') t, rule.KeepsTo none line ∧ rule.IsIdle none line) : rule.IsIdle none t := by
  induction t using line_induction with
  | line line hline => exact (h line (by simp [splitAll_line hline])).2
  | cons line t hline ih =>
    rw [splitAll_line_append hline] at h
    obtain ⟨⟨hkeeps, hidle⟩, hrest⟩ := List.forall_mem_cons.mp h
    refine isIdle_append.mpr ⟨fun before c after hsplit => ?_, hkeeps.lineFeed htakes t, ?_⟩
    · rw [hkeeps before (c :: after) hsplit t, isIdle_iff.mp hidle before c after hsplit]
      rfl
    · -- Behind a line feed a place is like one at the start.
      have hidle := ih hrest
      cases t with
      | nil => trivial
      | cons d t => exact ⟨(hstart (d :: t)).trans hidle.1, hidle.2⟩

end Lines

/-! ## Word boundaries -/

/-- More text behind a place with a character does not change whether a word starts or ends there. -/
theorem atWordBoundary_append {s : Text} (hne : s ≠ []) (previous : Option Char) (u : Text) :
    atWordBoundary previous (s ++ u) = atWordBoundary previous s := by
  rw [atWordBoundary, atWordBoundary, List.head?_append_of_ne_nil _ hne]

/-! ## Changes one after another -/

section Changes

variable {α : Type} {change : Text → α → Text} {list : List α}

/-- Changes that each make no second line of a line make none together. -/
theorem keepsLines_foldl (h : ∀ a ∈ list, KeepsLines (change · a)) : KeepsLines (list.foldl change ·) := by
  intro line hline
  induction list generalizing line with
  | nil => exact hline
  | cons a list ih =>
    exact ih (fun b hb => h b (List.mem_cons_of_mem a hb)) (h a List.mem_cons_self hline)

/-- Changes that each change every line by itself do so together, when what they need of the lines is left by each of
them. -/
theorem foldl_eq_mapLines (needs : Text → Prop) (hkeeps : ∀ a ∈ list, KeepsLines (change · a))
    (hleft : ∀ a ∈ list, ∀ line, needs line → needs (change line a))
    (hlines : ∀ a ∈ list, ∀ t, (∀ line ∈ splitAll (· == '\n') t, needs line) → change t a = mapLines (change · a) t)
    (ht : ∀ line ∈ splitAll (· == '\n') t, needs line) : list.foldl change t = mapLines (list.foldl change ·) t := by
  induction list generalizing t with
  | nil => exact (mapLines_eq_self fun _ _ => rfl).symm
  | cons a list ih =>
    have hfirst := hlines a List.mem_cons_self t ht
    have hchanged : ∀ line ∈ splitAll (· == '\n') (change t a), needs line := by
      rw [hfirst, splitAll_mapLines (hkeeps a List.mem_cons_self)]
      intro line hline
      obtain ⟨line, hmem, rfl⟩ := List.mem_map.mp hline
      exact hleft a List.mem_cons_self line (ht line hmem)
    have hrest := ih (fun b hb => hkeeps b (List.mem_cons_of_mem a hb))
      (fun b hb => hleft b (List.mem_cons_of_mem a hb)) (fun b hb => hlines b (List.mem_cons_of_mem a hb)) hchanged
    rw [List.foldl_cons, hrest, hfirst, mapLines_mapLines (hkeeps a List.mem_cons_self)]
    rfl

end Changes

end LuaTypings.Text
