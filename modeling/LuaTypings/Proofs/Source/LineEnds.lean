import LuaTypings.Proofs.Declaration.DroppedClass

/-!
# Line ends of a source

A source reaches the program as it was sent, or out of a file whose line ends were made line feeds, and it may have been
written where a return stands in front of every line feed. What becomes of it is the same each time. Made line feeds, the
ends of a text leave its lines as they are (`splitLines_unifyNewlines`). Returns in front of line feeds do not quite: a
return that ended a line together with the line feed behind it now ends a line alone, and an empty line comes in. It is
never the first line, and all lines that are not empty stay (`splitLines_withReturns`); and an empty line is read without
a trace (`Progress.readLines_filter`).
-/

namespace LuaTypings

namespace Text

/-- The text with a return in front of every line feed. -/
def withReturns (t : Text) : Text := t.flatMap fun c => if c = '\n' then ['\r', '\n'] else [c]

/-- A line feed gets a return in front of it. -/
theorem withReturns_lineFeed (t : Text) : withReturns ('\n' :: t) = '\r' :: '\n' :: withReturns t := rfl

/-- Every other character stays. -/
theorem withReturns_cons {c : Char} (hc : c ≠ '\n') (t : Text) : withReturns (c :: t) = c :: withReturns t := by
  unfold withReturns
  rw [List.flatMap_cons, if_neg hc, List.singleton_append]

/-- Behind a character there is never a bare line feed. -/
theorem head?_withReturns (t : Text) : (withReturns t).head? ≠ some '\n' := by
  cases t with
  | nil => simp [withReturns]
  | cons c t =>
    by_cases hc : c = '\n'
    · subst hc
      rw [withReturns_lineFeed]
      simp
    · rw [withReturns_cons hc]
      simpa using hc

/-! ## Line feeds for all line ends of a file -/

/-- The lines of a text do not depend on the form that its returns and line feeds have. -/
theorem splitLines_unifyNewlines (t : Text) : splitLines (unifyNewlines t) = splitLines t := by
  fun_induction unifyNewlines t with
  | case1 => rfl
  | case2 t ih =>
    rw [splitLines_lineFeed, ih]
    rfl
  | case3 t hpair ih =>
    have hhead : t.head? ≠ some '\n' := fun h => by
      obtain ⟨rest, rfl⟩ := List.head?_eq_some_iff.mp h
      exact hpair rest rfl
    rw [splitLines_lineFeed, ih, splitLines_lineEnd (by decide) fun _ => hhead]
  | case4 c t hpair hreturn ih =>
    by_cases hend : isLineEnd c = true
    · have hc : c ≠ '\r' := fun h => hreturn h
      rw [splitLines_lineEnd hend fun h => absurd h hc, splitLines_lineEnd hend fun h => absurd h hc, ih]
    · rw [Bool.not_eq_true] at hend
      rw [splitLines_cons hend, splitLines_cons hend, ih]

/-! ## Returns in front of line feeds -/

/-- The lines that are not empty. -/
def filled (lines : List Text) : List Text := lines.filter (· ≠ [])

/-- Lines that differ in empty ones behind the first line only. A character in front of a text goes into its first line,
so that one has to be the same even when it is empty. -/
structure SameFilled (s u : List Text) : Prop where
  /-- The first line is the same. -/
  first : s.head? = u.head?
  /-- So are the lines behind it that are not empty. -/
  later : filled s.tail = filled u.tail

namespace SameFilled

variable {s u : List Text}

/-- All in all the lines that are not empty are the same. -/
theorem filled_eq (h : SameFilled s u) : filled s = filled u := by
  obtain ⟨hfirst, hlater⟩ := h
  cases s with
  | nil =>
    cases u with
    | nil => rfl
    | cons line u => cases hfirst
  | cons line s =>
    cases u with
    | nil => cases hfirst
    | cons first u =>
      obtain rfl : line = first := Option.some.inj hfirst
      calc filled (line :: s) = filled [line] ++ filled s := List.filter_append [line] s
        _ = filled [line] ++ filled u := congrArg _ hlater
        _ = filled (line :: u) := (List.filter_append [line] u).symm

/-- A line in front of both. -/
theorem cons (line : Text) (h : SameFilled s u) : SameFilled (line :: s) (line :: u) := ⟨rfl, h.filled_eq⟩

/-- Two empty lines in front of the one stand for one in front of the other. -/
theorem cons_cons (h : SameFilled s u) : SameFilled ([] :: [] :: s) ([] :: u) := ⟨rfl, h.filled_eq⟩

end SameFilled

/-- Returns in front of line feeds bring in nothing but empty lines. -/
theorem splitLines_withReturns (t : Text) : SameFilled (splitLines (withReturns t)) (splitLines t) := by
  fun_induction splitLines t with
  | case1 => exact ⟨rfl, rfl⟩
  | case2 t ih =>
    -- The return stands alone now, in front of the return that the line feed gets.
    have hlines : splitLines (withReturns ('\r' :: '\n' :: t)) = [] :: [] :: splitLines (withReturns t) := by
      rw [withReturns_cons (by decide), withReturns_lineFeed, splitLines_lineEnd (by decide) (by simp)]
      rfl
    rw [hlines]
    exact ih.cons_cons
  | case3 c t hpair hend ih =>
    have hlines : splitLines (withReturns (c :: t)) = [] :: splitLines (withReturns t) := by
      by_cases hc : c = '\n'
      · subst hc
        rfl
      · rw [withReturns_cons hc, splitLines_lineEnd hend fun _ => head?_withReturns t]
    rw [hlines]
    exact ih.cons []
  | case4 c t hpair hend hnone ih =>
    have ht : t = [] := splitLines_eq_nil_iff.mp hnone
    have hc : c ≠ '\n' := fun h => hend (by rw [h]; decide)
    subst ht
    rw [withReturns_cons hc, splitLines_cons (by simpa using hend)]
    exact ⟨rfl, rfl⟩
  | case5 c t hpair hend line lines hlines ih =>
    have hc : c ≠ '\n' := fun h => hend (by rw [h]; decide)
    rw [hlines] at ih
    obtain ⟨rest, hrest⟩ := List.head?_eq_some_iff.mp ih.first
    rw [withReturns_cons hc, splitLines_cons (by simpa using hend)]
    rw [hrest] at ih ⊢
    exact ⟨rfl, ih.later⟩

end Text

/-! ## Reading the lines -/

namespace Source.Progress

/-- Empty lines can be left out. -/
theorem readLines_filled (p : Progress) (lines : List Text) : p.readLines (Text.filled lines) = p.readLines lines := by
  induction lines generalizing p with
  | nil => rfl
  | cons line lines ih =>
    by_cases hline : line = []
    · subst hline
      calc p.readLines (Text.filled ([] :: lines)) = p.readLines (Text.filled lines) := rfl
        _ = p.readLines lines := ih p
        _ = p.readLines ([] :: lines) := rfl
    · have hkept : Text.filled (line :: lines) = line :: Text.filled lines := by simp [Text.filled, hline]
      rw [hkept, readLines_cons, readLines_cons, ih]

end Source.Progress

namespace Model

/-- A model does not depend on the form of a source's returns and line feeds. -/
theorem ofSource_unifyNewlines (source : Text) : ofSource (Text.unifyNewlines source) = ofSource source := by
  rw [ofSource, ofSource, Text.splitLines_unifyNewlines]

/-- A model does not change with returns in front of the line feeds of its source. -/
theorem ofSource_withReturns (source : Text) : ofSource (Text.withReturns source) = ofSource source := by
  rw [ofSource, ofSource, ofLines, ofLines, ← Source.Progress.readLines_filled,
    (Text.splitLines_withReturns source).filled_eq, Source.Progress.readLines_filled]

end Model

/-- **Line ends.** Whichever renderer is used, what becomes of a source is the same for the source as it was sent, with its
returns and line feeds as a file is read, and with a return in front of every line feed. -/
theorem Outcome.ofSourceBy_lineEnds (renderer : Renderer) (source : Text) (spec : ModuleSpec) :
    ofSourceBy renderer (Text.unifyNewlines source) spec = ofSourceBy renderer source spec ∧
      ofSourceBy renderer (Text.withReturns source) spec = ofSourceBy renderer source spec := by
  constructor
  · rw [ofSourceBy, Model.ofSource_unifyNewlines]
    rfl
  · rw [ofSourceBy, Model.ofSource_withReturns]
    rfl

end LuaTypings
