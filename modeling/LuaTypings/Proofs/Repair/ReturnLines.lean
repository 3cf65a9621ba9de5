import LuaTypings.Proofs.Repair.TupleReturns
import LuaTypings.Proofs.Text.LineByLine

/-!
# Restored returns and lines

Nothing in the rule of a method keeps its parameters, the blanks behind the colon and the types on one line. So a line that
ends inside of them leaves the method open, and the returns of another member on a later line are taken for its own. The
rule keeps to a line that does not leave the method open (`keepsTo_tupleReturnRule`), and restoring one method leaves no
other one open (`isIdle_openRule_substituteFrom`), so a text without such lines is restored line by line
(`tupleReturns_by_line`).
-/

namespace LuaTypings.Repair

open Text (isWord isWordChar isBlank atWordBoundary splitAll mapLines KeepsLines)
open TypeText (severalReturns)

variable {shape otherShape : List Text} {method other : Text} {previous : Option Char} {line t : Text}

/-! ## Methods that are left open -/

/-- A text starts with a method that is not at its end on the line: with a line feed behind it, it starts one with cut
returns. -/
def LeftOpen (method t : Text) : Prop := ∃ r : CutReturn, t ++ ['\n'] <+: r.text method

/-- A line ends inside of a method whose name is a word of its own. -/
def LeavesOpen (method line : Text) : Prop :=
  ∃ before after, line = before ++ after ∧ atWordBoundary before.getLast? after = true ∧ LeftOpen method after

/-- A method with cut returns that starts on a line is cut short there, or the line leaves it open. -/
theorem StartsCutShort.of_lines {s more : Text} (h : StartsCutShort method (s ++ '\n' :: more)) :
    StartsCutShort method s ∨ LeftOpen method s := by
  obtain ⟨r, rest, hsplit⟩ := h
  have hmethod : r.text method <+: s ++ '\n' :: more := ⟨rest, hsplit.symm⟩
  have hline : s ++ ['\n'] <+: s ++ '\n' :: more := ⟨more, by simp⟩
  obtain hin | hout := List.prefix_or_prefix_of_prefix hmethod hline
  · obtain heq | ⟨rest, hrest⟩ := List.prefix_concat_iff.mp hin
    · have hlast := r.getLast?_text method
      rw [heq, List.getLast?_concat] at hlast
      exact absurd (Option.some.inj hlast) (by decide)
    · exact .inl ⟨r, rest, hrest.symm⟩
  · exact .inr ⟨r, hout⟩

/-- A method is left open in its parameters, behind the colon or in its types. -/
theorem LeftOpen.cases (hmethod : isWord method = true) (h : LeftOpen method t) :
    ∃ params, ')' ∉ params ∧ (t = method ++ '(' :: params ∨
      ∃ blanks, (∀ c ∈ blanks, isBlank c = true) ∧ (t = method ++ '(' :: (params ++ ')' :: ':' :: blanks) ∨
        ∃ types, ';' ∉ types ∧ t = method ++ '(' :: (params ++ ')' :: ':' :: (blanks ++ '(' :: types)))) := by
  obtain ⟨r, hr⟩ := h
  have htext : r.text method =
      method ++ '(' :: (r.params ++ ')' :: ([] ++ ':' :: (r.blanks ++ '(' :: ((r.types ++ [',']) ++ ';' :: [])))) := by
    simp [CutReturn.text, CutReturn.head]
  have hnil : ∀ v : Text, ¬ v ++ ['\n'] <+: [] := fun v h => by simpa using List.prefix_nil.mp h
  rw [htext] at hr
  obtain hname | ⟨v, rfl, hparams⟩ := Text.concat_isPrefix_append_cons (by decide) hr
  · have hfeed : '\n' ∈ method := hname.subset (List.mem_append_right t List.mem_cons_self)
    exact absurd hfeed (Text.not_mem_of_isWord hmethod (by decide))
  obtain hparams | ⟨v, rfl, hcolon⟩ := Text.concat_isPrefix_append_cons (by decide) hparams
  · exact ⟨v, fun hmem => r.params_open (hparams.subset (List.mem_append_left _ hmem)), .inl rfl⟩
  obtain hcolon | ⟨v, rfl, hblanks⟩ := Text.concat_isPrefix_append_cons (by decide) hcolon
  · exact absurd hcolon (hnil v)
  obtain hblanks | ⟨v, rfl, htypes⟩ := Text.concat_isPrefix_append_cons (by decide) hblanks
  · refine ⟨r.params, r.params_open, .inr ⟨v, fun c hc => ?_, .inl rfl⟩⟩
    exact r.blanks_blank c (hblanks.subset (List.mem_append_left _ hc))
  obtain htypes | ⟨v, rfl, hend⟩ := Text.concat_isPrefix_append_cons (by decide) htypes
  · refine ⟨r.params, r.params_open, .inr ⟨r.blanks, r.blanks_blank, .inr ⟨v, fun hmem => ?_, rfl⟩⟩⟩
    obtain hmem | hmem := List.mem_append.mp (htypes.subset (List.mem_append_left _ hmem))
    · exact r.types_open hmem
    · exact absurd (List.mem_singleton.mp hmem) (by decide)
  · exact absurd hend (hnil v)

/-- The name of a method that is left open stands in front of its open parenthesis. -/
theorem LeftOpen.exists_eq (hmethod : isWord method = true) (h : LeftOpen method t) :
    ∃ rest, t = method ++ '(' :: rest := by
  obtain ⟨params, -, rfl | ⟨blanks, -, rfl | ⟨types, -, rfl⟩⟩⟩ := h.cases hmethod <;> exact ⟨_, rfl⟩

/-- A method that is left open is not empty. -/
theorem LeftOpen.ne_nil (hmethod : isWord method = true) (h : LeftOpen method t) : t ≠ [] := by
  obtain ⟨rest, rfl⟩ := h.exists_eq hmethod
  simp

/-- Behind a closed parenthesis in a method that is left open there is no semicolon. -/
theorem LeftOpen.not_mem (hmethod : isWord method = true) {s u : Text} (h : LeftOpen method (s ++ ')' :: u)) :
    ';' ∉ u := by
  have hname : ')' ∉ method := Text.not_mem_of_isWord hmethod (by decide)
  -- The first closed parenthesis ends the parameters, so it is the given one or stands in front of it.
  have hbehind : ∀ params tail, ')' ∉ params → ';' ∉ tail → s ++ ')' :: u = method ++ '(' :: (params ++ ')' :: tail) →
      ';' ∉ u := by
    intro params tail hparams htail hsplit
    have hhead : ')' ∉ method ++ '(' :: params := by simp [hname, hparams]
    have hfirst : s ++ ')' :: u = (method ++ '(' :: params) ++ ')' :: tail := by simpa using hsplit
    obtain ⟨-, rfl⟩ | ⟨m, -, rfl⟩ := Text.eq_or_of_append_cons_eq hfirst hhead
    · exact htail
    · exact fun hmem => htail (by simp [hmem])
  have hblank : ∀ blanks : Text, (∀ c ∈ blanks, isBlank c = true) → ';' ∉ blanks := fun blanks hblanks hmem =>
    absurd (hblanks _ hmem) (by decide)
  obtain ⟨params, hparams, hsplit | ⟨blanks, hblanks, hsplit | ⟨types, htypes, hsplit⟩⟩⟩ := h.cases hmethod
  · have hin : ')' ∈ method ++ '(' :: params := hsplit ▸ List.mem_append_right s List.mem_cons_self
    simp [hname, hparams] at hin
  · exact hbehind params (':' :: blanks) hparams (by simp [hblank blanks hblanks]) hsplit
  · exact hbehind params (':' :: (blanks ++ '(' :: types)) hparams (by simp [hblank blanks hblanks, htypes]) hsplit

/-- A method that is left open is cut short by a later line that goes on accordingly. -/
theorem LeftOpen.startsCutShort (hmethod : isWord method = true) (h : LeftOpen method t) :
    StartsCutShort method (t ++ '\n' :: "(): (,;".toList) := by
  have hblank : isBlank '\n' = true ∧ isBlank ' ' = true := by decide
  obtain ⟨params, hparams, rfl | ⟨blanks, hblanks, rfl | ⟨types, htypes, rfl⟩⟩⟩ := h.cases hmethod
  · have hopen : ')' ∉ params ++ "\n(".toList := by simp [hparams]
    refine ⟨⟨params ++ "\n(".toList, [' '], [], hopen, by simp [hblank], by simp⟩, [], ?_⟩
    simp [CutReturn.text, CutReturn.head]
  · have hopen : ∀ c ∈ blanks ++ ['\n'], isBlank c = true := by
      simpa [or_imp, forall_and, hblank] using hblanks
    refine ⟨⟨params, blanks ++ ['\n'], "): (".toList, hparams, hopen, by decide⟩, [], ?_⟩
    simp [CutReturn.text, CutReturn.head]
  · have hopen : ';' ∉ types ++ "\n(): (".toList := by simp [htypes]
    refine ⟨⟨params, blanks, types ++ "\n(): (".toList, hparams, hblanks, hopen⟩, [], ?_⟩
    simp [CutReturn.text, CutReturn.head]

/-! ## Open methods after a restoration -/

open Classical in
/-- The rule that finds the places where a method is left open. -/
noncomputable def openRule (method : Text) : Text.Rule := fun previous t =>
  if atWordBoundary previous t = true ∧ LeftOpen method t then some ([], t) else none

/-- The rule finds nothing where a method is not left open. -/
theorem openRule_eq_none_iff :
    openRule method previous t = none ↔ ¬ (atWordBoundary previous t = true ∧ LeftOpen method t) := by
  simp [openRule]

/-- The rule finds no place in a line exactly when the line does not leave the method open. -/
theorem isIdle_openRule_iff (hmethod : isWord method = true) :
    (openRule method).IsIdle none line ↔ ¬ LeavesOpen method line :=
  Text.isIdle_iff_of_boundary (fun _ _ => openRule_eq_none_iff) fun _ h => h.ne_nil hmethod

/-- No method is left open from in front of a restored one. -/
theorem not_leftOpen_restored (hother : isWord other = true) (s m u : Text) :
    ¬ LeftOpen other (s ++ (m ++ ')' :: ':' :: ' ' :: severalReturns shape ++ ';' :: u)) := by
  intro h
  have hbehind : LeftOpen other ((s ++ m) ++ ')' :: (':' :: ' ' :: severalReturns shape ++ ';' :: u)) := by
    simpa using h
  exact hbehind.not_mem hother (by simp)

/-- Restoring the returns of a method leaves no method open that was not left open before. -/
theorem isIdle_openRule_substituteFrom (hother : isWord other = true) (hshape : ∀ type ∈ shape, isWord type = true)
    (h : (openRule other).IsIdle previous t) :
    (openRule other).IsIdle previous (Text.substituteFrom (tupleReturnRule shape method) none 0 previous t) := by
  refine Text.isIdle_substituteFrom takes_tupleReturnRule (openRule other).IsIdle ?_ ?_ previous t h
  · rintro previous c t - ⟨hhere, hrest⟩
    refine ⟨?_, hrest⟩
    rw [openRule_eq_none_iff] at hhere ⊢
    rintro ⟨hboundary, hopen⟩
    refine hhere ⟨hboundary, ?_⟩
    refine Text.starts_of_substituteFrom takes_tupleReturnRule (fun previous taken rest written hrule s u hwritten => ?_)
      (some c) t [c] hopen
    obtain ⟨-, r, -, rfl⟩ := tupleReturnRule_eq_some_iff.mp hrule
    have hopen' : LeftOpen other (s ++ (r.head method ++ ')' :: ':' :: ' ' :: severalReturns shape ++ ';' :: u)) := by
      simpa [CutReturn.restored] using hwritten
    exact absurd hopen' (not_leftOpen_restored hother s (r.head method) u)
  · intro previous taken rest written hrule hidle
    obtain ⟨-, r, htaken, rfl⟩ := tupleReturnRule_eq_some_iff.mp hrule
    obtain rfl := List.append_cancel_right htaken
    refine ⟨(r.getLast?_restored method shape).trans (r.getLast?_text method).symm, ?_,
      fun before c after hsplit place u => ?_⟩
    · have hrest := (Text.isIdle_append.mp hidle).2
      rwa [r.getLast?_text, Option.some_or, ← r.getLast?_text method] at hrest
    · rw [openRule_eq_none_iff]
      rintro ⟨-, hopen⟩
      obtain ⟨m, -, hafter⟩ | ⟨z, hz, hafter⟩ := r.place_restored hshape hsplit
      · rw [hafter] at hopen
        have hopen' : LeftOpen other ([] ++ (m ++ ')' :: ':' :: ' ' :: severalReturns shape ++ ';' :: u)) := by
          simpa using hopen
        exact not_leftOpen_restored hother [] m u hopen'
      · obtain ⟨rest, hrest⟩ := hopen.exists_eq hother
        rw [hafter, List.append_assoc] at hrest
        exact ne_of_not_mem_opener hother hz hrest

/-- The rule of a method keeps to a line that does not leave the method open. -/
theorem keepsTo_tupleReturnRule (hmethod : isWord method = true) (hline : ¬ LeavesOpen method line) :
    (tupleReturnRule shape method).KeepsTo none line := by
  refine Text.Rule.KeepsTo.of_cases ?_ ?_
  · intro place s written rest h u
    obtain ⟨hboundary, r, rfl, hwritten⟩ := tupleReturnRule_eq_some_iff.mp h
    have hne : r.text method ++ rest ≠ [] := by simp [CutReturn.text]
    refine tupleReturnRule_eq_some_iff.mpr ⟨?_, r, List.append_assoc _ _ _, hwritten⟩
    rwa [Text.atWordBoundary_append hne]
  · intro before after hsplit hnone more
    rw [tupleReturnRule_eq_none_iff] at hnone ⊢
    rw [Option.or_none] at hnone ⊢
    rintro ⟨hboundary, hstarts⟩
    have hne : after ≠ [] := hstarts.of_lines.elim (fun hshort => List.ne_nil_of_mem hshort.mem) (·.ne_nil hmethod)
    rw [Text.atWordBoundary_append hne] at hboundary
    obtain hshort | hopen := hstarts.of_lines
    · exact hnone ⟨hboundary, hshort⟩
    · exact hline ⟨before, after, hsplit, hboundary, hopen⟩

/-! ## All methods -/

/-- Restoring the returns of a method makes no second line of a line. -/
theorem keepsLines_restoreMethod (hshape : ∀ type ∈ shape, isWord type = true) :
    KeepsLines (restoreMethod · (shape, method)) := by
  refine Text.keepsLines_substitute takes_tupleReturnRule fun previous t written rest hrule hline => ?_
  obtain ⟨-, r, rfl, rfl⟩ := tupleReturnRule_eq_some_iff.mp hrule
  have hhead : '\n' ∉ r.head method := fun hmem => hline (by simp [CutReturn.text, hmem])
  have hreturns : '\n' ∉ severalReturns shape := not_mem_severalReturns hshape (by decide) (by decide)
  simp [CutReturn.restored, hhead, hreturns]

variable {families : List TupleFamily}

/-- A family has a method exactly when there is a pass for it. -/
theorem forall_passes_iff {holds : Text → Prop} :
    (∀ pass ∈ passes families, holds pass.2) ↔ ∀ family ∈ families, ∀ method ∈ family.methods, holds method := by
  simp only [passes, List.forall_mem_flatMap, List.forall_mem_map]

/-- The returns in a text whose lines leave none of the methods open are restored line by line. -/
theorem foldl_restoreMethod_eq_mapLines {list : List (List Text × Text)}
    (hwords : ∀ pass ∈ list, isWord pass.2 = true ∧ ∀ type ∈ pass.1, isWord type = true)
    (ht : ∀ line ∈ splitAll (· == '\n') t, ∀ pass ∈ list, ¬ LeavesOpen pass.2 line) :
    list.foldl restoreMethod t = mapLines (list.foldl restoreMethod ·) t := by
  refine Text.foldl_eq_mapLines (fun line => ∀ pass ∈ list, ¬ LeavesOpen pass.2 line)
    (fun pass hpass => keepsLines_restoreMethod (hwords pass hpass).2) ?_ ?_ ht
  · intro pass hpass line hline next hnext
    have hclosed := (isIdle_openRule_iff (hwords next hnext).1).mpr (hline next hnext)
    exact (isIdle_openRule_iff (hwords next hnext).1).mp
      (isIdle_openRule_substituteFrom (hwords next hnext).1 (hwords pass hpass).2 hclosed)
  · exact fun pass hpass t hlines => Text.substitute_eq_mapLines (fun _ => rfl) takes_tupleReturnRule fun line hline =>
      keepsTo_tupleReturnRule (hwords pass hpass).1 (hlines line hline pass hpass)

/-- A text is kept exactly when the returns of none of the methods are cut short in it. -/
theorem foldl_restoreMethod_eq_self_iff {list : List (List Text × Text)}
    (hwords : ∀ pass ∈ list, isWord pass.2 = true ∧ ∀ type ∈ pass.1, isWord type = true) :
    list.foldl restoreMethod t = t ↔ ∀ pass ∈ list, ¬ HasCutShort pass.2 t := by
  constructor
  · intro heq pass hpass
    have hidle := isIdle_foldl_restoreMethod hwords t pass hpass pass.1
    rw [heq] at hidle
    exact isIdle_tupleReturnRule_iff.mp hidle
  · exact fun hnone => foldl_restoreMethod_of_isIdle fun pass hpass _ =>
      isIdle_tupleReturnRule_iff.mpr (hnone pass hpass)

/-- In a text without word characters no method is cut short. -/
theorem not_hasCutShort_of_no_word (hmethod : isWord method = true) (ht : ∀ c ∈ t, isWordChar c = false) :
    ¬ HasCutShort method t := by
  rintro ⟨before, after, rfl, -, r, rest, rfl⟩
  obtain ⟨hne, hchars⟩ := Text.isWord_iff.mp hmethod
  obtain ⟨c, method, rfl⟩ := List.exists_cons_of_ne_nil hne
  have hplain := ht c (by simp [CutReturn.text, CutReturn.head])
  rw [hchars c List.mem_cons_self] at hplain
  exact Bool.false_ne_true hplain.symm

/-- A line that leaves a method open holds a method that is cut short as soon as a later line goes on accordingly. -/
theorem LeavesOpen.hasCutShort (hmethod : isWord method = true) (h : LeavesOpen method line) :
    HasCutShort method (line ++ '\n' :: "(): (,;".toList) := by
  obtain ⟨before, after, rfl, hboundary, hopen⟩ := h
  refine ⟨before, after ++ '\n' :: "(): (,;".toList, List.append_assoc _ _ _, ?_, hopen.startsCutShort hmethod⟩
  rwa [Text.atWordBoundary_append (hopen.ne_nil hmethod)]

/-- **Restored returns and lines.** A text whose lines leave none of the methods open is restored line by line, and a line
is changed exactly when a method is cut short in it. For a line that does leave a method open there is another one that
stays as it is by itself and is not kept below it. -/
theorem tupleReturns_by_line (families : List TupleFamily)
    (hwords : ∀ family ∈ families,
      (∀ method ∈ family.methods, isWord method = true) ∧ ∀ type ∈ family.shape, isWord type = true) :
    (∀ t, (∀ line ∈ splitAll (· == '\n') t, ∀ family ∈ families, ∀ method ∈ family.methods,
        ¬ LeavesOpen method line) →
      apply t (.tupleReturns families) = mapLines (apply · (.tupleReturns families)) t) ∧
    (∀ line, apply line (.tupleReturns families) = line ↔
      ∀ family ∈ families, ∀ method ∈ family.methods, ¬ HasCutShort method line) ∧
    ∀ line, ∀ family ∈ families, ∀ method ∈ family.methods,
      LeavesOpen method (apply line (.tupleReturns families)) →
        ∃ next, '\n' ∉ next ∧ apply next (.tupleReturns families) = next ∧
          apply (line ++ '\n' :: next) (.tupleReturns families) ≠
            apply line (.tupleReturns families) ++ '\n' :: next := by
  have hpasses := isWord_of_mem_passes hwords
  simp only [apply_tupleReturns, ← @forall_passes_iff families]
  refine ⟨fun t ht => foldl_restoreMethod_eq_mapLines hpasses ht, fun line => foldl_restoreMethod_eq_self_iff hpasses,
    fun line pass hpass hopen => ?_⟩
  have hplain : "(): (,;".toList.all (!isWordChar ·) = true := by decide
  have hnext : (passes families).foldl restoreMethod "(): (,;".toList = "(): (,;".toList :=
    (foldl_restoreMethod_eq_self_iff hpasses).mpr fun other hother =>
      not_hasCutShort_of_no_word (hpasses other hother).1 (by simpa using hplain)
  refine ⟨"(): (,;", by decide, hnext, fun heq => ?_⟩
  -- Nothing is cut short after the restoration, but the open method would be if the lines were restored one by one.
  have hidle := isIdle_foldl_restoreMethod hpasses (line ++ '\n' :: "(): (,;".toList) pass hpass pass.1
  rw [heq] at hidle
  exact isIdle_tupleReturnRule_iff.mp hidle (hopen.hasCutShort (hpasses pass hpass).1)

/-- A comment that names a method with an open parenthesis leaves it open. -/
theorem tupleReturns_by_line_comment :
    ∃ next, '\n' ∉ next ∧ apply next (.tupleReturns [⟨["is_cc"], ["boolean", "number"]⟩]) = next ∧
      apply ("/** See is_cc(unit */".toList ++ '\n' :: next) (.tupleReturns [⟨["is_cc"], ["boolean", "number"]⟩]) ≠
        "/** See is_cc(unit */".toList ++ '\n' :: next := by
  have hline : apply "/** See is_cc(unit */" (.tupleReturns [⟨["is_cc"], ["boolean", "number"]⟩]) =
      "/** See is_cc(unit */".toList := by decide
  have hopen : LeavesOpen "is_cc" "/** See is_cc(unit */" :=
    ⟨"/** See ", "is_cc(unit */", rfl, by decide,
      ⟨"unit */\n", [], [], by decide, by simp, by simp⟩, ⟨"):(,;", rfl⟩⟩
  have h := (tupleReturns_by_line [⟨["is_cc"], ["boolean", "number"]⟩] (by decide)).2.2 "/** See is_cc(unit */" _
    List.mem_cons_self "is_cc" (by decide)
  rw [hline] at h
  exact h hopen

/-- A comment above a member that is not listed has the returns of that member taken for those of the method that it
names. -/
theorem tupleReturns_across_lines :
    apply "  /** See is_cc(unit */\n  other(this: void): (boolean, Flag,;"
        (.tupleReturns [⟨["is_cc"], ["boolean", "number"]⟩]) =
        "  /** See is_cc(unit */\n  other(this: void): LuaMultiReturn<[boolean, number]>;".toList ∧
      mapLines (apply · (.tupleReturns [⟨["is_cc"], ["boolean", "number"]⟩]))
          "  /** See is_cc(unit */\n  other(this: void): (boolean, Flag,;" =
        "  /** See is_cc(unit */\n  other(this: void): (boolean, Flag,;".toList := by
  constructor <;> decide

end LuaTypings.Repair
