import LuaTypings.Repair.Catalog
import LuaTypings.Proofs.Repair.Traces

/-!
# Repairs that are made again

A repair is meant to leave nothing to repair. The option tables keep to that (`applyAll_menuRepairs_twice`), and so do
the repairs with function alternatives and event handlers when no trace of these is left (`applyAll_sdkRepairs_twice`).
The string values do unless one of them looks like the start of another (`applyAll_spellSequenceRepairs_twice`), and the
filters do exactly where no two alternatives follow each other (`applyAll_kickFilterRepairs_twice_iff`): the comma behind
the first is then the one in front of the second. `applyKnown_twice_iff` puts them together.
-/

namespace LuaTypings.Repair

open Text

variable {t : Text}

/-! ## Function alternatives and event handlers -/

/-- The methods whose tuples of returns are known, and their types, are words. -/
theorem isWord_tupleFamilies : ∀ family ∈ tupleFamilies,
    (∀ method ∈ family.methods, isWord method = true) ∧ ∀ type ∈ family.shape, isWord type = true := by
  decide +kernel

/-- The repairs with function alternatives and event handlers change nothing when they are made again and the first time
left no trace of either. -/
theorem applyAll_sdkRepairs_twice (halternative : ¬ functionAlternative <:+: applyAll sdkRepairs t)
    (hreturn : ¬ handlerReturn <:+: applyAll sdkRepairs t) :
    applyAll sdkRepairs (applyAll sdkRepairs t) = applyAll sdkRepairs t := by
  refine applyAll_eq_self fun repair hmem => ?_
  simp only [sdkRepairs, List.mem_cons, List.not_mem_nil, or_false] at hmem
  obtain rfl | rfl | rfl | rfl | rfl | rfl | rfl := hmem
  · exact apply_functionUnions_of_not_isInfix halternative _
  · refine apply_literal_applyAll (sdkRepairs.take 1) ?_ t
    -- The long texts are spelled out first: to read them character by character is most of the check.
    repeat rw [String.toList_ofList]
    decide +kernel
  · refine apply_literal_applyAll (sdkRepairs.take 2) ?_ t
    repeat rw [String.toList_ofList]
    decide +kernel
  · exact apply_eventHandlers_of_not_isInfix hreturn _ _ _
  · exact apply_eventHandlers_of_not_isInfix hreturn _ _ _
  · -- The method with a delay returns a function as well.
    have hin : handlerReturn <:+
        "after(this: void, seconds: number, fn: (this: void) => void): (this: void) => void;".toList :=
      ⟨"after(this: void, seconds: number, fn: (this: void) => void".toList, rfl⟩
    exact substitute_literalRule_of_not_isInfix (fun hmem => hreturn (hin.isInfix.trans hmem)) none
  · have hlast : sdkRepairs = sdkRepairs.take 6 ++ [.tupleReturns tupleFamilies] := rfl
    rw [hlast, applyAll_concat]
    exact apply_tupleReturns_twice (isWord_of_mem_passes isWord_tupleFamilies) _

/-! ## Option tables -/

/-- To repair the option tables again changes nothing. -/
theorem applyAll_menuRepairs_twice (t : Text) :
    applyAll menuRepairs (applyAll menuRepairs t) = applyAll menuRepairs t := by
  refine applyAll_eq_self fun repair hmem => ?_
  simp only [menuRepairs, List.mem_cons, List.not_mem_nil, or_false] at hmem
  obtain rfl | rfl := hmem
  · exact apply_literal_applyAll [] (by decide) t
  · exact apply_literal_applyAll (menuRepairs.take 1) (by decide) t

/-! ## Kick filters -/

/-- The alternative that became a parameter, between its commas. -/
def strayFilter : Text := ", string|nil: any,"

/-- The alternative behind its first comma. -/
def strayTail : Text := " string|nil: any,"

/-- The alternative twice, with one comma between. -/
def doubledFilter : Text := strayFilter ++ strayTail

/-- Behind the comma of the alternative its tail goes on. -/
theorem strayTail_isSuffix : strayTail <:+ strayFilter := ⟨",", rfl⟩

/-- The repair writes an end of the tail only where it takes one. -/
theorem keepsEnds_strayFilter : (literalRule strayFilter ",").KeepsEnds strayFilter :=
  keepsEnds_literalRule (by decide)

/-- A doubled alternative that starts in the first one goes on with the tail. -/
theorem strayTail_isPrefix {r rest : Text} (hne : r ≠ []) (hr : r <:+ strayFilter) (h : doubledFilter <+: r ++ rest) :
    strayTail <+: rest := by
  have hstarts : ∀ r ∈ strayFilter.tails, r.head? = some ',' → r = strayFilter ∨ r = [','] := by decide
  have hhead : r.head? = some ',' := by
    obtain ⟨c, r, rfl⟩ := List.exists_cons_of_ne_nil hne
    have hc : ',' = c := (List.cons_prefix_cons.mp h).1
    rw [← hc]
    rfl
  obtain rfl | rfl := hstarts r ((List.mem_tails _ _).mpr hr) hhead
  · exact (List.prefix_append_right_inj strayFilter).mp h
  · exact (List.prefix_append strayTail strayTail).trans (List.cons_prefix_cons.mp h).2

/-- The repair leaves an alternative exactly where there were two with one comma between. -/
theorem isInfix_substitute_strayFilter_iff (t : Text) :
    strayFilter <:+: substitute (literalRule strayFilter ",") none t ↔ doubledFilter <:+: t := by
  have htakes : (literalRule strayFilter ",").Takes := takes_literalRule (by decide)
  have hkept : keepsEnds strayTail "," strayFilter = true := by decide
  constructor
  · contrapose
    refine not_isInfix_substituteFrom htakes keepsEnds_strayFilter (by decide) (¬ doubledFilter <:+: ·) ?_ ?_ ?_ none t
    · exact fun s t hnone hmem => hnone (hmem.trans (List.suffix_append s t).isInfix)
    · exact fun previous c t hnone _ => literalRule_eq_none_iff.mp hnone
    · -- The comma that is written goes on with the tail of another alternative.
      intro previous taken rest written hrule hknown r hne hr hmem
      obtain ⟨htaken, rfl⟩ := literalRule_eq_some_iff.mp hrule
      obtain rfl := List.append_cancel_right htaken
      have hcomma : r = [','] := by
        obtain ⟨x, hx⟩ := hr
        cases x with
        | nil => exact hx
        | cons d x => simp_all
      rw [hcomma] at hmem
      have htail : strayTail <+: substituteFrom (literalRule strayFilter ",") none 0 strayFilter.getLast? rest :=
        (List.cons_prefix_cons.mp hmem).2
      have hrest := isPrefix_of_substituteFrom htakes keepsEnds_strayFilter _ rest strayTail strayTail_isSuffix htail
      exact hknown (List.IsPrefix.isInfix ((List.prefix_append_right_inj strayFilter).mpr hrest))
  · refine substituteFrom_induction htakes
      (motive := fun _ t u => doubledFilter <:+: t → strayFilter <:+: u) ?_ ?_ ?_ none t
    · exact fun _ h => absurd (List.infix_nil.mp h) (by decide)
    · intro previous c t hnone ih h
      rw [literalRule_eq_none_iff] at hnone
      have hstart : ¬ doubledFilter <+: c :: t := fun h => hnone ((List.prefix_append strayFilter strayTail).trans h)
      exact (ih ((List.infix_cons_iff.mp h).resolve_left hstart)).trans (List.suffix_cons c _).isInfix
    · intro previous taken rest written hne hrule ih h
      obtain ⟨htaken, rfl⟩ := literalRule_eq_some_iff.mp hrule
      obtain rfl := List.append_cancel_right htaken
      obtain h | ⟨r, hne, hr, h⟩ := isInfix_append h
      · exact (ih h).trans (List.suffix_append _ _).isInfix
      · have htail := isPrefix_substituteFrom_literalRule (by decide) hkept strayFilter.getLast? rest strayTail
          (List.suffix_refl _) (strayTail_isPrefix hne hr h)
        exact List.IsPrefix.isInfix (List.cons_prefix_cons.mpr ⟨rfl, htail⟩)

/-- To repair the kick filters again changes nothing exactly where no two alternatives have one comma between. -/
theorem applyAll_kickFilterRepairs_twice_iff (t : Text) :
    applyAll kickFilterRepairs (applyAll kickFilterRepairs t) = applyAll kickFilterRepairs t ↔
      ¬ doubledFilter <:+: t := by
  rw [← isInfix_substitute_strayFilter_iff]
  exact substitute_literalRule_eq_self_iff (by decide)

/-! ## Spell sequences -/

/-- To repair the spell sequences again changes nothing when no value ends as a string type does. -/
theorem applyAll_spellSequenceRepairs_twice (h : ¬ typedEnd <:+: t) :
    applyAll spellSequenceRepairs (applyAll spellSequenceRepairs t) = applyAll spellSequenceRepairs t := by
  refine applyAll_eq_self fun repair hmem => ?_
  simp only [spellSequenceRepairs, List.mem_cons, List.not_mem_nil, or_false] at hmem
  obtain rfl | rfl := hmem
  · exact apply_literal_applyAll [] (by decide) t
  · have hend : ¬ typedEnd <:+: applyAll (spellSequenceRepairs.take 1) t :=
      not_isInfix_applyAll (by decide) (by decide) h
    exact substituteFrom_of_isIdle (isIdle_substitute_stringValueRule none hend) none

/-! ## Modules -/

/-- A module without repairs keeps its text. -/
theorem applyKnown_of_not_mem {moduleName : Text} (h : moduleName ∉ catalog.map Prod.fst) (t : Text) :
    applyKnown moduleName t = t := by
  have hlookup : catalog.lookup moduleName = none := by
    rw [List.lookup_eq_none_iff]
    intro entry hentry
    have hne : moduleName ≠ entry.1 := fun heq => h (heq ▸ List.mem_map_of_mem hentry)
    simpa using hne
  rw [applyKnown, hlookup]
  rfl

/-- The repairs of a module leave no trace of a function alternative or an event handler in a text, and bring none of a
string type about: no value in it ends as such a type does. -/
structure LeavesNoTrace (moduleName t : Text) : Prop where
  alternatives : moduleName = "common/izi_sdk".toList → ¬ functionAlternative <:+: applyKnown moduleName t
  handlers : moduleName = "common/izi_sdk".toList → ¬ handlerReturn <:+: applyKnown moduleName t
  values : moduleName = "common/utility/spell_sequence_helper".toList → ¬ typedEnd <:+: t

/-- Where there is no function alternative the repairs bring no mark about that the others of them keep out. -/
theorem not_isInfix_applyAll_sdkRepairs {mark : Text} (hmark : mark ≠ []) (halternative : ¬ functionAlternative <:+: t)
    (hcheck : (sdkRepairs.drop 1).all (·.keepsOut mark) = true) (h : ¬ mark <:+: t) :
    ¬ mark <:+: applyAll sdkRepairs t := by
  have hfirst := apply_functionUnions_of_not_isInfix halternative
  rw [sdkRepairs, applyAll, List.foldl_cons, hfirst]
  exact not_isInfix_applyAll hmark hcheck h

/-- In a text without a trace the repairs leave none. -/
theorem LeavesNoTrace.of_not_isInfix (halternative : ¬ functionAlternative <:+: t) (hreturn : ¬ handlerReturn <:+: t)
    (hvalue : ¬ typedEnd <:+: t) (moduleName : Text) : LeavesNoTrace moduleName t := by
  refine ⟨?_, ?_, fun _ => hvalue⟩
  · rintro rfl
    refine not_isInfix_applyAll_sdkRepairs (by decide) halternative ?_ halternative
    rw [sdkRepairs]
    repeat rw [String.toList_ofList]
    decide +kernel
  · rintro rfl
    refine not_isInfix_applyAll_sdkRepairs (by decide) halternative ?_ hreturn
    rw [sdkRepairs]
    repeat rw [String.toList_ofList]
    decide +kernel

/-- **Repairs that are made again.** Whatever the module, where its repairs leave no trace to make them again changes
nothing, except where two alternatives of the kick filters have one comma between them. -/
theorem applyKnown_twice_iff {moduleName : Text} (h : LeavesNoTrace moduleName t) :
    applyKnown moduleName (applyKnown moduleName t) = applyKnown moduleName t ↔
      (moduleName = "common/utility/kick_external_filters_helper".toList → ¬ doubledFilter <:+: t) := by
  by_cases hkick : moduleName = "common/utility/kick_external_filters_helper".toList
  · subst hkick
    exact (applyAll_kickFilterRepairs_twice_iff t).trans ⟨fun hdoubled _ => hdoubled, fun hdoubled => hdoubled rfl⟩
  · refine iff_of_true ?_ fun heq => absurd heq hkick
    by_cases hsdk : moduleName = "common/izi_sdk".toList
    · subst hsdk
      exact applyAll_sdkRepairs_twice (h.alternatives rfl) (h.handlers rfl)
    by_cases hmenu : moduleName = "common/ow_menu_api".toList
    · subst hmenu
      exact applyAll_menuRepairs_twice t
    by_cases hspell : moduleName = "common/utility/spell_sequence_helper".toList
    · subst hspell
      exact applyAll_spellSequenceRepairs_twice (h.values rfl)
    have hmem : moduleName ∉ catalog.map Prod.fst := by
      simp only [catalog, List.map_cons, List.map_nil, List.mem_cons, List.not_mem_nil, or_false, not_or]
      exact ⟨hsdk, hmenu, hkick, hspell⟩
    rw [applyKnown_of_not_mem hmem, applyKnown_of_not_mem hmem]

/-- A function alternative with an event handler behind it, and an alternative of a kick filter. -/
theorem applyKnown_twice_of_traces :
    applyKnown "common/izi_sdk" (applyKnown "common/izi_sdk"
        "cone: A | (this: void) => B;\non_buff_gain(this: void, cb: F): (this: void) => void;") =
        ("cone: A | ((this: void) => B);\n" ++
          "on_buff_gain(this: void, cb: (this: void, ev: any) => void): () => void;").toList ∧
      applyKnown "common/utility/kick_external_filters_helper"
          (applyKnown "common/utility/kick_external_filters_helper" "f(a: A, string|nil: any, id: N): V;") =
        "f(a: A, id: N): V;".toList := by
  have honce : applyKnown "common/izi_sdk"
      "cone: A | (this: void) => B;\non_buff_gain(this: void, cb: F): (this: void) => void;" =
      ("cone: A | ((this: void) => B);\n" ++
        "on_buff_gain(this: void, cb: (this: void, ev: any) => void): () => void;").toList := by
    have hlast : sdkRepairs = sdkRepairs.take 6 ++ [.tupleReturns tupleFamilies] := rfl
    have hothers : applyAll (sdkRepairs.take 6)
        "cone: A | (this: void) => B;\non_buff_gain(this: void, cb: F): (this: void) => void;" =
        ("cone: A | ((this: void) => B);\n" ++
          "on_buff_gain(this: void, cb: (this: void, ev: any) => void): () => void;").toList := by
      rw [sdkRepairs, String.toList_append]
      repeat rw [String.toList_ofList]
      decide +kernel
    change applyAll sdkRepairs _ = _
    rw [hlast, applyAll_concat, hothers]
    exact apply_tupleReturns_of_not_isInfix (by decide +kernel) tupleFamilies
  have hsdk : LeavesNoTrace "common/izi_sdk"
      "cone: A | (this: void) => B;\non_buff_gain(this: void, cb: F): (this: void) => void;" := by
    refine ⟨fun _ => ?_, fun _ => ?_, fun h => absurd h (by decide)⟩
    · rw [honce]
      decide +kernel
    · rw [honce]
      decide +kernel
  have hkick : LeavesNoTrace "common/utility/kick_external_filters_helper" "f(a: A, string|nil: any, id: N): V;" :=
    ⟨fun h => absurd h (by decide), fun h => absurd h (by decide), fun h => absurd h (by decide)⟩
  constructor
  · exact ((applyKnown_twice_iff hsdk).mpr fun h => absurd h (by decide)).trans honce
  · exact ((applyKnown_twice_iff hkick).mpr fun _ => by decide).trans (by decide)

/-- Of two alternatives with one comma between, the second is only found when the first is gone. -/
theorem applyKnown_doubled_filter :
    applyKnown "common/utility/kick_external_filters_helper"
        (applyKnown "common/utility/kick_external_filters_helper"
          "  add(this: void, a: string, string|nil: any, string|nil: any, id: number): void;") ≠
      applyKnown "common/utility/kick_external_filters_helper"
        "  add(this: void, a: string, string|nil: any, string|nil: any, id: number): void;" := by
  decide

end LuaTypings.Repair
