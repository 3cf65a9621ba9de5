import LuaTypings.Proofs.Repair.Traces
import LuaTypings.Proofs.Text.LineByLine

/-!
# Event handlers line by line

What the rule of a handler takes is all on one line, so the rule keeps to every line (`keepsTo_eventHandlerRule`). On a
line with one semicolon it finds one method at most, which ends in that semicolon. The method that is written ends in it
too and returns another function, so no handler is found on the line any more (`apply_eventHandlers_cases`). What is
known of the lines is then put together to what is known of the text (`eventHandlers_by_line`).
-/

namespace LuaTypings.Repair

open Text

variable {callback lead handler : Text} {handlers : List Text} {previous : Option Char} {line t : Text}

/-! ## Subscriptions -/

/-- A text starts with a method that registers a handler and returns a function, all of it on one line. -/
def StartsSubscription (lead handler t : Text) : Prop :=
  ∃ params rest, t = handlerHead lead handler ++ (params ++ (handlerReturn ++ rest)) ∧ '\n' ∉ params

/-- Somewhere in a text a handler is registered, and its name is a word of its own. -/
def HasSubscription (lead handler t : Text) : Prop :=
  ∃ before after, t = before ++ after ∧ atWordBoundary before.getLast? after = true ∧
    StartsSubscription lead handler after

/-- The rule applies where a handler is registered. -/
theorem eventHandlerRule_eq_none_iff :
    eventHandlerRule callback lead handler previous t = none ↔
      ¬ (atWordBoundary previous t = true ∧ StartsSubscription lead handler t) := by
  rw [Option.eq_none_iff_forall_ne_some]
  constructor
  · rintro hnone ⟨hboundary, params, rest, rfl, hparams⟩
    obtain ⟨found, rest', hcut, hfound⟩ := exists_cutAt?_append handlerReturn params rest
    refine hnone (repairedHandler callback handler, rest') ?_
    exact eventHandlerRule_eq_some_iff.mpr
      ⟨hboundary, rfl, _, found, rfl, hcut, fun hmem => hparams (hfound.subset hmem)⟩
  · rintro hnot ⟨written, rest⟩ hsome
    obtain ⟨hboundary, -, afterLead, params, rfl, hcut, hparams⟩ := eventHandlerRule_eq_some_iff.mp hsome
    exact hnot ⟨hboundary, params, rest, by rw [eq_append_of_cutAt? hcut], hparams⟩

/-- A subscription is not empty. -/
theorem StartsSubscription.ne_nil (h : StartsSubscription lead handler t) : t ≠ [] := by
  obtain ⟨params, rest, rfl, -⟩ := h
  have hreturn : handlerReturn ≠ [] := by decide
  simp [hreturn]

/-- The rule of a handler applies nowhere exactly where it is not registered. -/
theorem isIdle_eventHandlerRule_iff :
    (eventHandlerRule callback lead handler).IsIdle none t ↔ ¬ HasSubscription lead handler t :=
  isIdle_iff_of_boundary (fun _ _ => eventHandlerRule_eq_none_iff) fun _ h => h.ne_nil

/-! ## Lines -/

/-- The start of a method that registers a handler is on one line. -/
theorem not_mem_handlerHead (hhandler : isWord handler = true) (hlead : isWord lead = true) :
    '\n' ∉ handlerHead lead handler := by
  have hname : '\n' ∉ handler := not_mem_of_isWord hhandler (by decide)
  have hparam : '\n' ∉ lead := not_mem_of_isWord hlead (by decide)
  have hfixed : '\n' ∉ "(this: void, ".toList ∧ '\n' ∉ ": ".toList := by decide
  simp only [handlerHead, List.mem_append, hname, hparam, hfixed, or_self, not_false_eq_true]

/-- The rule of a handler keeps to every line. -/
theorem keepsTo_eventHandlerRule (hhandler : isWord handler = true) (hlead : isWord lead = true)
    (callback : Text) (previous : Option Char) (line : Text) :
    (eventHandlerRule callback lead handler).KeepsTo previous line := by
  refine Rule.KeepsTo.of_cases ?_ ?_
  · intro place s written rest h u
    have hne : s ≠ [] := by
      rintro rfl
      rw [Rule.Takes.apply_nil takes_eventHandlerRule] at h
      cases h
    obtain ⟨hboundary, hwritten, afterLead, params, rfl, hcut, hparams⟩ := eventHandlerRule_eq_some_iff.mp h
    refine eventHandlerRule_eq_some_iff.mpr
      ⟨?_, hwritten, afterLead ++ u, params, ?_, cutAt?_append hcut u, hparams⟩
    · rwa [atWordBoundary_append hne]
    · rw [List.append_assoc]
  · intro before after hsplit hnone more
    rw [eventHandlerRule_eq_none_iff] at hnone ⊢
    rintro ⟨hboundary, params, rest, hmethod, hparams⟩
    -- The method holds no line feed, so it ends in front of the next one.
    have hline : '\n' ∉ handlerHead lead handler ++ (params ++ handlerReturn) := by
      have hhead := not_mem_handlerHead hhandler hlead
      have hreturn : '\n' ∉ handlerReturn := by decide
      simp [hhead, hparams, hreturn]
    have hstart : handlerHead lead handler ++ (params ++ handlerReturn) <+: after ++ '\n' :: more :=
      ⟨rest, by simp [hmethod]⟩
    obtain ⟨rest', hrest'⟩ := isPrefix_of_not_mem hstart hline
    have hstarts : StartsSubscription lead handler after := ⟨params, rest', by simp [← hrest'], hparams⟩
    rw [atWordBoundary_append hstarts.ne_nil] at hboundary
    exact hnone ⟨hboundary, hstarts⟩

/-! ## One handler on a line -/

/-- The result is the line, behind a character, with one method that registers the handler written anew. -/
def RewritesHandler (callback lead handler : Text) (previous : Option Char) (line result : Text) : Prop :=
  ∃ before params after,
    line = before ++ (handlerHead lead handler ++ (params ++ (handlerReturn ++ after))) ∧
      atWordBoundary (before.getLast?.or previous)
        (handlerHead lead handler ++ (params ++ (handlerReturn ++ after))) = true ∧
      '\n' ∉ params ∧ result = before ++ (repairedHandler callback handler ++ after)

/-- A character in front makes no difference to what is written anew. -/
theorem RewritesHandler.cons {c : Char} {result : Text} (h : RewritesHandler callback lead handler (some c) t result) :
    RewritesHandler callback lead handler previous (c :: t) (c :: result) := by
  obtain ⟨before, params, after, rfl, hboundary, hparams, rfl⟩ := h
  rw [← getLast?_cons_or c before previous] at hboundary
  exact ⟨c :: before, params, after, rfl, hboundary, hparams, rfl⟩

/-- A line with one semicolon holds none beside a method that is written anew. -/
theorem not_mem_of_count {before params after : Text}
    (h : (before ++ (handlerHead lead handler ++ (params ++ (handlerReturn ++ after)))).count ';' ≤ 1) :
    ';' ∉ before ∧ ';' ∉ after := by
  have hreturn : handlerReturn.count ';' = 1 := by decide
  simp only [List.count_append, hreturn] at h
  exact ⟨List.count_eq_zero.mp (by omega), List.count_eq_zero.mp (by omega)⟩

/-- On a line with one semicolon a handler is not registered, or the method that registers it is written anew. -/
theorem substituteFrom_eventHandlerRule_cases (previous : Option Char) (hline : line.count ';' ≤ 1) :
    (eventHandlerRule callback lead handler).IsIdle previous line ∨
      RewritesHandler callback lead handler previous line
        (substituteFrom (eventHandlerRule callback lead handler) none 0 previous line) := by
  revert hline
  refine substituteFrom_induction takes_eventHandlerRule
    (motive := fun previous s u => s.count ';' ≤ 1 → (eventHandlerRule callback lead handler).IsIdle previous s ∨
      RewritesHandler callback lead handler previous s u) ?_ ?_ ?_ previous line
  · exact fun _ _ => .inl trivial
  · intro previous c s hnone ih hcount
    rw [List.count_cons] at hcount
    exact (ih (by omega)).imp (fun hidle => ⟨hnone, hidle⟩) RewritesHandler.cons
  · intro previous taken rest written _ hrule _ hcount
    obtain ⟨hboundary, rfl, afterLead, params, htaken, hcut, hparams⟩ := eventHandlerRule_eq_some_iff.mp hrule
    rw [eq_append_of_cutAt? hcut] at htaken
    rw [htaken] at hcount hboundary
    -- The semicolon of the method is the only one, so no method ends behind it.
    have hrest : ¬ handlerReturn <:+: rest := by
      have hmem : ';' ∈ handlerReturn := by decide
      exact fun h => (@not_mem_of_count lead handler [] params rest hcount).2 (h.subset hmem)
    refine .inr ⟨[], params, rest, htaken, hboundary, hparams, ?_⟩
    rw [substituteFrom_of_isIdle (isIdle_eventHandlerRule hrest callback lead handler _)]
    rfl

/-- No function is returned on a line with one semicolon after a method has been written anew. -/
theorem RewritesHandler.not_isInfix {result : Text} (hhandler : isWord handler = true) (hcallback : ';' ∉ callback)
    (h : RewritesHandler callback lead handler previous line result) (hline : line.count ';' ≤ 1) :
    ¬ handlerReturn <:+: result := by
  obtain ⟨before, params, after, rfl, -, -, rfl⟩ := h
  obtain ⟨hbefore, hafter⟩ := not_mem_of_count hline
  have hreturn : handlerReturn = "): (this: voi".toList ++ "d) => void".toList ++ [';'] := rfl
  have hrepaired : repairedHandler callback handler =
      handler ++ "(this: void, ".toList ++ callback ++ "): ".toList ++ "() => void".toList ++ [';'] := by
    rw [List.append_assoc _ "): ".toList, List.append_assoc _ ("): ".toList ++ _)]
    rfl
  have hfirst :
      ';' ∉ before ++ (handler ++ "(this: void, ".toList ++ callback ++ "): ".toList) ++ "() => void".toList := by
    have hname : ';' ∉ handler := not_mem_of_isWord hhandler (by decide)
    have hfixed : ';' ∉ "(this: void, ".toList ∧ ';' ∉ "): ".toList ∧ ';' ∉ "() => void".toList := by decide
    simp only [List.mem_append, hbefore, hname, hcallback, hfixed, or_self, not_false_eq_true]
  rintro ⟨s, u, hsplit⟩
  rw [hreturn, hrepaired] at hsplit
  generalize "): (this: voi".toList = looked at hsplit
  generalize handler ++ "(this: void, ".toList ++ callback ++ "): ".toList = written at hsplit hfirst
  have hsemicolons : (s ++ looked ++ "d) => void".toList) ++ ';' :: u =
      (before ++ written ++ "() => void".toList) ++ ';' :: after := by
    simpa only [List.append_assoc, List.singleton_append] using hsplit
  obtain ⟨heq, -⟩ | ⟨m, -, hm⟩ := eq_or_of_append_cons_eq hsemicolons hfirst
  · -- The one semicolon ends the method that is written, which returns another function.
    have hlength : "d) => void".toList.length = "() => void".toList.length := by decide
    have hends : "d) => void".toList = "() => void".toList := List.append_inj_right' heq hlength
    exact absurd hends (by decide)
  · exact hafter (hm ▸ List.mem_append_right m List.mem_cons_self)

/-- A line with one semicolon still has one after a method has been written anew. -/
theorem RewritesHandler.count_le {result : Text} (hhandler : isWord handler = true) (hcallback : ';' ∉ callback)
    (h : RewritesHandler callback lead handler previous line result) (hline : line.count ';' ≤ 1) :
    result.count ';' ≤ 1 := by
  obtain ⟨before, params, after, rfl, -, -, rfl⟩ := h
  obtain ⟨hbefore, hafter⟩ := not_mem_of_count hline
  have hname : handler.count ';' = 0 := List.count_eq_zero.mpr (not_mem_of_isWord hhandler (by decide))
  have hfixed : "(this: void, ".toList.count ';' = 0 ∧ "): () => void;".toList.count ';' = 1 := by decide
  simp only [repairedHandler, List.count_append, List.count_eq_zero.mpr hbefore, List.count_eq_zero.mpr hafter, hname,
    hfixed, List.count_eq_zero.mpr hcallback]
  omega

/-! ## All handlers -/

/-- A method is written anew in place of the one that registers a handler. -/
def rewriteHandler (callback lead t handler : Text) : Text :=
  substitute (eventHandlerRule callback lead handler) none t

/-- Handlers are repaired one after another. -/
theorem apply_eventHandlers (handlers : List Text) (callback lead t : Text) :
    apply t (.eventHandlers handlers callback lead) = handlers.foldl (rewriteHandler callback lead) t := rfl

/-- On a line with one semicolon no handler is registered and nothing changes, or one method is written anew, and no
handler is registered any more. -/
theorem apply_eventHandlers_cases (hhandlers : ∀ handler ∈ handlers, isWord handler = true)
    (hcallback : ';' ∉ callback) (hline : line.count ';' ≤ 1) :
    (apply line (.eventHandlers handlers callback lead) = line ∧
        ∀ handler ∈ handlers, (eventHandlerRule callback lead handler).IsIdle none line) ∨
      (∃ handler ∈ handlers,
          RewritesHandler callback lead handler none line (apply line (.eventHandlers handlers callback lead))) ∧
        ¬ handlerReturn <:+: apply line (.eventHandlers handlers callback lead) := by
  rw [apply_eventHandlers]
  induction handlers with
  | nil => exact .inl ⟨rfl, by simp⟩
  | cons handler handlers ih =>
    obtain ⟨hhandler, hothers⟩ := List.forall_mem_cons.mp hhandlers
    rw [List.foldl_cons]
    obtain hidle | hrewrites := substituteFrom_eventHandlerRule_cases none hline
    · have hfirst : rewriteHandler callback lead line handler = line := substituteFrom_of_isIdle hidle none
      rw [hfirst]
      obtain ⟨heq, hrest⟩ | ⟨⟨other, hother, hrewrites⟩, hgone⟩ := ih hothers
      · exact .inl ⟨heq, List.forall_mem_cons.mpr ⟨hidle, hrest⟩⟩
      · exact .inr ⟨⟨other, List.mem_cons_of_mem handler hother, hrewrites⟩, hgone⟩
    · have hgone := hrewrites.not_isInfix hhandler hcallback hline
      have hrest : handlers.foldl (rewriteHandler callback lead) (rewriteHandler callback lead line handler) =
          rewriteHandler callback lead line handler := apply_eventHandlers_of_not_isInfix hgone handlers callback lead
      rw [hrest]
      exact .inr ⟨⟨handler, List.mem_cons_self, hrewrites⟩, hgone⟩

/-- Repairs of handlers make no second line of a line. -/
theorem keepsLines_rewriteHandler (hhandler : isWord handler = true) (hcallback : '\n' ∉ callback) :
    KeepsLines (rewriteHandler callback lead · handler) := by
  refine keepsLines_substitute takes_eventHandlerRule fun previous t written rest hrule _ => ?_
  obtain ⟨-, rfl⟩ := of_eventHandlerRule_eq_some hrule
  have hname : '\n' ∉ handler := not_mem_of_isWord hhandler (by decide)
  have hfixed : '\n' ∉ "(this: void, ".toList ∧ '\n' ∉ "): () => void;".toList := by decide
  simp only [repairedHandler, List.mem_append, hname, hcallback, hfixed, or_self, not_false_eq_true]

/-- The rule of a handler sees a line feed in front of a place as it sees the start of a text. -/
theorem eventHandlerRule_lineFeed (callback lead handler t : Text) :
    eventHandlerRule callback lead handler (some '\n') t = eventHandlerRule callback lead handler none t := rfl

section Lines

variable (hhandlers : ∀ handler ∈ handlers, isWord handler = true) (hlead : isWord lead = true)
  (hsemicolon : ';' ∉ callback) (hlineFeed : '\n' ∉ callback)
  (ht : ∀ line ∈ splitAll (· == '\n') t, line.count ';' ≤ 1)

include hhandlers hlead hsemicolon hlineFeed ht

/-- The handlers of a text with one semicolon a line are repaired line by line. -/
theorem apply_eventHandlers_eq_mapLines :
    apply t (.eventHandlers handlers callback lead) = mapLines (apply · (.eventHandlers handlers callback lead)) t := by
  refine foldl_eq_mapLines (fun line => line.count ';' ≤ 1)
    (fun handler hmem => keepsLines_rewriteHandler (hhandlers handler hmem) hlineFeed) ?_ ?_ ht
  · intro handler hmem line hline
    obtain hidle | hrewrites := @substituteFrom_eventHandlerRule_cases callback lead handler line none hline
    · have heq : substitute (eventHandlerRule callback lead handler) none line = line :=
        substituteFrom_of_isIdle hidle none
      rwa [heq]
    · exact hrewrites.count_le (hhandlers handler hmem) hsemicolon hline
  · exact fun handler hmem t _ => substitute_eq_mapLines (eventHandlerRule_lineFeed callback lead handler)
      takes_eventHandlerRule fun line _ => keepsTo_eventHandlerRule (hhandlers handler hmem) hlead callback none line

/-- In a text with one semicolon a line the rule of no handler applies after the repair. -/
theorem isIdle_apply_eventHandlers :
    ∀ handler ∈ handlers,
      (eventHandlerRule callback lead handler).IsIdle none (apply t (.eventHandlers handlers callback lead)) := by
  intro handler hmem
  have hkeeps : KeepsLines (apply · (.eventHandlers handlers callback lead)) := keepsLines_foldl fun other hother =>
    keepsLines_rewriteHandler (hhandlers other hother) hlineFeed
  rw [apply_eventHandlers_eq_mapLines hhandlers hlead hsemicolon hlineFeed ht]
  refine isIdle_of_lines (eventHandlerRule_lineFeed callback lead handler) takes_eventHandlerRule ?_
  rw [splitAll_mapLines hkeeps, List.forall_mem_map]
  intro line hline
  refine ⟨keepsTo_eventHandlerRule (hhandlers handler hmem) hlead callback none _, ?_⟩
  obtain ⟨heq, hidle⟩ | ⟨-, hgone⟩ := apply_eventHandlers_cases hhandlers hsemicolon (ht line hline)
  · rw [heq]
    exact hidle handler hmem
  · exact isIdle_eventHandlerRule hgone callback lead handler none

end Lines

/-- Where the rule of no handler applies nothing is repaired. -/
theorem apply_eventHandlers_of_isIdle
    (h : ∀ handler ∈ handlers, (eventHandlerRule callback lead handler).IsIdle none t) :
    apply t (.eventHandlers handlers callback lead) = t :=
  foldl_eq_self fun handler hmem => substituteFrom_of_isIdle (h handler hmem) none

/-- **Event handlers.** In a text with at most one semicolon a line, handlers are repaired line by line. A line in which
none of them is registered stays as it is, and in any other line one method is written anew. After that none of the
handlers is registered anywhere in the text, and to repair it once more changes nothing. -/
theorem eventHandlers_by_line (handlers : List Text) (hhandlers : ∀ handler ∈ handlers, isWord handler = true)
    (lead : Text) (hlead : isWord lead = true)
    (callback : Text) (hcallback : ∀ c ∈ callback, c ≠ '\\' ∧ c ≠ ';' ∧ c ≠ '\n')
    (t : Text) (ht : ∀ line ∈ splitAll (· == '\n') t, line.count ';' ≤ 1) :
    apply t (.eventHandlers handlers callback lead) = mapLines (apply · (.eventHandlers handlers callback lead)) t ∧
      (∀ line ∈ splitAll (· == '\n') t,
        ((∀ handler ∈ handlers, ¬ HasSubscription lead handler line) ∧
            apply line (.eventHandlers handlers callback lead) = line) ∨
          ∃ handler ∈ handlers,
            RewritesHandler callback lead handler none line (apply line (.eventHandlers handlers callback lead))) ∧
      (∀ handler ∈ handlers, ¬ HasSubscription lead handler (apply t (.eventHandlers handlers callback lead))) ∧
      apply (apply t (.eventHandlers handlers callback lead)) (.eventHandlers handlers callback lead) =
        apply t (.eventHandlers handlers callback lead) := by
  have hsemicolon : ';' ∉ callback := fun hmem => (hcallback _ hmem).2.1 rfl
  have hlineFeed : '\n' ∉ callback := fun hmem => (hcallback _ hmem).2.2 rfl
  have hidle := isIdle_apply_eventHandlers hhandlers hlead hsemicolon hlineFeed ht
  refine ⟨apply_eventHandlers_eq_mapLines hhandlers hlead hsemicolon hlineFeed ht, fun line hline => ?_,
    fun handler hmem => isIdle_eventHandlerRule_iff.mp (hidle handler hmem), apply_eventHandlers_of_isIdle hidle⟩
  obtain ⟨heq, hnone⟩ | ⟨hrewrites, -⟩ :=
    @apply_eventHandlers_cases callback lead handlers line hhandlers hsemicolon (ht line hline)
  · exact .inl ⟨fun handler hmem => isIdle_eventHandlerRule_iff.mp (hnone handler hmem), heq⟩
  · exact .inr hrewrites

/-- A handler in the parameters of another one is repaired, and the outer one is not registered any more. -/
theorem eventHandlers_by_line_nested :
    apply "on(this: void, cb: off(this: void, cb: f): (this: void) => void;\nnone;"
        (.eventHandlers ["off", "on"] "f: any" "cb") =
        "on(this: void, cb: off(this: void, f: any): () => void;\nnone;".toList ∧
      ¬ HasSubscription "cb" "on" "on(this: void, cb: off(this: void, f: any): () => void;\nnone;" := by
  have hoff : rewriteHandler "f: any" "cb"
      "on(this: void, cb: off(this: void, cb: f): (this: void) => void;\nnone;" "off" =
      "on(this: void, cb: off(this: void, f: any): () => void;\nnone;".toList := by decide +kernel
  have hon : rewriteHandler "f: any" "cb" "on(this: void, cb: off(this: void, f: any): () => void;\nnone;" "on" =
      "on(this: void, cb: off(this: void, f: any): () => void;\nnone;".toList := by decide +kernel
  have happly : apply "on(this: void, cb: off(this: void, cb: f): (this: void) => void;\nnone;"
      (.eventHandlers ["off", "on"] "f: any" "cb") =
      "on(this: void, cb: off(this: void, f: any): () => void;\nnone;".toList := by
    rw [apply_eventHandlers, List.foldl_cons, List.foldl_cons, List.foldl_nil, hoff, hon]
  have h := (eventHandlers_by_line ["off", "on"] (by decide) "cb" (by decide) "f: any" (by simp)
    "on(this: void, cb: off(this: void, cb: f): (this: void) => void;\nnone;" (by decide)).2.2.1 "on" (by decide)
  rw [happly] at h
  exact ⟨happly, h⟩

end LuaTypings.Repair
