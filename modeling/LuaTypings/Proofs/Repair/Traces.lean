import LuaTypings.Proofs.Repair.StringValues
import LuaTypings.Proofs.Repair.TupleReturns

/-!
# Traces that repairs go by

A repair finds nothing in a text without the trace that it goes by: the function behind a bar for function alternatives
(`apply_functionUnions_of_not_isInfix`), the function that is returned for event handlers
(`apply_eventHandlers_of_not_isInfix`). A repair brings no trace about that was nowhere before when nothing that it
writes looks like a part of it (`keepsOut`, `not_isInfix_apply`), so the trace of a literal repair is gone for good when
all repairs behind it keep it out (`apply_literal_applyAll`).
-/

namespace LuaTypings.Repair

open Text
open TypeText (severalReturns)

variable {t mark : Text}

/-! ## Function alternatives -/

/-- A bar with a function type behind it. -/
def functionAlternative : Text := " | (this: "

/-- A union without a function alternative is not cut. -/
theorem cutAtFunction?_eq_none (h : ¬ functionAlternative <:+: t) : cutAtFunction? t = none := by
  induction t with
  | nil => rfl
  | cons c t ih =>
    have hdrop : dropStart? " | (this: " (c :: t) = none := by
      rw [Option.eq_none_iff_forall_ne_some]
      intro rest hsome
      rw [dropStart?_eq_some_iff] at hsome
      exact h ⟨[], rest, hsome.symm⟩
    rw [cutAtFunction?, hdrop, Option.filter_none, ih fun hmem => h (hmem.trans (List.suffix_cons c t).isInfix)]
    rfl

/-- Without a function alternative nothing is put in parentheses. -/
theorem parenthesizeBody?_eq_none {heading body : Text} (h : ¬ functionAlternative <:+: body) :
    parenthesizeBody? heading body = none := by
  rw [parenthesizeBody?]
  cases hunion : dropEnd? ";" body with
  | none => rfl
  | some union =>
    have hin : union <:+: body := dropEnd?_eq_some_iff.mp hunion ▸ (List.prefix_append union _).isInfix
    have hnone := cutAtFunction?_eq_none fun hmem => h (hmem.trans hin)
    simp [hnone]

/-- A line stays as it is when nothing behind its heading is a function alternative. -/
theorem parenthesizeLine_of_not_isInfix {cut? : Text → Option (Text × Text)} {line : Text}
    (hcut : ∀ heading body, cut? line = some (heading, body) → body <:+ line) (h : ¬ functionAlternative <:+: line) :
    parenthesizeLine cut? line = line := by
  rw [parenthesizeLine]
  cases hline : cut? line with
  | none => rfl
  | some parts =>
    obtain ⟨heading, body⟩ := parts
    have hbody : parenthesizeBody? heading body = none :=
      parenthesizeBody?_eq_none fun hmem => h (hmem.trans (hcut heading body hline).isInfix)
    simp only [Option.bind_some, hbody, Option.getD_none]

/-- What stands behind a heading ends the line. -/
theorem isSuffix_of_cutHeading? {mark line heading body : Text} (h : cutHeading? mark line = some (heading, body)) :
    body <:+ line := by
  obtain ⟨rest, hdrop, heq⟩ := Option.map_eq_some_iff.mp h
  obtain ⟨-, rfl⟩ := Prod.mk.inj heq
  exact ⟨mark, (dropStart?_eq_some_iff.mp hdrop).symm⟩

/-- What stands behind the name of a member ends the line. -/
theorem isSuffix_of_cutMember? {name line heading body : Text} (h : cutMember? name line = some (heading, body)) :
    body <:+ line := by
  obtain ⟨⟨mark, body⟩, hcut, heq⟩ := Option.bind_eq_some_iff.mp h
  obtain ⟨-, rfl⟩ := Prod.mk.inj (Option.some.inj heq)
  have hstripped : stripStart line <:+ line := List.dropWhile_suffix _
  obtain hcut | ⟨-, hcut⟩ := (Option.orElse_eq_some _ _ _).mp hcut
  · exact (isSuffix_of_cutHeading? hcut).trans hstripped
  · exact (isSuffix_of_cutHeading? hcut).trans hstripped

/-- Where no function stands behind a bar there are no function alternatives to repair. -/
theorem apply_functionUnions_of_not_isInfix (h : ¬ functionAlternative <:+: t) (members : List Text) :
    apply t (.functionUnions members) = t := by
  change members.foldl parenthesizeMember t = t
  have hmember : ∀ name, parenthesizeMember t name = t := by
    intro name
    have hfirst : mapLines (parenthesizeLine (cutMember? name)) t = t := mapLines_eq_self fun line hline =>
      parenthesizeLine_of_not_isInfix (fun _ _ => isSuffix_of_cutMember?) fun hmem => h (hmem.trans hline)
    rw [parenthesizeMember, hfirst]
    exact mapLines_eq_self fun line hline =>
      parenthesizeLine_of_not_isInfix (fun _ _ => isSuffix_of_cutHeading?) fun hmem => h (hmem.trans hline)
  exact foldl_eq_self fun name _ => hmember name

/-! ## Event handlers -/

/-- The end of a method that returns a function. -/
def handlerReturn : Text := "): (this: void) => void;"

/-- A method that registers a handler, up to what is left of its parameters. -/
def handlerHead (lead handler : Text) : Text := handler ++ "(this: void, ".toList ++ lead ++ ": ".toList

/-- The method with the parameter of its handler. -/
def repairedHandler (callback handler : Text) : Text :=
  handler ++ "(this: void, ".toList ++ callback ++ "): () => void;".toList

variable {callback lead handler : Text}

/-- The rule applies where a method starts whose first end as one that returns a function is on the same line, and writes
the method that takes the handler back. -/
theorem eventHandlerRule_eq_some_iff {previous : Option Char} {written rest : Text} :
    eventHandlerRule callback lead handler previous t = some (written, rest) ↔
      atWordBoundary previous t = true ∧ written = repairedHandler callback handler ∧
        ∃ afterLead params, t = handlerHead lead handler ++ afterLead ∧
          cutAt? handlerReturn afterLead = some (params, rest) ∧ '\n' ∉ params := by
  rw [eventHandlerRule]
  constructor
  · intro h
    simp only [Option.bind_eq_bind, Option.bind_eq_some_iff, Option.guard_eq_some'] at h
    obtain ⟨-, hboundary, afterLead, hlead, ⟨params, rest'⟩, hcut, -, hline, heq⟩ := h
    obtain ⟨rfl, rfl⟩ := Prod.mk.inj (Option.some.inj heq)
    exact ⟨hboundary, rfl, afterLead, params, dropStart?_eq_some_iff.mp hlead, hcut, by simpa using hline⟩
  · rintro ⟨hboundary, rfl, afterLead, params, rfl, hcut, hline⟩
    have hdrop : dropStart? (handler ++ "(this: void, " ++ lead ++ ": ") (handlerHead lead handler ++ afterLead) =
        some afterLead := dropStart?_eq_some_iff.mpr rfl
    have hcut' : cutAt? "): (this: void) => void;".toList afterLead = some (params, rest) := hcut
    simp only [hdrop, hcut', hboundary, Option.bind_eq_bind, Option.bind_some]
    simp [hline, guard, repairedHandler]

/-- The rule takes a method that returns a function, and writes the one that takes the handler back. -/
theorem of_eventHandlerRule_eq_some {previous : Option Char} {written rest : Text}
    (h : eventHandlerRule callback lead handler previous t = some (written, rest)) :
    (∃ params, t = handlerHead lead handler ++ (params ++ (handlerReturn ++ rest))) ∧
      written = repairedHandler callback handler := by
  obtain ⟨-, hwritten, afterLead, params, rfl, hcut, -⟩ := eventHandlerRule_eq_some_iff.mp h
  exact ⟨⟨params, by rw [eq_append_of_cutAt? hcut]⟩, hwritten⟩

/-- The rule takes the whole method. -/
theorem takes_eventHandlerRule : (eventHandlerRule callback lead handler).Takes := by
  intro previous t written rest h
  obtain ⟨⟨params, rfl⟩, -⟩ := of_eventHandlerRule_eq_some h
  have hne : handlerReturn ≠ [] := by decide
  refine ⟨handlerHead lead handler ++ (params ++ handlerReturn), ?_, by simp only [List.append_assoc]⟩
  simp only [ne_eq, List.append_eq_nil_iff, hne, and_false, not_false_eq_true]

/-- The rule applies nowhere in a text where no function is returned. -/
theorem isIdle_eventHandlerRule (h : ¬ handlerReturn <:+: t) (callback lead handler : Text)
    (previous : Option Char) : (eventHandlerRule callback lead handler).IsIdle previous t := by
  refine isIdle_iff.mpr fun before c after hsplit => Option.eq_none_iff_forall_ne_some.mpr ?_
  rintro ⟨written, rest⟩ hrule
  obtain ⟨⟨params, htaken⟩, -⟩ := of_eventHandlerRule_eq_some hrule
  exact h ⟨before ++ (handlerHead lead handler ++ params), rest, by rw [hsplit, htaken]; simp⟩

/-- Where no function is returned there are no event handlers to repair. -/
theorem apply_eventHandlers_of_not_isInfix (h : ¬ handlerReturn <:+: t) (handlers : List Text)
    (callback lead : Text) : apply t (.eventHandlers handlers callback lead) = t :=
  foldl_eq_self fun handler _ => substituteFrom_of_isIdle (isIdle_eventHandlerRule h callback lead handler none) none

/-- Whether event handlers can be repaired without a mark being brought about. -/
def handlersAvoid (mark : Text) (handlers : List Text) (callback lead : Text) : Bool :=
  handlers.all fun handler =>
    keepsEnds mark (handlerHead lead handler) (repairedHandler callback handler) &&
      avoids mark (repairedHandler callback handler)

/-- Repaired event handlers bring no mark about that passes the check. -/
theorem not_isInfix_apply_eventHandlers {handlers : List Text} (hmark : mark ≠ [])
    (hcheck : handlersAvoid mark handlers callback lead = true) (h : ¬ mark <:+: t) :
    ¬ mark <:+: apply t (.eventHandlers handlers callback lead) := by
  change ¬ mark <:+: handlers.foldl (fun t handler => substitute (eventHandlerRule callback lead handler) none t) t
  induction handlers generalizing t with
  | nil => exact h
  | cons handler handlers ih =>
    rw [handlersAvoid, List.all_cons, Bool.and_eq_true, Bool.and_eq_true] at hcheck
    obtain ⟨⟨hends, havoids⟩, hrest⟩ := hcheck
    refine ih hrest (not_isInfix_substituteFrom_of_taken takes_eventHandlerRule ?_ hmark ?_ none h)
    · intro previous t written rest hrule m hm u hmem
      obtain ⟨⟨params, rfl⟩, rfl⟩ := of_eventHandlerRule_eq_some hrule
      exact (isPrefix_of_keepsEnds hends hm hmem).trans (List.prefix_append _ _)
    · intro previous taken rest written hrule r hne hr u hmem
      obtain ⟨-, rfl⟩ := of_eventHandlerRule_eq_some hrule
      exact absurd hmem (not_isPrefix_of_avoids havoids hne hr u)

/-! ## Restored returns -/

/-- The end of a restored method, behind its parameters. -/
def restoredEnd (shape : List Text) : Text := "): ".toList ++ severalReturns shape ++ ";".toList

/-- Whether returns of these types can be restored without a mark being brought about. -/
def returnsAvoid (mark : Text) (shape : List Text) : Bool :=
  keepsEnds mark "):" (restoredEnd shape) && avoids mark (restoredEnd shape)

variable {shape : List Text} {method : Text}

/-- A restored method ends behind its parameters. -/
theorem CutReturn.restored_eq (r : CutReturn) (method : Text) (shape : List Text) :
    r.restored method shape = r.head method ++ restoredEnd shape := by
  simp [restored, restoredEnd]

/-- A method with cut returns goes on behind its parameters with their end. -/
theorem CutReturn.text_eq (r : CutReturn) (method : Text) :
    r.text method = r.head method ++ "):".toList ++ (r.blanks ++ '(' :: r.types ++ [',', ';']) := by
  simp [text]

/-- Restored returns bring no mark about that passes the check. -/
theorem not_isInfix_restoreMethod (hmark : mark ≠ []) (hcheck : returnsAvoid mark shape = true) (h : ¬ mark <:+: t) :
    ¬ mark <:+: restoreMethod t (shape, method) := by
  obtain ⟨hends, havoids⟩ := Bool.and_eq_true_iff.mp hcheck
  refine not_isInfix_substituteFrom_of_taken takes_tupleReturnRule ?_ hmark ?_ none h
  · intro previous t written rest hrule m hm u hmem
    obtain ⟨-, r, rfl, rfl⟩ := tupleReturnRule_eq_some_iff.mp hrule
    rw [r.restored_eq, List.append_assoc] at hmem
    rw [r.text_eq, List.append_assoc]
    exact (isPrefix_append_of_keepsEnds hends hm hmem).trans (List.prefix_append _ _)
  · intro previous taken rest written hrule s hne hs u hmem
    obtain ⟨-, r, htaken, rfl⟩ := tupleReturnRule_eq_some_iff.mp hrule
    obtain rfl := List.append_cancel_right htaken
    rw [r.restored_eq] at hs
    rw [r.text_eq]
    obtain hs | ⟨a, ha, rfl⟩ := isSuffix_append hs
    · exact absurd hmem (not_isPrefix_of_avoids havoids hne hs u)
    · rw [List.append_assoc] at hmem
      have hhead := isPrefix_append_of_keepsEnds hends (List.suffix_refl mark) hmem
      have hin : a ++ "):".toList <:+: r.head method ++ "):".toList := by
        obtain ⟨front, hfront⟩ := ha
        exact ⟨front, [], by rw [← hfront]; simp⟩
      exact (hhead.isInfix.trans hin).trans (List.prefix_append _ _).isInfix

/-- Restored returns of families bring no mark about that passes the check for all their types. -/
theorem not_isInfix_apply_tupleReturns {families : List TupleFamily} (hmark : mark ≠ [])
    (hcheck : ∀ family ∈ families, returnsAvoid mark family.shape = true) (h : ¬ mark <:+: t) :
    ¬ mark <:+: apply t (.tupleReturns families) := by
  have hpasses : ∀ pass ∈ passes families, returnsAvoid mark pass.1 = true := by
    intro pass hpass
    obtain ⟨family, hfamily, hpass⟩ := List.mem_flatMap.mp hpass
    obtain ⟨method, -, rfl⟩ := List.mem_map.mp hpass
    exact hcheck family hfamily
  rw [apply_tupleReturns]
  generalize passes families = list at hpasses
  induction list generalizing t with
  | nil => exact h
  | cons pass list ih =>
    exact ih (not_isInfix_restoreMethod hmark (hpasses pass List.mem_cons_self) h)
      fun pass hmem => hpasses pass (List.mem_cons_of_mem _ hmem)

/-! ## Repairs one after another -/

/-- Whether a repair brings a mark about in no text without it. -/
def keepsOut (mark : Text) : Repair → Bool
  | literal old new none => !old.isEmpty && (keepsEnds mark old new && avoids mark new)
  | literal _ _ (some _) => false
  | tupleReturns families => families.all fun family => returnsAvoid mark family.shape
  | functionUnions _ => false
  | eventHandlers handlers callback lead => handlersAvoid mark handlers callback lead
  | stringValues => !mark.contains '"' && mark.head?.all fun c => !(valueLead ++ [';']).contains c

/-- A repair brings no mark about that it keeps out. -/
theorem not_isInfix_apply {repair : Repair} (hmark : mark ≠ []) (hcheck : repair.keepsOut mark = true)
    (h : ¬ mark <:+: t) : ¬ mark <:+: apply t repair := by
  cases repair with
  | literal old new limit =>
    cases limit with
    | none =>
      obtain ⟨hold, hmarks⟩ := Bool.and_eq_true_iff.mp hcheck
      obtain ⟨hends, havoids⟩ := Bool.and_eq_true_iff.mp hmarks
      exact not_isInfix_substitute_literalRule (by simpa using hold) hmark hends havoids (.inr h)
    | some limit => exact absurd hcheck Bool.false_ne_true
  | tupleReturns families => exact not_isInfix_apply_tupleReturns hmark (List.all_eq_true.mp hcheck) h
  | functionUnions members => exact absurd hcheck Bool.false_ne_true
  | eventHandlers handlers callback lead => exact not_isInfix_apply_eventHandlers hmark hcheck h
  | stringValues =>
    obtain ⟨c, m, rfl⟩ := List.exists_cons_of_ne_nil hmark
    obtain ⟨hquote, hc⟩ := Bool.and_eq_true_iff.mp hcheck
    exact not_isInfix_substitute_stringValueRule (by simpa using hquote) (by simpa using hc) h

/-- The last repair is made in what the others leave. -/
theorem applyAll_concat (repairs : List Repair) (repair : Repair) (t : Text) :
    applyAll (repairs ++ [repair]) t = apply (applyAll repairs t) repair := by
  rw [applyAll, List.foldl_append]
  rfl

/-- Repairs bring no mark about that they all keep out. -/
theorem not_isInfix_applyAll {repairs : List Repair} (hmark : mark ≠ [])
    (hcheck : repairs.all (·.keepsOut mark) = true) (h : ¬ mark <:+: t) : ¬ mark <:+: applyAll repairs t := by
  induction repairs generalizing t with
  | nil => exact h
  | cons repair repairs ih =>
    obtain ⟨hrepair, hrest⟩ := Bool.and_eq_true_iff.mp hcheck
    exact ih hrest (not_isInfix_apply hmark hrepair h)

/-- A literal repair has nothing to do after a series of repairs with it, when it and the repairs behind it keep its text
out. -/
theorem apply_literal_applyAll (front : List Repair) {old new : Text} {back : List Repair}
    (hcheck : (literal old new none :: back).all (·.keepsOut old) = true) (t : Text) :
    apply (applyAll (front ++ literal old new none :: back) t) (literal old new none) =
      applyAll (front ++ literal old new none :: back) t := by
  obtain ⟨hliteral, hback⟩ := Bool.and_eq_true_iff.mp hcheck
  obtain ⟨hempty, hmarks⟩ := Bool.and_eq_true_iff.mp hliteral
  obtain ⟨hends, havoids⟩ := Bool.and_eq_true_iff.mp hmarks
  have hold : old ≠ [] := by simpa using hempty
  have hgone : ¬ old <:+: apply (applyAll front t) (literal old new none) :=
    not_isInfix_substitute_literalRule hold hold hends havoids (.inl rfl)
  have hsplit : applyAll (front ++ literal old new none :: back) t =
      applyAll back (apply (applyAll front t) (literal old new none)) := by
    rw [applyAll, List.foldl_append]
    rfl
  rw [hsplit]
  exact substitute_literalRule_of_not_isInfix (not_isInfix_applyAll hold hback hgone) none

/-- Repairs that have nothing to do one by one change nothing together. -/
theorem applyAll_eq_self {repairs : List Repair} (h : ∀ repair ∈ repairs, apply t repair = t) :
    applyAll repairs t = t := foldl_eq_self h

end LuaTypings.Repair
