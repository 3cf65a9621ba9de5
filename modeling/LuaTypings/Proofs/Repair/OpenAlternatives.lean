import LuaTypings.Proofs.Repair.Traces

/-!
# Unions that are repaired one alternative at a time

A repair of function alternatives puts the first alternative of a union in parentheses, up to the end of the union. It
does so only where the union goes on as a function at its end, and as the type that is returned there stands behind the
last bar, this does not depend on the alternative (`endsAsFunction_behind`).

An alternative inside the parameters of that function is still without parentheses, so it is the first one of the next
repair. A repair closes one alternative and opens none (`openIn_wrap`); therefore a number of repairs can be made again
without effect exactly when it is large enough to close them all (`iterate_wrap_twice_iff`).
-/

namespace LuaTypings.Repair

open Text

variable {s t head rest union body : Text}

/-! ## Functions at the end -/

/-- A text goes on as a function type when it ends in an arrow and a type without a bar. -/
theorem endsAsFunction_iff :
    endsAsFunction t = true ↔ ∃ returns, returns ≠ [] ∧ '|' ∉ returns ∧ ") => ".toList ++ returns <:+ t := by
  induction t with
  | nil => simp [endsAsFunction]
  | cons c t ih =>
    rw [endsAsFunction, Bool.or_eq_true, ih]
    constructor
    · rintro (h | ⟨returns, hne, hbar, hends⟩)
      · cases hdrop : dropStart? ") => ".toList (c :: t) with
        | none => simp only [hdrop, Bool.false_eq_true] at h
        | some returns =>
          simp only [hdrop, Bool.and_eq_true, Bool.not_eq_true', List.isEmpty_eq_false_iff, List.contains_eq_mem,
            decide_eq_false_iff_not] at h
          exact ⟨returns, h.1, h.2, [], (dropStart?_eq_some_iff.mp hdrop).symm⟩
      · exact ⟨returns, hne, hbar, hends.trans (List.suffix_cons c t)⟩
    · rintro ⟨returns, hne, hbar, hends⟩
      obtain heq | hends := List.suffix_cons_iff.mp hends
      · have hdrop : dropStart? ") => ".toList (c :: t) = some returns := dropStart?_eq_some_iff.mpr heq.symm
        left
        simp only [hdrop, Bool.and_eq_true, Bool.not_eq_true', List.isEmpty_eq_false_iff, List.contains_eq_mem,
          decide_eq_false_iff_not]
        exact ⟨hne, hbar⟩
      · exact .inr ⟨returns, hne, hbar, hends⟩

/-- What goes on as a function type does so behind any text. -/
theorem endsAsFunction_of_isSuffix (h : s <:+ t) (hs : endsAsFunction s = true) : endsAsFunction t = true := by
  obtain ⟨returns, hne, hbar, hends⟩ := endsAsFunction_iff.mp hs
  exact endsAsFunction_iff.mpr ⟨returns, hne, hbar, hends.trans h⟩

/-- One more character that is no bar does no harm. -/
theorem endsAsFunction_concat {c : Char} (hc : c ≠ '|') (h : endsAsFunction t = true) :
    endsAsFunction (t ++ [c]) = true := by
  obtain ⟨returns, -, hbar, front, rfl⟩ := endsAsFunction_iff.mp h
  refine endsAsFunction_iff.mpr ⟨returns ++ [c], by simp, by simp [hbar, hc.symm], front, ?_⟩
  simp

/-- The text behind an alternative goes on as a function type exactly when the whole union does: the type that is
returned stands behind the last bar. -/
theorem endsAsFunction_behind (head rest : Text) :
    endsAsFunction (head ++ (functionAlternative ++ rest)) = endsAsFunction rest := by
  rw [Bool.eq_iff_iff]
  constructor
  · intro h
    obtain ⟨returns, hne, hbar, hends⟩ := endsAsFunction_iff.mp h
    have hno : '|' ∉ ") => ".toList ++ returns := by simpa using hbar
    have hmark : functionAlternative = [' '] ++ ['|'] ++ " (this: ".toList := by decide
    have hsplit : head ++ (functionAlternative ++ rest) = head ++ [' '] ++ ['|'] ++ (" (this: ".toList ++ rest) := by
      rw [hmark]
      simp only [List.append_assoc]
    rw [hsplit] at hends
    obtain hends | ⟨a, ha, heq⟩ := isSuffix_append hends
    · obtain hends | ⟨a, ha, heq⟩ := isSuffix_append hends
      · exact endsAsFunction_iff.mpr ⟨returns, hne, hbar, hends⟩
      -- The arrow does not start within the start of the function, which has no closing parenthesis.
      · cases a with
        | nil => exact endsAsFunction_iff.mpr ⟨returns, hne, hbar, heq ▸ List.suffix_rfl⟩
        | cons c a =>
          obtain ⟨rfl, -⟩ := List.cons.inj heq
          exact absurd (ha.subset List.mem_cons_self) (by decide)
    -- Nor does it start before the bar.
    · obtain rfl | ⟨b, rfl, -⟩ := List.suffix_concat_iff.mp ha
      · exact absurd (List.cons.inj heq).1 (by decide)
      · exact absurd (heq ▸ by simp) hno
  · exact endsAsFunction_of_isSuffix ⟨head ++ functionAlternative, by simp⟩

/-! ## Open alternatives -/

/-- The number of places in a text where a function stands behind a bar without parentheses around it. -/
def countAlternatives : Text → Nat
  | [] => 0
  | c :: t => (if functionAlternative.isPrefixOf (c :: t) then 1 else 0) + countAlternatives t

/-- A text in which no alternative starts adds none to those behind it. -/
theorem countAlternatives_append (h : ∀ r, r ≠ [] → r <:+ s → ¬ functionAlternative <+: r ++ t) :
    countAlternatives (s ++ t) = countAlternatives t := by
  induction s with
  | nil => rfl
  | cons c s ih =>
    have hfirst : functionAlternative.isPrefixOf (c :: (s ++ t)) = false := by
      rw [← Bool.not_eq_true, List.isPrefixOf_iff_prefix]
      exact h (c :: s) (List.cons_ne_nil c s) List.suffix_rfl
    rw [List.cons_append, countAlternatives, hfirst, ih fun r hne hr => h r hne (hr.trans (List.suffix_cons c s))]
    simp

/-- A last character that ends no alternative does not matter. -/
theorem countAlternatives_concat {c : Char} (hc : c ≠ ' ') (t : Text) :
    countAlternatives (t ++ [c]) = countAlternatives t := by
  have hstarts : ∀ s : Text, functionAlternative.isPrefixOf (s ++ [c]) = functionAlternative.isPrefixOf s := by
    intro s
    have hlast : functionAlternative ≠ s ++ [c] := by
      intro heq
      have hspace : functionAlternative.getLast? = some ' ' := by decide
      rw [heq, List.getLast?_concat] at hspace
      exact hc (Option.some.inj hspace)
    rw [Bool.eq_iff_iff, List.isPrefixOf_iff_prefix, List.isPrefixOf_iff_prefix, List.prefix_concat_iff]
    exact or_iff_right hlast
  induction t with
  | nil =>
    have hnone : functionAlternative.isPrefixOf [c] = false := hstarts []
    change (if functionAlternative.isPrefixOf [c] then 1 else 0) + 0 = 0
    rw [hnone]
    rfl
  | cons d t ih =>
    have hfirst : functionAlternative.isPrefixOf (d :: (t ++ [c])) = functionAlternative.isPrefixOf (d :: t) :=
      hstarts (d :: t)
    rw [List.cons_append, countAlternatives, countAlternatives, hfirst, ih]

/-- There are no alternatives exactly where no function stands behind a bar. -/
theorem countAlternatives_eq_zero_iff : countAlternatives t = 0 ↔ ¬ functionAlternative <:+: t := by
  induction t with
  | nil =>
    rw [List.infix_nil]
    exact iff_of_true rfl (by decide)
  | cons c t ih =>
    rw [countAlternatives, Nat.add_eq_zero_iff, ih, List.infix_cons_iff, not_or]
    simp

/-- A text with alternatives is cut at the first one, behind which the others stand. -/
theorem exists_first {n : Nat} (h : countAlternatives t = n + 1) :
    ∃ head rest, t = head ++ (functionAlternative ++ rest) ∧
      (∀ r, r ≠ [] → r <:+ head → ¬ functionAlternative <+: r ++ (functionAlternative ++ rest)) ∧
      countAlternatives (' ' :: rest) = n := by
  induction t with
  | nil => cases h
  | cons c t ih =>
    by_cases hfirst : functionAlternative <+: c :: t
    · obtain ⟨rest, hrest⟩ := hfirst
      refine ⟨[], rest, hrest.symm, fun r hne hr => absurd (List.suffix_nil.mp hr) hne, ?_⟩
      have ht : t = "| (this:".toList ++ ' ' :: rest := (List.cons.inj hrest).2.symm
      -- The space at the end of an alternative may start the next one; nothing else in it can.
      have hrest' : countAlternatives t = countAlternatives (' ' :: rest) := by
        rw [ht]
        exact countAlternatives_append fun r hne hr => not_isPrefix_of_avoids (by decide) hne hr _
      rw [countAlternatives, if_pos (List.isPrefixOf_iff_prefix.mpr ⟨rest, hrest⟩)] at h
      omega
    · rw [countAlternatives, if_neg (by rwa [List.isPrefixOf_iff_prefix]), Nat.zero_add] at h
      obtain ⟨head, rest, rfl, hnone, hcount⟩ := ih h
      refine ⟨c :: head, rest, rfl, fun r hne hr => ?_, hcount⟩
      obtain rfl | hr := List.suffix_cons_iff.mp hr
      · exact hfirst
      · exact hnone r hne hr

/-- The number of open alternatives of a union that a semicolon ends. There are none if it does not go on as a function
at its end. -/
def openIn (body : Text) : Nat :=
  match dropEnd? ";" body with
  | some union => if !union.contains ';' && endsAsFunction union then countAlternatives union else 0
  | none => 0

/-- The body of a line with its first function alternative in parentheses, if there is one. -/
def wrap (body : Text) : Text := (parenthesizeBody? [] body).getD body

/-- A union with the function behind its first alternative in parentheses. -/
def closedUnion (head rest : Text) : Text := head ++ (" | ((this:".toList ++ ' ' :: rest) ++ [')']

/-- What is put in parentheses does not depend on the heading. -/
theorem parenthesizeBody?_eq (heading body : Text) :
    parenthesizeBody? heading body = (parenthesizeBody? [] body).map (heading ++ ·) := by
  rw [parenthesizeBody?, parenthesizeBody?]
  cases dropEnd? ";" body with
  | none => rfl
  | some union =>
    simp only [Option.bind_eq_bind, Option.bind_some]
    cases union.contains ';' with
    | true => rfl
    | false => cases cutAtFunction? union with
      | none => rfl
      | some parts => simp

/-- A union is cut where an alternative starts that takes the rest. -/
theorem cutAtFunction?_of_starts {c : Char} (hends : endsAsFunction rest = true)
    (h : c :: t = functionAlternative ++ rest) : cutAtFunction? (c :: t) = some ([], "(this: ".toList ++ rest) := by
  have hdrop : dropStart? " | (this: " (c :: t) = some rest := dropStart?_eq_some_iff.mpr h
  rw [cutAtFunction?, hdrop, Option.filter_some, if_pos hends]

/-- Elsewhere the cut is looked for further on. -/
theorem cutAtFunction?_of_not_starts {c : Char}
    (h : ∀ rest, c :: t = functionAlternative ++ rest → endsAsFunction rest = false) :
    cutAtFunction? (c :: t) = (cutAtFunction? t).map fun (head, function) => (c :: head, function) := by
  have hdrop : (dropStart? " | (this: " (c :: t)).filter endsAsFunction = none := by
    rw [Option.filter_eq_none_iff]
    exact fun rest hrest => by simp [h rest (dropStart?_eq_some_iff.mp hrest)]
  rw [cutAtFunction?, hdrop]

/-- A union that goes on as a function is cut at its first alternative. -/
theorem cutAtFunction?_append (hends : endsAsFunction rest = true)
    (hfirst : ∀ r, r ≠ [] → r <:+ head → ¬ functionAlternative <+: r ++ (functionAlternative ++ rest)) :
    cutAtFunction? (head ++ (functionAlternative ++ rest)) = some (head, "(this: ".toList ++ rest) := by
  induction head with
  | nil => exact cutAtFunction?_of_starts hends rfl
  | cons c head ih =>
    have hnot : ∀ u, c :: (head ++ (functionAlternative ++ rest)) = functionAlternative ++ u →
        endsAsFunction u = false :=
      fun u hu => absurd ⟨u, hu.symm⟩ (hfirst (c :: head) (List.cons_ne_nil c head) List.suffix_rfl)
    rw [List.cons_append, cutAtFunction?_of_not_starts hnot,
      ih fun r hne hr => hfirst r hne (hr.trans (List.suffix_cons c head))]
    rfl

/-- A union that does not go on as a function is not cut. -/
theorem cutAtFunction?_of_not_endsAsFunction (h : endsAsFunction t = false) : cutAtFunction? t = none := by
  induction t with
  | nil => rfl
  | cons c t ih =>
    have hrest : endsAsFunction t = false := by
      rw [← Bool.not_eq_true] at h ⊢
      exact fun ht => h (endsAsFunction_of_isSuffix (List.suffix_cons c t) ht)
    have hnot : ∀ u, c :: t = functionAlternative ++ u → endsAsFunction u = false := by
      intro u hu
      rw [hu] at h
      exact (endsAsFunction_behind [] u).symm.trans h
    rw [cutAtFunction?_of_not_starts hnot, ih hrest]
    rfl

/-- The first alternative is closed, and the others stay. -/
theorem countAlternatives_closedUnion
    (hfirst : ∀ r, r ≠ [] → r <:+ head → ¬ functionAlternative <+: r ++ (functionAlternative ++ rest)) :
    countAlternatives (closedUnion head rest) = countAlternatives (' ' :: rest) := by
  have hopen : avoids functionAlternative " | ((this:".toList = true := by decide
  rw [closedUnion, countAlternatives_concat (by decide), ← List.append_assoc]
  refine countAlternatives_append fun r hne hr hstart => ?_
  obtain hr | ⟨a, ha, rfl⟩ := isSuffix_append hr
  · exact not_isPrefix_of_avoids hopen hne hr _ hstart
  by_cases hnil : a = []
  · subst hnil
    exact not_isPrefix_of_avoids hopen hne List.suffix_rfl _ hstart
  -- An alternative that starts in front of the parenthesis ends in front of it.
  · rw [List.append_assoc] at hstart
    have hclosed : functionAlternative <+: a ++ functionAlternative :=
      isPrefix_append_of_keepsEnds (by decide) List.suffix_rfl hstart
    exact hfirst a hnil ha (hclosed.trans ((List.prefix_append_right_inj a).mpr (List.prefix_append _ rest)))

/-- The open alternatives are those of the union in front of the semicolon. -/
theorem openIn_semicolon (hsemicolon : ';' ∉ union) (hends : endsAsFunction union = true) :
    openIn (union ++ [';']) = countAlternatives union := by
  have hdrop : dropEnd? ";" (union ++ [';']) = some union := dropEnd?_append [';'] union
  have hno : union.contains ';' = false := by simpa using hsemicolon
  simp only [openIn, hdrop, hno, hends, Bool.not_false, Bool.and_true, if_true]

/-- A body with open alternatives is a union that goes on as a function, with a semicolon behind it. -/
theorem exists_of_openIn {n : Nat} (h : openIn body = n + 1) :
    ∃ head rest, body = head ++ (functionAlternative ++ rest) ++ [';'] ∧
      ';' ∉ head ++ (functionAlternative ++ rest) ∧ endsAsFunction rest = true ∧
      (∀ r, r ≠ [] → r <:+ head → ¬ functionAlternative <+: r ++ (functionAlternative ++ rest)) ∧
      countAlternatives (' ' :: rest) = n := by
  rw [openIn] at h
  split at h
  · rename_i union hdrop
    split at h
    · rename_i hcheck
      rw [Bool.and_eq_true, Bool.not_eq_true', List.contains_eq_mem, decide_eq_false_iff_not] at hcheck
      obtain ⟨head, rest, rfl, hfirst, hcount⟩ := exists_first h
      rw [endsAsFunction_behind] at hcheck
      exact ⟨head, rest, dropEnd?_eq_some_iff.mp hdrop, hcheck.1, hcheck.2, hfirst, hcount⟩
    · cases h
  · cases h

/-- A repair closes the first alternative of a union that goes on as a function. -/
theorem wrap_append (hsemicolon : ';' ∉ head ++ (functionAlternative ++ rest)) (hends : endsAsFunction rest = true)
    (hfirst : ∀ r, r ≠ [] → r <:+ head → ¬ functionAlternative <+: r ++ (functionAlternative ++ rest)) :
    wrap (head ++ (functionAlternative ++ rest) ++ [';']) = closedUnion head rest ++ [';'] := by
  have hcut := cutAtFunction?_append hends hfirst
  have hwritten : head ++ " | (".toList ++ ("(this: ".toList ++ rest) ++ ");".toList =
      closedUnion head rest ++ [';'] := by
    rw [closedUnion]
    simp only [List.append_assoc]
    rfl
  generalize head ++ (functionAlternative ++ rest) = union at hsemicolon hcut ⊢
  have hdrop : dropEnd? ";" (union ++ [';']) = some union := dropEnd?_append [';'] union
  have hno : union.contains ';' = false := by simpa using hsemicolon
  have hbody : parenthesizeBody? [] (union ++ [';']) = some (closedUnion head rest ++ [';']) := by
    rw [parenthesizeBody?, hdrop, ← hwritten]
    simp only [Option.bind_eq_bind, Option.bind_some, hno, hcut]
    rfl
  rw [wrap, hbody]
  rfl

/-- A repair of a union with open alternatives closes one of them, with two characters more. -/
theorem openIn_wrap {n : Nat} (h : openIn body = n + 1) :
    openIn (wrap body) = n ∧ (wrap body).length = body.length + 2 := by
  obtain ⟨head, rest, rfl, hsemicolon, hends, hfirst, hcount⟩ := exists_of_openIn h
  have hclosed : ';' ∉ closedUnion head rest := by
    rw [List.mem_append, List.mem_append, not_or, not_or] at hsemicolon
    rw [closedUnion, List.mem_append, List.mem_append, List.mem_append, List.mem_cons]
    simp [hsemicolon.1, hsemicolon.2.2]
  have hends' : endsAsFunction (closedUnion head rest) = true := by
    have hbehind : rest <:+ head ++ (" | ((this:".toList ++ ' ' :: rest) := ⟨head ++ (" | ((this:".toList ++ [' ']), by simp⟩
    exact endsAsFunction_concat (by decide) (endsAsFunction_of_isSuffix hbehind hends)
  rw [wrap_append hsemicolon hends hfirst]
  constructor
  · rw [openIn_semicolon hclosed hends', countAlternatives_closedUnion hfirst, hcount]
  · have hopen : " | ((this:".toList.length = 10 := by decide
    have hmark : functionAlternative.length = 10 := by decide
    simp only [closedUnion, List.length_append, List.length_cons, List.length_nil, hopen, hmark]
    omega

/-- A repair changes nothing in a union without open alternatives. -/
theorem wrap_of_openIn_eq_zero (h : openIn body = 0) : wrap body = body := by
  have hbody : parenthesizeBody? [] body = none := by
    rw [parenthesizeBody?]
    rw [openIn] at h
    cases hdrop : dropEnd? ";" body with
    | none => rfl
    | some union =>
      simp only [hdrop] at h
      simp only [Option.bind_eq_bind, Option.bind_some]
      cases hsemicolon : union.contains ';' with
      | true => rfl
      | false =>
        have hcut : cutAtFunction? union = none := by
          cases hends : endsAsFunction union with
          | false => exact cutAtFunction?_of_not_endsAsFunction hends
          | true =>
            rw [hsemicolon, hends] at h
            exact cutAtFunction?_eq_none (countAlternatives_eq_zero_iff.mp h)
        rw [hcut]
        rfl
  rw [wrap, hbody]
  rfl

/-- Repairs one after another close one alternative each, as long as there are any. -/
theorem openIn_iterate_wrap (n : Nat) (body : Text) :
    openIn (wrap^[n] body) = openIn body - n ∧
      (wrap^[n] body).length = body.length + 2 * min n (openIn body) := by
  induction n with
  | zero => simp
  | succ n ih =>
    obtain ⟨hopen, hlength⟩ := ih
    rw [Function.iterate_succ_apply']
    -- What the repairs so far have left open decides whether one more changes anything.
    cases hleft : openIn (wrap^[n] body) with
    | zero =>
      rw [wrap_of_openIn_eq_zero hleft]
      omega
    | succ left =>
      obtain ⟨hopen', hlength'⟩ := openIn_wrap hleft
      omega

/-- Repeating a number of repairs changes nothing exactly when they close all alternatives. -/
theorem iterate_wrap_twice_iff {n : Nat} (hn : n ≠ 0) (body : Text) :
    wrap^[n] (wrap^[n] body) = wrap^[n] body ↔ openIn body ≤ n := by
  obtain ⟨hopen, hlength⟩ := openIn_iterate_wrap n body
  constructor
  -- Were an alternative open, the next repair would add its two characters.
  · intro h
    have hlength' := (openIn_iterate_wrap n (wrap^[n] body)).2
    rw [h] at hlength'
    omega
  · intro h
    have hfixed : wrap (wrap^[n] body) = wrap^[n] body := wrap_of_openIn_eq_zero (by omega)
    exact Function.iterate_fixed hfixed n

/-- A repair writes no line feed. -/
theorem not_mem_wrap (h : '\n' ∉ body) : '\n' ∉ wrap body := by
  cases hopen : openIn body with
  | zero => rwa [wrap_of_openIn_eq_zero hopen]
  | succ n =>
    obtain ⟨head, rest, rfl, hsemicolon, hends, hfirst, -⟩ := exists_of_openIn hopen
    rw [List.mem_append, List.mem_append, List.mem_append, not_or, not_or, not_or] at h
    rw [wrap_append hsemicolon hends hfirst, closedUnion, List.mem_append, List.mem_append, List.mem_append,
      List.mem_append, List.mem_cons]
    simp [h.1.1, h.1.2.2]

end LuaTypings.Repair
