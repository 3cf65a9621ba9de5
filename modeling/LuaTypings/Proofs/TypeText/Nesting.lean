import LuaTypings.Proofs.TypeText.Operands

/-!
# How deep types nest

The declared type of a text is made from those of its operands, and theirs from those of their own. Each level is at least
one character shorter than the one above it, and the first is shorter than the text without its comment
(`IsNestedIn.length_add_le`), although a function type writes types that do not stand in it: brackets behind the type of a
variadic parameter, and `any` for a type that is left out or lost in prose. So the levels come to an end, and what the rules
say of one form determines the declared types of all texts (`nesting_of_types`).
-/

namespace LuaTypings.TypeText

variable {s t : Text} {n : Nat}

/-- The declared type of a text is asked for `n` levels down, when that of another one is made. -/
inductive IsNestedIn (t : Text) : (n : Nat) → (s : Text) → Prop where
  /-- The form of the text itself asks for it. -/
  | operand {s : Text} (h : s ∈ (View.ofText t).operands) : IsNestedIn t 1 s
  /-- The form of a nested text asks for it. -/
  | deeper {n : Nat} {s o : Text} (hs : IsNestedIn t n s) (h : o ∈ (View.ofText s).operands) : IsNestedIn t (n + 1) o

/-- An operand is shorter than the text without its comment. -/
theorem length_lt_withoutComment (h : s ∈ (View.ofText t).operands) : s.length < (withoutComment t).length :=
  length_lt_of_mem_operands_ofBare (withoutComment t) s h

/-- Each level takes a character at least. -/
theorem IsNestedIn.length_add_le (h : IsNestedIn t n s) : s.length + n ≤ (withoutComment t).length := by
  induction h with
  | operand h => exact length_lt_withoutComment h
  | @deeper n s o _ ho ih =>
    have hlt := length_lt_of_mem_operands s o ho
    omega

/-- There is no nested text without a level. -/
theorem IsNestedIn.pos (h : IsNestedIn t n s) : 0 < n := by
  cases h <;> omega

/-- There is no endless chain of operands. -/
theorem wellFounded_operands : WellFounded fun s t : Text => s ∈ (View.ofText t).operands :=
  Subrelation.wf (fun {s t} h => length_lt_of_mem_operands t s h) (InvImage.wf List.length Nat.lt_wfRel.wf)

/-- As many levels as the text without its comment is long, and one more, are enough. -/
theorem declaredWithin_of_length_lt (h : (withoutComment t).length < n) : declaredWithin n t = declaredType t := by
  cases n with
  | zero => omega
  | succ n =>
    rw [declaredType_eq, declaredWithin]
    refine render_congr fun o ho => ?_
    have hlt := length_lt_withoutComment ho
    exact declaredWithin_eq (by omega) (by omega)

/-- What renders every form from its operands gives every text its declared type. -/
theorem eq_declaredType_of_render {f : Text → Text} (hf : ∀ t, f t = (View.ofText t).render f) : f = declaredType := by
  funext t
  induction t using wellFounded_operands.induction with
  | _ t ih =>
    rw [hf, declaredType_eq]
    exact render_congr fun o ho => ih o ho

/-- The type of each parameter and each return of a function type is shorter than its text: also an array's, with brackets
that are not written, and `any`, where no type is. -/
theorem length_lt_of_isFunctionText {inside rest : Text} (hfun : isFunctionText t = true)
    (h : firstGroup? t = some (inside, rest)) :
    (∀ part ∈ topParts ',' inside, (WrittenParam.ofText part).type.length < t.length) ∧
      ∀ type ∈ (WrittenReturn.ofText rest).types, type.length < t.length := by
  have hsignature : WrittenSignature.ofText? t =
      some ⟨(topParts ',' inside).map WrittenParam.ofText, WrittenReturn.ofText rest⟩ := by
    rw [WrittenSignature.ofText?, h]
    rfl
  have hlt := length_lt_of_mem_signature hfun hsignature
  simp only [operands_callable, List.mem_append, List.mem_map] at hlt
  exact ⟨fun part hpart => hlt _ (.inl ⟨_, ⟨part, hpart, rfl⟩, rfl⟩), fun type htype => hlt type (.inr htype)⟩

/-- **Types nest no deeper than their text is long.** A text whose declared type is asked for while that of another one is
made is shorter than that one without its comment, by one character for each level at least; this holds for the types that
a function type leaves out as well. What is rendered depends on the declared types of the operands and on nothing else, so
there is exactly one way to declare types by the rules, and the number of levels that it takes is bounded by the length of
the text without its comment. -/
theorem nesting_of_types :
    (∀ (t : Text) (n : Nat) (s : Text), IsNestedIn t n s → 0 < n ∧ s.length + n ≤ (withoutComment t).length) ∧
      (∀ t inside rest : Text, isFunctionText t = true → firstGroup? t = some (inside, rest) →
        (∀ part ∈ topParts ',' inside, (WrittenParam.ofText part).type.length < t.length) ∧
          ∀ type ∈ (WrittenReturn.ofText rest).types, type.length < t.length) ∧
      (∀ (t : Text) (f : Text → Text), (∀ s, IsNestedIn t 1 s → f s = declaredType s) →
        (View.ofText t).render f = declaredType t) ∧
      (∀ f : Text → Text, (∀ t, f t = (View.ofText t).render f) ↔ f = declaredType) ∧
      ∀ (t : Text) (n : Nat), (withoutComment t).length < n → declaredWithin n t = declaredType t := by
  refine ⟨fun t n s h => ⟨h.pos, h.length_add_le⟩, fun t inside rest => length_lt_of_isFunctionText, fun t f hf => ?_,
    fun f => ⟨eq_declaredType_of_render, ?_⟩, fun t n => declaredWithin_of_length_lt⟩
  · rw [declaredType_eq]
    exact render_congr fun o ho => hf o (.operand ho)
  · rintro rfl
    exact declaredType_eq

/-- A parameter without a type, two variadic ones and a return that is lost in prose. The brackets that the first variadic
parameter gets belong to its last alternative, `nil`, which is nested in three levels. -/
theorem nesting_of_omitted_types :
    let t : Text := "fun(...: T|nil, x, ...): a b c  # note"
    (IsNestedIn t 3 "nil" ∧ "nil".toList.length + 3 ≤ (withoutComment t).length) ∧
      (∀ part ∈ ["...: T|nil".toList, "x", "..."], (WrittenParam.ofText part).type.length < (withoutComment t).length) ∧
      "any".toList.length < (withoutComment t).length ∧
      declaredWithin 31 t = "(this: void, ...args: T | void[], x: any, ...args: any[]) => any" := by
  intro t
  have hnested : IsNestedIn t 3 "nil" := by
    have hparam : IsNestedIn t 1 "T|nil[]" := .operand (by decide +kernel)
    have hlast : IsNestedIn t 2 "nil[]" := hparam.deeper (by decide +kernel)
    exact hlast.deeper (by decide +kernel)
  have hbare : withoutComment t = "fun(...: T|nil, x, ...): a b c" := by decide +kernel
  have hgroup : firstGroup? (withoutComment t) = some ("...: T|nil, x, ...".toList, ": a b c".toList) := by decide +kernel
  obtain ⟨hlevels, htypes, -, -, hdepth⟩ := nesting_of_types
  obtain ⟨hparams, hreturns⟩ := htypes (withoutComment t) _ _ (by decide +kernel) hgroup
  have hparts : topParts ',' "...: T|nil, x, ...".toList = ["...: T|nil".toList, "x", "..."] := by decide +kernel
  refine ⟨⟨hnested, (hlevels t 3 _ hnested).2⟩, fun part hpart => hparams part (hparts ▸ hpart),
    hreturns "any" (by decide +kernel), ?_⟩
  rw [hdepth t 31 (by rw [hbare]; decide)]
  decide +kernel

end LuaTypings.TypeText
