import LuaTypings.Proofs.Text.Cut
import LuaTypings.Proofs.TypeText.Balance
import LuaTypings.TypeText.Declared

/-!
# Operands

Every operand of a type's outermost form is shorter than the type's text (`length_lt_of_mem_operands`). The declared type
is therefore the one that the form renders from the declared types of the operands, however deep they are nested
(`declaredType_eq`).
-/

namespace LuaTypings.TypeText

variable {p : Char → Bool}

/-! ## Parts of a text -/

/-- The pieces of a text and the separators between them make up the text. -/
theorem length_flatten_segments (depth : Nat) (t : Text) :
    (segments p depth t).flatten.length + (segments p depth t).length = t.length + 1 := by
  induction t generalizing depth with
  | nil => rfl
  | cons c t ih =>
    by_cases hc : isTopSeparator p depth c = true
    · have hrest := ih 0
      rw [segments, if_pos hc, List.flatten_cons, List.nil_append, List.length_cons, List.length_cons]
      omega
    · rw [segments_cons (by simpa using hc)]
      have hrest := ih (depthAfter depth c)
      cases hp : segments p (depthAfter depth c) t with
      | nil => exact absurd hp (segments_ne_nil _ _)
      | cons piece pieces =>
        rw [hp, List.flatten_cons, List.length_append, List.length_cons] at hrest
        rw [List.modifyHead_cons, List.flatten_cons, List.length_append, List.length_cons, List.length_cons,
          List.length_cons]
        omega

/-- A piece is no longer than the text, and shorter when there are several. -/
theorem length_segment_le {depth : Nat} {t s : Text} (h : s ∈ segments p depth t) :
    s.length + (segments p depth t).length ≤ t.length + 1 := by
  have hall := length_flatten_segments (p := p) depth t
  have hle : s.length ≤ (segments p depth t).flatten.length := (List.sublist_flatten_of_mem h).length_le
  omega

/-- A part is no longer than the text, and shorter when there are several. -/
theorem length_topPart_le {t s : Text} (h : s ∈ topPartsBy p t) :
    s.length + (topPartsBy p t).length ≤ t.length + 1 := by
  have hmem := List.mem_of_mem_filter h
  rw [List.mem_map] at hmem
  obtain ⟨piece, hpiece, rfl⟩ := hmem
  have hcount : (topPartsBy p t).length ≤ (segments p 0 t).length := by
    rw [topPartsBy]
    exact (List.length_filter_le _ _).trans (List.length_map _).le
  have hlen := length_segment_le hpiece
  have hstrip := Text.length_strip_le piece
  omega

/-- A part of a text is no longer than the text. -/
theorem length_le_of_mem_topPartsBy {t s : Text} (h : s ∈ topPartsBy p t) : s.length ≤ t.length := by
  have hlen := length_topPart_le h
  have hpos := List.length_pos_of_mem h
  omega

/-- No part of a text is empty. -/
theorem ne_nil_of_mem_topPartsBy {t s : Text} (h : s ∈ topPartsBy p t) : s ≠ [] := by
  have := (List.mem_filter.mp h).2
  simpa using this

/-- What the closer of an open bracket ends and what follows it make up the text with it. -/
theorem length_of_splitAtClose? {depth : Nat} {t inside rest : Text}
    (h : splitAtClose? (depth + 1) t = some (inside, rest)) : inside.length + rest.length + 1 = t.length := by
  obtain ⟨c, -, -, rfl⟩ := exists_of_splitAtClose? h
  rw [List.length_append, List.length_cons, Nat.add_assoc]

/-! ## Comments and prose -/

/-- What is left without a comment is a part of the text. -/
theorem isInfix_withoutComment (t : Text) : withoutComment t <:+: t := by
  have hdashes : Text.before " --" (Text.strip t) <:+: t :=
    (Text.isPrefix_before _ _).isInfix.trans (Text.isInfix_strip t)
  have hnumberSign : Text.before "  #" (Text.strip (Text.before " --" (Text.strip t))) <:+: t :=
    ((Text.isPrefix_before _ _).isInfix.trans (Text.isInfix_strip _)).trans hdashes
  exact (Text.isInfix_strip _).trans hnumberSign

/-- A text without its comment is no longer than the text. -/
theorem length_withoutComment_le (t : Text) : (withoutComment t).length ≤ t.length :=
  (isInfix_withoutComment t).length_le

/-- What is left of a return text depends only on the text without its comment. -/
theorem withoutProse_congr {s t : Text} (h : withoutComment s = withoutComment t) : withoutProse s = withoutProse t := by
  rw [withoutProse, withoutProse, h]

/-- What is left of a return text depends only on the text between its blanks. -/
theorem withoutProse_congr_strip {s t : Text} (h : Text.strip s = Text.strip t) : withoutProse s = withoutProse t :=
  withoutProse_congr (by rw [withoutComment, withoutComment, h])

/-- A cut at a capitalised word loses nothing. -/
theorem append_of_cutCapitalised? {t head rest : Text} (h : Text.cutCapitalised? t = some (head, rest)) :
    head ++ rest = t := by
  fun_induction Text.cutCapitalised? t generalizing head rest with
  | case1 x y t hxy =>
    simp only [Option.some.injEq, Prod.mk.injEq] at h
    rw [← h.1, ← h.2, List.nil_append]
  | case2 x y t hxy ih =>
    rw [Option.map_eq_some_iff] at h
    obtain ⟨⟨head', rest'⟩, hcut, heq⟩ := h
    simp only [Prod.mk.injEq] at heq
    rw [← heq.1, ← heq.2, List.cons_append, ih hcut]
  | case3 c t hc ih =>
    rw [Option.map_eq_some_iff] at h
    obtain ⟨⟨head', rest'⟩, hcut, heq⟩ := h
    simp only [Prod.mk.injEq] at heq
    rw [← heq.1, ← heq.2, List.cons_append, ih hcut]
  | case4 => simp at h

/-- A text without its last word of prose is no longer than the text. -/
theorem length_dropProseWord_le (t : Text) : (dropProseWord t).length ≤ t.length := by
  unfold dropProseWord
  split
  · rename_i word rest hspan
    split
    · rw [List.span_eq_takeWhile_dropWhile, Prod.mk.injEq] at hspan
      have hsuffix : (' ' :: rest).length ≤ t.reverse.length := by
        rw [← hspan.2]
        exact (List.dropWhile_suffix _).length_le
      have hstrip := Text.length_strip_le rest.reverse
      simp only [List.length_cons, List.length_reverse] at hsuffix hstrip
      omega
    · exact le_rfl
  · exact le_rfl

/-- The type in a return text is no longer than the text, unless it is `any`. -/
theorem length_withoutProse_le (t : Text) : (withoutProse t).length ≤ max 3 t.length := by
  have hbare := length_withoutComment_le t
  have hplain : ∀ plain : Text, plain.length ≤ t.length →
      (if hasWordAfterType (dropProseWord plain) then ("any".toList : Text) else dropProseWord plain).length
        ≤ max 3 t.length := by
    intro plain hle
    have hdrop := length_dropProseWord_le plain
    split
    · exact le_max_left 3 t.length
    · omega
  unfold withoutProse
  dsimp only
  split
  · rename_i head rest hcut
    have happend := congrArg List.length (append_of_cutCapitalised? hcut)
    have hstrip := Text.length_strip_le head
    rw [List.length_append] at happend
    exact hplain _ (by omega)
  · exact hplain _ hbare

/-! ## Signatures -/

/-- A text without its question marks is no longer than the text. -/
theorem length_stripQuestionMarks_le (t : Text) : (Text.stripQuestionMarks t).length ≤ t.length :=
  (List.rdropWhile_prefix (fun c => c == '?') t).length_le

/-- The type of a parameter is no longer than the parameter, unless it is one that the parameter leaves out. -/
theorem length_paramType_le (t : Text) : (WrittenParam.ofText t).type.length ≤ max 5 t.length := by
  unfold WrittenParam.ofText
  split
  · rename_i rest hrest
    have hlen : t.length = rest.length + 3 := by
      rw [Text.dropStart?_eq_some_iff.mp hrest, List.length_append]
      simp
      omega
    split
    · rename_i name type hcut
      cases type with
      | none => exact Nat.le_max_left 5 t.length
      | some type =>
        have hpart := Text.length_of_cutAtChar hcut
        have hstrip := Text.length_strip_le type
        simp only [List.length_append, String.length_toList]
        change _ + 2 ≤ _
        omega
  · split
    · have hany : 3 ≤ max 5 t.length := by omega
      exact hany
    · rename_i name type hcut
      have hpart := Text.length_of_cutAtChar hcut
      have hstrip := Text.length_strip_le type
      have hmarks := length_stripQuestionMarks_le (Text.strip type)
      dsimp only
      split
      · dsimp only
        omega
      · dsimp only
        omega

/-- A function type's text is five characters longer than its parameters and returns together, or more. -/
theorem length_of_firstGroup? {t inside rest : Text} (hfun : isFunctionText t = true)
    (h : firstGroup? t = some (inside, rest)) : inside.length + rest.length + 5 ≤ t.length := by
  have hdrop : (t.dropWhile (· ≠ '(')).length + 3 ≤ t.length := by
    rw [isFunctionText, Bool.or_eq_true] at hfun
    rcases hfun with hfun | hfun
    · obtain ⟨r, rfl⟩ := List.isPrefixOf_iff_prefix.mp hfun
      simp
    · obtain ⟨r, rfl⟩ := List.isPrefixOf_iff_prefix.mp hfun
      have hr : (r.dropWhile (· ≠ '(')).length ≤ r.length := (List.dropWhile_suffix _).length_le
      exact Nat.add_le_of_le_sub (Nat.le_add_left 3 _) (hr.trans (Nat.le_add_right _ 1))
  unfold firstGroup? at h
  split at h
  · contradiction
  · rename_i c r hd
    rw [hd, List.length_cons] at hdrop
    have hsplit := length_of_splitAtClose? h
    omega

/-- The types among what is returned. -/
def WrittenReturn.types : WrittenReturn → List Text
  | absent => []
  | single type => [type]
  | several types => types

/-- What is returned by a text without prose: several types, or one. -/
def WrittenReturn.ofCleaned (cleaned : Text) : WrittenReturn :=
  match topParts ',' cleaned with
  | first :: second :: more => .several (first :: second :: more)
  | _ => .single cleaned

/-- A colon starts the returns, which are read without their prose. -/
theorem WrittenReturn.ofText_of_colon {t rest : Text} (h : Text.strip t = ':' :: rest) :
    WrittenReturn.ofText t = .ofCleaned (withoutProse rest) := by
  have hcolon : Text.dropStart? ":".toList (Text.strip t) = some rest := Text.dropStart?_eq_some_iff.mpr h
  rcases hparts : topParts ',' (withoutProse rest) with _ | ⟨first, _ | ⟨second, more⟩⟩
  · simp only [WrittenReturn.ofText, hcolon, WrittenReturn.ofCleaned, hparts]
  · simp only [WrittenReturn.ofText, hcolon, WrittenReturn.ofCleaned, hparts]
  · simp only [WrittenReturn.ofText, hcolon, WrittenReturn.ofCleaned, hparts]

/-- Nothing is returned where no colon stands. -/
theorem WrittenReturn.ofText_of_no_colon {t : Text} (h : Text.dropStart? ":".toList (Text.strip t) = none) :
    WrittenReturn.ofText t = .absent := by
  rw [WrittenReturn.ofText, h]

/-- The types of several returns, or of one, are no longer than the text they are read from. -/
theorem length_le_of_mem_ofCleaned {cleaned o : Text} (h : o ∈ (WrittenReturn.ofCleaned cleaned).types) :
    o.length ≤ cleaned.length := by
  rw [WrittenReturn.ofCleaned] at h
  split at h
  · rename_i first second more hparts
    rw [WrittenReturn.types, ← hparts] at h
    exact length_le_of_mem_topPartsBy h
  · rw [WrittenReturn.types, List.mem_singleton] at h
    rw [h]

/-- A type among the returns is no longer than the text of the returns, unless it is `any`. -/
theorem length_le_of_mem_returns {t o : Text} (h : o ∈ (WrittenReturn.ofText t).types) :
    o.length ≤ max 3 t.length := by
  cases hcolon : Text.dropStart? ":".toList (Text.strip t) with
  | none =>
    rw [WrittenReturn.ofText_of_no_colon hcolon] at h
    simp [WrittenReturn.types] at h
  | some rest =>
    have hrest : Text.strip t = ':' :: rest := Text.dropStart?_eq_some_iff.mp hcolon
    rw [WrittenReturn.ofText_of_colon hrest] at h
    have hclean := length_le_of_mem_ofCleaned h
    have hprose := length_withoutProse_le rest
    have hstrip := Text.length_strip_le t
    rw [hrest, List.length_cons] at hstrip
    omega

/-- The operands of a function type are the types of its parameters and of what it returns. -/
theorem operands_callable (signature : WrittenSignature) :
    (View.callable (some signature)).operands = signature.params.map (·.type) ++ signature.returns.types := by
  cases h : signature.returns <;> simp [View.operands, WrittenReturn.types, h]

/-- The types of a signature are shorter than the text of the function type. -/
theorem length_lt_of_mem_signature {t : Text} (hfun : isFunctionText t = true) {signature : WrittenSignature}
    (h : WrittenSignature.ofText? t = some signature) :
    ∀ o ∈ (View.callable (some signature)).operands, o.length < t.length := by
  rw [WrittenSignature.ofText?, Option.map_eq_some_iff] at h
  obtain ⟨⟨inside, rest⟩, hgroup, rfl⟩ := h
  have hlen := length_of_firstGroup? hfun hgroup
  intro o ho
  rw [operands_callable, List.mem_append] at ho
  rcases ho with ho | ho
  · -- A parameter that stands in the list makes room for the type it may leave out.
    simp only [List.map_map, List.mem_map, Function.comp_apply] at ho
    obtain ⟨part, hpart, rfl⟩ := ho
    have hle := length_paramType_le part
    have hpart_le := length_le_of_mem_topPartsBy hpart
    have hpos := List.length_pos_of_ne_nil (ne_nil_of_mem_topPartsBy hpart)
    omega
  · have hle := length_le_of_mem_returns ho
    omega

/-! ## Forms -/

/-- What stands in front of a last alternative `nil` is shorter than the text. -/
theorem length_of_nullableBase? {t base : Text} (h : nullableBase? t = some base) : base.length < t.length := by
  rw [nullableBase?, Option.map_eq_some_iff] at h
  obtain ⟨front, hfront, rfl⟩ := h
  have hstrip := Text.length_strip_le front
  rw [Option.orElse_eq_orElse, Option.orElse_eq_or, Option.or_eq_some_iff] at hfront
  have hlen : front.length < t.length := by
    rcases hfront with hfront | ⟨-, hfront⟩
    · rw [Text.dropEnd?_eq_some_iff.mp hfront, List.length_append]
      simp
    · rw [Text.dropEnd?_eq_some_iff.mp hfront, List.length_append]
      simp
  omega

/-- What stands in front of a question mark is shorter than the text. -/
theorem length_of_optionalBase? {t base : Text} (h : optionalBase? t = some base) : base.length < t.length := by
  rw [optionalBase?] at h
  split at h
  · contradiction
  · rw [Text.dropEnd?_eq_some_iff.mp h, List.length_append]
    simp

/-- Several parts of a text are shorter than the text, whatever separates them. -/
theorem length_lt_of_mem_topParts {t : Text} {c : Char} (hseveral : 2 ≤ (topParts c t).length) :
    ∀ o ∈ topParts c t, o.length < t.length := by
  intro o ho
  have hlen := length_topPart_le ho
  rw [topParts] at hseveral
  omega

/-- Alternatives are shorter than the text. -/
theorem length_lt_of_mem_unionParts? {t : Text} {parts : List Text} (h : unionParts? t = some parts) :
    ∀ o ∈ parts, o.length < t.length := by
  rw [unionParts?] at h
  split at h
  · rename_i first second more hparts
    rw [Option.some.injEq, ← hparts] at h
    subst h
    exact length_lt_of_mem_topParts (by rw [hparts]; simp)
  · contradiction

/-- What parentheses enclose is shorter than the text. -/
theorem length_of_enclosed? {t inside : Text} (h : enclosed? t = some inside) : inside.length < t.length := by
  unfold enclosed? at h
  split at h
  · rename_i r
    split at h
    · rename_i inside' hclose
      have hlen := length_of_splitAtClose? hclose
      split at h
      · rw [Option.some.injEq] at h
        subst h
        rw [List.length_cons]
        omega
      · contradiction
    · contradiction
  · contradiction

/-- The operands of what parentheses enclose are no longer than that. -/
theorem length_le_of_mem_ofEnclosed {inside o : Text} (h : o ∈ (View.ofEnclosed inside).operands) :
    o.length ≤ inside.length := by
  rw [View.ofEnclosed] at h
  split at h
  · rename_i first second more hparts
    rw [View.operands, ← hparts] at h
    exact length_le_of_mem_topPartsBy h
  · rw [View.operands, List.mem_singleton] at h
    rw [h]

/-- The element of an array is shorter than the text. -/
theorem length_of_arrayElement? {t element : Text} (h : arrayElement? t = some element) :
    element.length < t.length := by
  rw [arrayElement?] at h
  split at h
  · contradiction
  · rw [Text.dropEnd?_eq_some_iff.mp h, List.length_append]
    simp

/-- The types of keys and values are shorter than the text. -/
theorem length_of_recordParts? {t key value : Text} (h : recordParts? t = some (key, value)) :
    key.length < t.length ∧ value.length < t.length := by
  simp only [recordParts?, Option.bind_eq_bind, Option.bind_eq_some_iff] at h
  obtain ⟨front, hfront, inner, hinner, hparts⟩ := h
  have hlen : inner.length < t.length := by
    rw [Text.dropStart?_eq_some_iff.mp hfront, List.length_append, Text.dropEnd?_eq_some_iff.mp hinner,
      List.length_append]
    simp
    omega
  split at hparts
  · rename_i key' value' hboth
    simp only [Option.some.injEq, Prod.mk.injEq] at hparts
    obtain ⟨rfl, rfl⟩ := hparts
    have hkey : key' ∈ topParts ',' inner := by simp [hboth]
    have hvalue : value' ∈ topParts ',' inner := by simp [hboth]
    exact ⟨(length_le_of_mem_topPartsBy hkey).trans_lt hlen, (length_le_of_mem_topPartsBy hvalue).trans_lt hlen⟩
  · contradiction

/-- The operands of a form are shorter than the text it was found in. -/
theorem length_lt_of_mem_operands_ofBare (t : Text) : ∀ o ∈ (View.ofBare t).operands, o.length < t.length := by
  intro o ho
  -- One step for each form, in the order in which the forms are tried.
  unfold View.ofBare at ho
  split at ho
  · simp [View.operands] at ho
  split at ho
  · rename_i base hbase
    rw [View.operands, List.mem_singleton] at ho
    exact ho ▸ length_of_nullableBase? hbase
  split at ho
  · simp [View.operands] at ho
  split at ho
  · rename_i base hbase
    rw [View.operands, List.mem_singleton] at ho
    exact ho ▸ length_of_optionalBase? hbase
  split at ho
  · rename_i parts hparts
    exact length_lt_of_mem_unionParts? hparts o ho
  split at ho
  · rename_i inside hinside
    exact (length_le_of_mem_ofEnclosed ho).trans_lt (length_of_enclosed? hinside)
  split at ho
  · rename_i element helement
    rw [View.operands, List.mem_singleton] at ho
    exact ho ▸ length_of_arrayElement? helement
  split at ho
  · rename_i key value hrecord
    obtain ⟨hkey, hvalue⟩ := length_of_recordParts? hrecord
    simp only [View.operands, List.mem_cons, List.not_mem_nil, or_false] at ho
    rcases ho with rfl | rfl
    · exact hkey
    · exact hvalue
  split at ho
  · rename_i hfun
    cases hsignature : WrittenSignature.ofText? t with
    | none => simp [hsignature, View.operands] at ho
    | some signature =>
      rw [hsignature] at ho
      exact length_lt_of_mem_signature hfun hsignature o ho
  · simp [View.operands] at ho

/-- The operands of a type's form are shorter than its text. -/
theorem length_lt_of_mem_operands (t : Text) : ∀ o ∈ (View.ofText t).operands, o.length < t.length :=
  fun o ho => (length_lt_of_mem_operands_ofBare _ o ho).trans_le (length_withoutComment_le t)

/-! ## The declared type -/

section Render

variable (f : Text → Text)

/-- A nullable type is its base or null. -/
theorem render_nullable (base : Text) : (View.nullable base).render f = f base ++ " | null".toList := rfl

/-- An optional type is its base or undefined. -/
theorem render_optional (base : Text) : (View.optional base).render f = f base ++ " | undefined".toList := rfl

/-- Alternatives are rendered one by one, repeated ones once. -/
theorem render_union (parts : List Text) :
    (View.union parts).render f = Text.join " | ".toList (parts.map f).eraseDups := rfl

/-- Several types between parentheses are several returns. -/
theorem render_tuple (parts : List Text) : (View.tuple parts).render f = severalReturns (parts.map f) := rfl

/-- A type between parentheses is rendered as itself. -/
theorem render_group (inner : Text) : (View.group inner).render f = f inner := rfl

/-- A list of elements is rendered from the element's type. -/
theorem render_array (element : Text) : (View.array element).render f = View.renderArray (f element) := rfl

/-- A table is a record of its keys and values. -/
theorem render_record (key value : Text) :
    (View.record key value).render f = "Record<".toList ++ f key ++ ", ".toList ++ f value ++ ">".toList := rfl

end Render

/-- A signature's callable depends only on the declared types of what stands in it. -/
theorem toCallable_congr {f g : Text → Text} {signature : WrittenSignature}
    (h : ∀ o ∈ (View.callable (some signature)).operands, f o = g o) :
    signature.toCallable f = signature.toCallable g := by
  simp only [operands_callable, List.mem_append, List.mem_map] at h
  have hparam : ∀ p ∈ signature.params, f p.type = g p.type := fun p hp => h p.type (.inl ⟨p, hp, rfl⟩)
  have hreceiver : (signature.receiver?.map fun p => f p.type) = signature.receiver?.map fun p => g p.type := by
    cases hr : signature.receiver? with
    | none => rfl
    | some p => exact congrArg some (hparam p (List.mem_of_find?_eq_some hr))
  have harguments : (signature.arguments.map (·.toParam f)) = signature.arguments.map (·.toParam g) := by
    refine List.map_congr_left fun p hp => ?_
    rw [WrittenParam.toParam, WrittenParam.toParam, hparam p (List.mem_of_mem_eraseP hp)]
  have hreturns : signature.returns.toText f = signature.returns.toText g := by
    cases hret : signature.returns with
    | absent => rfl
    | single type => exact h type (.inr (by simp [hret, WrittenReturn.types]))
    | several types =>
      rw [WrittenReturn.toText, WrittenReturn.toText]
      congr 1
      exact List.map_congr_left fun type ht => h type (.inr (by simpa [hret, WrittenReturn.types] using ht))
  rw [WrittenSignature.toCallable, WrittenSignature.toCallable, hreceiver, harguments, hreturns]

/-- What a form renders depends only on the declared types of its operands. -/
theorem render_congr {f g : Text → Text} {v : View} (h : ∀ o ∈ v.operands, f o = g o) :
    v.render f = v.render g := by
  cases v with
  | void | basic | name => rfl
  | nullable base =>
    have hbase := h base List.mem_cons_self
    rw [render_nullable, render_nullable, hbase]
  | optional base =>
    have hbase := h base List.mem_cons_self
    rw [render_optional, render_optional, hbase]
  | union parts =>
    have hparts : parts.map f = parts.map g := List.map_congr_left h
    rw [render_union, render_union, hparts]
  | tuple parts =>
    have hparts : parts.map f = parts.map g := List.map_congr_left h
    rw [render_tuple, render_tuple, hparts]
  | group inner => exact h inner List.mem_cons_self
  | array element =>
    have helement := h element List.mem_cons_self
    rw [render_array, render_array, helement]
  | record key value =>
    have hkey := h key List.mem_cons_self
    have hvalue := h value (List.mem_cons_of_mem key List.mem_cons_self)
    rw [render_record, render_record, hkey, hvalue]
  | callable signature =>
    cases signature with
    | none => rfl
    | some signature => exact congrArg Callable.typeText (toCallable_congr h)

/-- More depth than a text is long makes no difference to its declared type. -/
theorem declaredWithin_eq {n m : Nat} {t : Text} (hn : t.length < n) (hm : t.length < m) :
    declaredWithin n t = declaredWithin m t := by
  induction n generalizing m t with
  | zero => omega
  | succ n ih =>
    cases m with
    | zero => omega
    | succ m =>
      -- The operands are shorter than the text, so one level less is enough for them on both sides.
      refine render_congr fun o ho => ?_
      have hlt := length_lt_of_mem_operands t o ho
      exact ih (by omega) (by omega)

/-- The declared type of a text is what its form renders from the declared types of the operands. -/
theorem declaredType_eq (t : Text) : declaredType t = (View.ofText t).render declaredType := by
  rw [declaredType, declaredWithin]
  refine render_congr fun o ho => ?_
  have hlt := length_lt_of_mem_operands t o ho
  exact declaredWithin_eq (by omega) (by omega)

/-- Texts that are the same without a comment declare the same type. -/
theorem declaredType_congr {s t : Text} (h : withoutComment s = withoutComment t) : declaredType s = declaredType t := by
  rw [declaredType_eq, declaredType_eq, View.ofText, View.ofText, h]

/-- The callable of a function type is read from its first group and what stands behind it. -/
theorem Callable.ofText_of_firstGroup? {t inside rest : Text} (h : firstGroup? t = some (inside, rest)) :
    Callable.ofText t =
      WrittenSignature.toCallable declaredType ⟨(topParts ',' inside).map .ofText, .ofText rest⟩ := by
  rw [Callable.ofText, WrittenSignature.ofText?, h]
  rfl

/-- Nothing is known of a function type without a group. -/
theorem Callable.ofText_of_no_group {t : Text} (h : firstGroup? t = none) : Callable.ofText t = .unknown := by
  rw [Callable.ofText, WrittenSignature.ofText?, h]
  rfl

/-- The returns of a signature do not matter for what is declared in front of them. -/
theorem typeText_toCallable (params : List WrittenParam) (returns : WrittenReturn) :
    (WrittenSignature.toCallable declaredType ⟨params, returns⟩).typeText =
      "(".toList ++ (WrittenSignature.toCallable declaredType ⟨params, .absent⟩).paramList ++ ") => ".toList ++
        returns.toText declaredType := rfl

/-- A callable type is some text. -/
theorem Callable.typeText_ne_nil (c : Callable) : c.typeText ≠ [] := by
  cases c with
  | unknown => decide
  | typed receiver params returns => exact List.cons_ne_nil _ _

/-- A form is rendered as some text when its operands are. -/
theorem render_ofBare_ne_nil {f : Text → Text} (t : Text) :
    (∀ o ∈ (View.ofBare t).operands, f o ≠ []) → (View.ofBare t).render f ≠ [] := by
  -- Most forms are rendered with marks of their own, in front of an operand or behind it.
  have hbehind : ∀ {mark : Text} (s : Text), mark ≠ [] → s ++ mark ≠ [] := fun s hne =>
    List.append_ne_nil_of_right_ne_nil s hne
  unfold View.ofBare
  split
  · exact fun _ => List.cons_ne_nil _ _
  rename_i hvoid
  split
  · exact fun _ => hbehind _ (by decide)
  split
  · rename_i type hbasic
    intro _
    have hnames : ∀ entry ∈ basicTypes, entry.2 ≠ [] := by decide
    obtain ⟨l, l', hlist, -⟩ := List.lookup_eq_some_iff.mp hbasic
    exact hnames (t, type) (hlist ▸ List.mem_append_right l List.mem_cons_self)
  split
  · exact fun _ => hbehind _ (by decide)
  split
  · -- An alternative is a part of the union.
    rename_i parts hunion
    intro h hnil
    obtain ⟨first, hfirst⟩ : ∃ first, first ∈ parts := by
      unfold unionParts? at hunion
      split at hunion
      · exact ⟨_, Option.some.inj hunion ▸ List.mem_cons_self⟩
      · cases hunion
    have hin : f first <:+: Text.join " | ".toList (parts.map f).eraseDups :=
      Text.isInfix_join (List.mem_eraseDups.mpr (List.mem_map_of_mem hfirst))
    rw [render_union] at hnil
    rw [hnil] at hin
    exact h first hfirst (List.infix_nil.mp hin)
  split
  · rename_i inside _
    unfold View.ofEnclosed
    split
    · exact fun _ => List.cons_ne_nil _ _
    · exact fun h => h inside List.mem_cons_self
  split
  · intro _
    rw [render_array, View.renderArray]
    split
    · exact List.cons_ne_nil _ _
    · exact hbehind _ (by decide)
  split
  · exact fun _ => hbehind _ (by decide)
  split
  · exact fun _ => Callable.typeText_ne_nil _
  · rintro - rfl
    exact hvoid rfl

/-- Every text declares some type. -/
theorem declaredType_ne_nil (t : Text) : declaredType t ≠ [] := by
  induction hlen : t.length using Nat.strong_induction_on generalizing t with
  | _ n ih =>
    rw [declaredType_eq]
    exact render_ofBare_ne_nil _ fun o ho => ih o.length (hlen ▸ length_lt_of_mem_operands t o ho) o rfl

end LuaTypings.TypeText
