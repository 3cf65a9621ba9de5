import LuaTypings.Proofs.TypeText.MatchingClosers
import LuaTypings.Proofs.TypeText.SignatureText
import LuaTypings.Proofs.TypeText.TrailingNil

/-!
# Variadic parameters

A variadic parameter takes an array of what is written behind its colon, and the brackets of the array are written behind
that text before it is read. They belong to the whole of the text unless a bar outside all brackets has an alternative in
front of it (`declaredType_append_brackets_of_no_alternative`): then they belong to the last alternative alone
(`EndsInAlternative.declaredType_append_brackets`), and the type is never the array of the element's type
(`EndsInAlternative.ne`). `Callable.ofText_variadic` says both of the one parameter of a function type.
-/

namespace LuaTypings

namespace TypeText

/-- The function type with one variadic parameter, whose name may be left out. -/
def variadicText (name element : Text) : Text := "fun(" ++ ("..." ++ name ++ ": " ++ element) ++ ")"

/-- A type that a bar outside all brackets cuts into alternatives and what stands behind the last bar. -/
structure EndsInAlternative (t front last : Text) : Prop where
  /-- The bar stands between the two. -/
  append_eq : front ++ '|' :: last = t
  /-- No bracket is open at the bar. -/
  closed : openAfter 0 front = 0
  /-- It is the last bar outside all brackets. -/
  unbroken : isUnbroken (· == '|') 0 last = true
  /-- An alternative stands in front of it. -/
  alternative : topParts '|' front ≠ []

variable {t front last name : Text}

/-! ## Arrays -/

/-- The type of an array is its element's with brackets, in parentheses if the element needs them. -/
theorem renderArray_cases (element : Text) :
    View.renderArray element = "(" ++ element ++ ")[]" ∨
      View.renderArray element = element ++ "[]" ∧ ¬ " | ".toList <:+: element := by
  unfold View.renderArray
  split
  · exact .inl rfl
  · rename_i hplain
    rw [Bool.or_eq_true, not_or, Text.hasText_iff] at hplain
    exact .inr ⟨rfl, hplain.1⟩

/-- The element of an array is put in parentheses when it has alternatives. -/
theorem renderArray_of_alternatives {element : Text} (h : " | ".toList <:+: element) :
    View.renderArray element = "(" ++ element ++ ")[]" := by
  obtain hparens | ⟨-, hno⟩ := renderArray_cases element
  · exact hparens
  · exact absurd h hno

/-- The type of an array is longer than its element's, but not by much. -/
theorem length_renderArray (element : Text) :
    element.length + 2 ≤ (View.renderArray element).length ∧ (View.renderArray element).length ≤ element.length + 4 := by
  obtain h | ⟨h, -⟩ := renderArray_cases element
  · rw [h]
    simp
  · rw [h]
    simp

/-! ## Brackets behind a type -/

/-- The array that brackets make of what stands behind the last bar; brackets behind nothing name themselves. -/
def lastElement (last : Text) : Text :=
  if Text.strip last = [] then "[]" else View.renderArray (declaredType (Text.strip last))

/-- Brackets behind a text without a comment start none. -/
theorem isBare_append_brackets (ht : IsBare t) : IsBare (t ++ "[]".toList) := by
  have hapart : ∀ mark : Text, '[' ∉ mark → ¬ mark <:+: "]".toList → ¬ mark <:+: t → ¬ mark <:+: t ++ "[]".toList := by
    intro mark hbracket hclose hmark hin
    obtain hin | hin := Text.isInfix_or_of_not_mem (s := t) (t := "]".toList) hin hbracket
    · exact hmark hin
    · exact hclose hin
  refine ⟨?_, hapart _ (by decide) (by decide) ht.no_dashes, hapart _ (by decide) (by decide) ht.no_numberSign⟩
  rw [Text.strip_append_of_getLast? (Text.strip_eq_self_iff.mp ht.trimmed).2 (by decide) (by decide), ht.trimmed]

/-- Brackets end a text. -/
theorem getLast?_append_brackets (t : Text) : (t ++ "[]".toList).getLast? = some ']' := by
  rw [List.getLast?_append]
  rfl

/-- Brackets behind a text with one alternative at most make it an array. -/
theorem declaredType_append_brackets (ht : IsBare t) (hne : t ≠ []) (hone : (topParts '|' (t ++ "[]".toList)).length ≤ 1) :
    declaredType (t ++ "[]") = View.renderArray (declaredType t) := by
  have hbracket : '[' ∈ t ++ "[]".toList := List.mem_append_right t List.mem_cons_self
  have hlast := getLast?_append_brackets t
  have hvoid := not_void_of_not_isWordChar hbracket (by decide)
  have hnull := nullableBase?_of_getLast? hlast (by decide)
  have hbasic := lookup_basicTypes_of_not_isWordChar hbracket (by decide)
  have hopt := optionalBase?_of_getLast? hlast (by decide)
  have hunion : unionParts? (t ++ "[]".toList) = none := by
    rw [unionParts?]
    rcases hparts : topParts '|' (t ++ "[]".toList) with _ | ⟨first, _ | ⟨second, more⟩⟩
    · rfl
    · rfl
    · rw [hparts] at hone
      simp at hone
  have henclosed : enclosed? (t ++ "[]".toList) = none :=
    enclosed?_of_getLast? fun heq => absurd (Option.some.inj (hlast.symm.trans heq)) (by decide)
  have harray : arrayElement? (t ++ "[]".toList) = some t := by
    rw [arrayElement?, Text.dropEnd?_append]
    cases t with
    | nil => exact absurd rfl hne
    | cons c t => rfl
  -- Every form that is tried before an array is ruled out.
  have hform : View.ofBare (t ++ "[]".toList) = .array t := by
    simp only [View.ofBare, hvoid, hnull, hbasic, hopt, hunion, henclosed, harray, Bool.false_eq_true, if_false]
  rw [declaredType_of_isBare (isBare_append_brackets ht), hform, render_array]

/-- Brackets behind a text that no bar breaks belong to its one alternative. -/
theorem topParts_append_brackets (hu : isUnbroken (· == '|') 0 t = true)
    (hlast : ∀ c ∈ t.getLast?, Text.isBlank c = false) :
    topParts '|' (t ++ "[]".toList) = [Text.strip t ++ "[]".toList] := by
  have hstrip : Text.strip (t ++ "[]".toList) = Text.strip t ++ "[]".toList :=
    Text.strip_append_of_getLast? hlast (by decide) (by decide)
  have hwhole : isUnbroken (· == '|') 0 (t ++ "[]".toList) = true := by
    have hbrackets : ∀ c ∈ "[]".toList, (c == '|') = false :=
      List.forall_mem_cons.mpr ⟨rfl, List.forall_mem_singleton.mpr rfl⟩
    rw [isUnbroken_append_openAfter, hu, isUnbroken_of_forall hbrackets]
    rfl
  rw [topParts, ← topPartsBy_strip, topPartsBy_of_isUnbroken (isUnbroken_strip hwhole) ?_ (Text.strip_strip _), hstrip]
  rw [hstrip]
  exact List.append_ne_nil_of_right_ne_nil _ (by decide)

namespace EndsInAlternative

/-- What stands behind the last bar of a trimmed text does not end in a blank. -/
theorem isBlank_getLast (h : EndsInAlternative t front last) (ht : Text.strip t = t) :
    ∀ c ∈ last.getLast?, Text.isBlank c = false := by
  rw [← h.append_eq] at ht
  exact fun c hc => (Text.strip_eq_self_iff.mp ht).2 c (Text.mem_getLast?_append_cons hc)

/-- The alternatives are those in front of the last bar and what stands behind it, unless that is blank. -/
theorem topParts_eq (h : EndsInAlternative t front last) :
    topParts '|' t = topParts '|' front ++ if Text.strip last = [] then [] else [Text.strip last] := by
  have hlast : topParts '|' last = if Text.strip last = [] then [] else [Text.strip last] := by
    rw [topParts, ← topPartsBy_strip]
    split
    · rename_i hnil
      rw [hnil]
      rfl
    · rename_i hne
      exact topPartsBy_of_isUnbroken (isUnbroken_strip h.unbroken) hne (Text.strip_strip last)
  rw [← h.append_eq, topParts, topPartsBy_append_cons h.closed (by decide), ← topParts, ← topParts, hlast]

/-- Brackets behind the text belong to the last alternative alone. -/
theorem topParts_append_brackets (h : EndsInAlternative t front last) (ht : Text.strip t = t) :
    topParts '|' (t ++ "[]".toList) = topParts '|' front ++ [Text.strip last ++ "[]".toList] := by
  have hlast := TypeText.topParts_append_brackets h.unbroken (h.isBlank_getLast ht)
  rw [← h.append_eq, List.append_assoc, List.cons_append, topParts, topPartsBy_append_cons h.closed (by decide), ← topParts,
    ← topParts, hlast]

/-- Brackets behind what stands behind the last bar make an array of it. -/
theorem declaredType_last (h : EndsInAlternative t front last) (ht : IsBare t) :
    declaredType (Text.strip last ++ "[]".toList) = lastElement last := by
  rw [lastElement]
  split
  · rename_i hnil
    rw [hnil]
    decide
  · rename_i hne
    have hin : last <:+: t := ⟨front ++ ['|'], [], by rw [← h.append_eq]; simp⟩
    have hbare : IsBare (Text.strip last) := ht.of_isInfix ((Text.isInfix_strip last).trans hin) (Text.strip_strip last)
    refine declaredType_append_brackets hbare hne ?_
    rw [TypeText.topParts_append_brackets (isUnbroken_strip h.unbroken) (Text.strip_eq_self_iff.mp hbare.trimmed).2]
    exact le_rfl

/-- Brackets behind a text with an alternative in front of its last bar leave it a union. -/
theorem declaredType_append_brackets (h : EndsInAlternative t front last) (ht : IsBare t) :
    declaredType (t ++ "[]") = Text.joinDistinct " | " ((topParts '|' front).map declaredType ++ [lastElement last]) := by
  have hparts := h.topParts_append_brackets ht.trimmed
  have hseveral : 2 ≤ (topParts '|' (t ++ "[]".toList)).length := by
    have hpos := List.length_pos_of_ne_nil h.alternative
    rw [hparts, List.length_append, List.length_singleton]
    omega
  rw [declaredType_of_several (isBare_append_brackets ht)
    (nullableBase?_of_getLast? (getLast?_append_brackets t) (by decide)) hseveral, hparts, List.map_append,
    List.map_singleton, h.declaredType_last ht]

end EndsInAlternative

/-- Brackets behind a text that has no alternative in front of a last bar make it an array. -/
theorem declaredType_append_brackets_of_no_alternative (ht : IsBare t) (hne : t ≠ [])
    (h : ∀ front last, ¬ EndsInAlternative t front last) :
    declaredType (t ++ "[]") = View.renderArray (declaredType t) := by
  refine declaredType_append_brackets ht hne ?_
  have hend := (Text.strip_eq_self_iff.mp ht.trimmed).2
  obtain hu | ⟨s, c, r, rfl, hopen, hc, hr⟩ := isUnbroken_or_exists_last (p := (· == '|')) t
  · rw [topParts_append_brackets hu hend]
    exact le_rfl
  · obtain rfl : c = '|' := eq_of_isTopSeparator hc
    have hbars : topParts '|' s = [] := by
      by_contra hparts
      exact h s r ⟨rfl, hopen, hr, hparts⟩
    have hlast : ∀ d ∈ r.getLast?, Text.isBlank d = false := fun d hd => hend d (Text.mem_getLast?_append_cons hd)
    rw [List.append_assoc, List.cons_append, topParts, topPartsBy_append_cons hopen hc, ← topParts, ← topParts, hbars,
      topParts_append_brackets hr hlast]
    exact le_rfl

/-! ## The array of a union -/

/-- An array ends in brackets. -/
theorem isSuffix_brackets_renderArray (element : Text) : "[]".toList <:+ View.renderArray element := by
  obtain h | ⟨h, -⟩ := renderArray_cases element
  · rw [h]
    exact List.IsSuffix.trans (by decide) (List.suffix_append _ ")[]".toList)
  · rw [h]
    exact List.suffix_append _ _

/-- An array whose element has alternatives ends in a parenthesis and brackets. -/
theorem isSuffix_renderArray {element : Text} (h : " | ".toList <:+: element) :
    ")[]".toList <:+ View.renderArray element := by
  rw [renderArray_of_alternatives h]
  exact List.suffix_append _ _

/-- Alternatives of which only the last is an array are not the array of all of them. -/
theorem joinDistinct_renderArray_ne {types : List Text} (hne : types ≠ []) (element : Text) :
    Text.joinDistinct " | " (types ++ [View.renderArray element]) ≠
      View.renderArray (Text.joinDistinct " | " (types ++ [element])) := by
  intro heq
  have hlength := congrArg List.length heq
  have hlast := length_renderArray element
  have hall := length_renderArray (Text.joinDistinct " | " (types ++ [element]))
  have hmark : " | ".toList.length = 3 := rfl
  by_cases hrepeated : View.renderArray element ∈ types
  · -- Left out as a repetition, the array takes no room, but the array of the whole needs its brackets.
    have hlonger := Text.length_joinDistinct_le_concat " | " types element
    rw [Text.joinDistinct_concat_of_mem hrepeated] at hlength
    omega
  rw [Text.joinDistinct_concat_of_not_mem hne hrepeated] at heq hlength
  by_cases helement : element ∈ types
  · rw [Text.joinDistinct_concat_of_mem helement] at hlength hall
    simp only [List.length_append] at hlength
    omega
  · have hin : " | ".toList <:+: Text.joinDistinct " | " types ++ " | ".toList ++ element :=
      (List.suffix_append _ _).isInfix.trans (List.prefix_append _ element).isInfix
    rw [Text.joinDistinct_concat_of_not_mem hne helement, renderArray_of_alternatives hin] at heq
    obtain hparens | ⟨hplain, -⟩ := renderArray_cases element
    · -- The one parenthesis stands behind the first alternatives, the other in front of them.
      have hwhole : (Text.joinDistinct " | " types ++ " | ".toList ++ "(".toList) ++ (element ++ ")[]".toList) =
          ("(".toList ++ Text.joinDistinct " | " types ++ " | ".toList) ++ (element ++ ")[]".toList) := by
        rw [hparens] at heq
        simpa only [List.append_assoc] using heq
      have hfront := List.append_cancel_right hwhole
      have hparenthesis : "(".toList <:+ "(".toList ++ Text.joinDistinct " | " types ++ " | ".toList :=
        hfront ▸ List.suffix_append _ _
      have hspace : " ".toList <:+ "(".toList ++ Text.joinDistinct " | " types ++ " | ".toList :=
        List.IsSuffix.trans (by decide) (List.suffix_append _ " | ".toList)
      exact absurd (Text.eq_of_isSuffix hparenthesis hspace (by decide)) (by decide)
    · rw [hplain] at heq
      have hparens := congrArg List.length heq
      simp only [List.length_append] at hparens
      exact absurd hparens (by simp; omega)

/-- Alternatives with brackets behind them that name themselves are not the array of any type with these alternatives. -/
theorem joinDistinct_brackets_ne (ht : IsBare t) (hopen : openAfter 0 t = 0) (hparts : topParts '|' t ≠ []) :
    Text.joinDistinct " | " ((topParts '|' t).map declaredType ++ ["[]".toList]) ≠
      View.renderArray (declaredType t) := by
  have hlength := length_renderArray (declaredType t)
  have hpos := List.length_pos_of_ne_nil (declaredType_ne_nil t)
  by_cases hrepeated : "[]".toList ∈ (topParts '|' t).map declaredType
  · rw [Text.joinDistinct_concat_of_mem hrepeated]
    intro heq
    rw [← heq] at hlength
    obtain hone | hlast | hle := joinDistinct_topParts_cases ht hopen hrepeated
    · have htwo : "[]".toList.length = 2 := rfl
      rw [hone] at hlength
      omega
    · -- No array ends in the absent value.
      rw [heq] at hlast
      have hvoid : "id".toList <:+ View.renderArray (declaredType t) := List.IsSuffix.trans (by decide) hlast
      exact absurd (Text.eq_of_isSuffix hvoid (isSuffix_brackets_renderArray _) (by decide)) (by decide)
    · omega
  · rw [Text.joinDistinct_concat_of_not_mem (by simpa using hparts) hrepeated]
    intro heq
    obtain hparens | ⟨hplain, hno⟩ := renderArray_cases (declaredType t)
    · rw [hparens, List.append_assoc] at heq
      have hspace : " []".toList <:+ "(".toList ++ declaredType t ++ ")[]".toList := by
        rw [← heq]
        exact List.IsSuffix.trans (by decide) (List.suffix_append _ " | []".toList)
      exact absurd (Text.eq_of_isSuffix hspace (List.suffix_append _ ")[]".toList) (by decide)) (by decide)
    · -- Nothing but the brackets would be left of the last alternative.
      rw [hplain] at heq
      exact hno (List.append_cancel_right heq ▸ List.suffix_append _ _).isInfix

/-- Alternatives of which the last is an array of `nil` are not the array of the others or null. -/
theorem joinDistinct_void_array_ne (ht : IsBare t) (hopen : openAfter 0 t = 0) (hparts : topParts '|' t ≠ []) :
    Text.joinDistinct " | " ((topParts '|' t).map declaredType ++ ["void[]".toList]) ≠
      View.renderArray (declaredType t ++ " | null".toList) := by
  have hin : " | ".toList <:+: declaredType t ++ " | null".toList :=
    List.IsInfix.trans (by decide) (List.suffix_append _ " | null".toList).isInfix
  -- What ends in other characters than a parenthesis and brackets is not the array.
  have hends : ∀ mark s : Text, mark.length = 3 → mark ≠ ")[]".toList → mark <:+ s →
      s ≠ View.renderArray (declaredType t ++ " | null".toList) := by
    intro mark s hlength hother hmark heq
    rw [heq] at hmark
    exact hother (Text.eq_of_isSuffix hmark (isSuffix_renderArray hin) hlength)
  by_cases hrepeated : "void[]".toList ∈ (topParts '|' t).map declaredType
  · rw [Text.joinDistinct_concat_of_mem hrepeated]
    obtain hone | hlast | hle := joinDistinct_topParts_cases ht hopen hrepeated
    · exact hends "d[]" _ rfl (by decide) (hone ▸ by decide)
    · exact hends "oid" _ rfl (by decide) (List.IsSuffix.trans (by decide) hlast)
    · intro heq
      have hlonger := (length_renderArray (declaredType t ++ " | null".toList)).1
      rw [← heq, List.length_append] at hlonger
      omega
  · rw [Text.joinDistinct_concat_of_not_mem (by simpa using hparts) hrepeated]
    exact hends "d[]" _ rfl (by decide) (List.IsSuffix.trans (by decide) (List.suffix_append _ "void[]".toList))

/-- A union of which only the last alternative is an array is not the array of the whole union. -/
theorem EndsInAlternative.ne (h : EndsInAlternative t front last) (ht : IsBare t) (hopen : openAfter 0 t = 0) :
    Text.joinDistinct " | " ((topParts '|' front).map declaredType ++ [lastElement last]) ≠
      View.renderArray (declaredType t) := by
  have hparts := h.topParts_eq
  have hsome : (topParts '|' front).map declaredType ≠ [] := by simpa using h.alternative
  unfold lastElement
  split
  · rename_i hnil
    rw [if_pos hnil, List.append_nil] at hparts
    rw [← hparts]
    exact joinDistinct_brackets_ne ht hopen (hparts ▸ h.alternative)
  · rename_i hlast
    rw [if_neg hlast] at hparts
    cases hnull : nullableBase? t with
    | none =>
      have hseveral : 2 ≤ (topParts '|' t).length := by
        have hpos := List.length_pos_of_ne_nil h.alternative
        rw [hparts, List.length_append, List.length_singleton]
        omega
      rw [declaredType_of_several ht hnull hseveral, hparts, List.map_append, List.map_singleton]
      exact joinDistinct_renderArray_ne hsome _
    | some base =>
      -- The last alternative of a nullable text is `nil`, and the others are those of its base.
      obtain ⟨hbare, hclosed, hbase⟩ := topParts_of_nullableBase? ht hopen hnull
      rw [hparts] at hbase
      obtain ⟨hfront, hnil⟩ := List.append_inj' hbase rfl
      have harray : View.renderArray (declaredType "nil".toList) = "void[]".toList := by decide
      rw [List.singleton_inj.mp hnil, harray, hfront, declaredType_of_nullableBase? ht hnull]
      exact joinDistinct_void_array_ne hbare hclosed (hfront ▸ h.alternative)

/-! ## The variadic parameter -/

/-- Three dots with a name behind them, or with none, can stand in a list. -/
theorem isListable_dots (hname : name = [] ∨ Text.isWord name = true) : isListable ("..." ++ name) = true := by
  have hchars : ∀ c ∈ "...".toList ++ name, Text.isWordChar c = true ∨ c = '.' := by
    intro c hc
    obtain hdot | hmem := List.mem_append.mp hc
    · exact .inr (List.eq_of_mem_replicate (n := 3) hdot)
    · obtain rfl | hword := hname
      · exact absurd hmem List.not_mem_nil
      · exact .inl ((Text.isWord_iff.mp hword).2 c hmem)
  refine isListable_iff.mpr ⟨List.cons_ne_nil _ _, Text.strip_of_not_blank fun c hc => ?_,
    isBalanced_of_plain fun c hc => ?_, isUnbroken_of_forall (fun c hc => ?_) 0⟩
  · obtain hword | rfl := hchars c hc
    · exact Text.isBlank_of_isWordChar hword
    · decide
  · obtain hword | rfl := hchars c hc
    · exact not_bracket_of_isWordChar hword
    · decide
  · obtain hword | rfl := hchars c hc
    · exact beq_false_of_ne (Text.ne_of_isWordChar hword (by decide))
    · decide

/-- A variadic parameter takes an array of what is written behind its colon. -/
theorem WrittenParam.ofText_dots (hname : name = [] ∨ Text.isWord name = true) {element : Text}
    (htrim : Text.strip element = element) :
    ofText ("..." ++ name ++ ": " ++ element) =
      ⟨if name = [] then "args" else name, element ++ "[]", false, true⟩ := by
  have hcolon : ':' ∉ name := by
    obtain rfl | hword := hname
    · exact List.not_mem_nil
    · exact Text.not_mem_of_isWord hword (by decide)
  have hstrip : Text.strip name = name := by
    obtain rfl | hword := hname
    · rfl
    · exact Text.strip_of_isWord hword
  have hspace : Text.strip (' ' :: element) = element :=
    (Text.strip_blanks_append Text.isBlank_of_mem_space element).trans htrim
  have hdots : Text.dropStart? "..." ("..." ++ name ++ ": " ++ element) = some (name ++ ": " ++ element) := by
    rw [Text.dropStart?_eq_some_iff, List.append_assoc, List.append_assoc, List.append_assoc]
  have hcut : Text.cutAtChar ':' (name ++ ": " ++ element) = (name, some (' ' :: element)) := by
    rw [List.append_assoc]
    exact Text.cutAtChar_append_cons hcolon (' ' :: element)
  simp only [ofText, hdots, hcut, hstrip, hspace, List.isEmpty_iff]

/-- A function type with one variadic parameter is read back. -/
theorem WrittenSignature.ofText?_variadicText (hname : name = [] ∨ Text.isWord name = true) {element : Text}
    (hlist : isListable element = true) :
    ofText? (variadicText name element) =
      some ⟨[⟨if name = [] then "args" else name, element ++ "[]", false, true⟩], .absent⟩ := by
  obtain ⟨hne, htrim, hbalanced, hunbroken⟩ := isListable_iff.mp (isListable_colon (isListable_dots hname) hlist)
  have hparts : topParts ',' ("..." ++ name ++ ": " ++ element) = ["..." ++ name ++ ": " ++ element] :=
    topPartsBy_of_isUnbroken hunbroken hne htrim
  have hreturns : WrittenReturn.ofText [] = .absent := WrittenReturn.ofText_of_no_colon rfl
  have hgroup := ofText?_group hbalanced []
  rw [List.append_nil, hparts, List.map_singleton, WrittenParam.ofText_dots hname (isListable_iff.mp hlist).2.1,
    hreturns] at hgroup
  exact hgroup

/-- **A variadic parameter.** A function type with one variadic parameter, with a name or without one, has just that
parameter; by the receiver's name it is the receiver. Its type is the array of the element's type exactly when no bar
outside all brackets has an alternative of the element in front of it. Otherwise it is a union in which only what stands
behind the last such bar is an array. -/
theorem Callable.ofText_variadic (name element : Text) (hname : name = [] ∨ Text.isWord name = true)
    (hlist : isListable element = true) (hbare : IsBare element) :
    Callable.ofText (variadicText name element) =
        (if name = receiverName then .typed (some (declaredType (element ++ "[]"))) [] voidType
          else .typed none
            [⟨safeParamName (if name = [] then "args" else name), declaredType (element ++ "[]"), false, true⟩] voidType) ∧
      (declaredType (element ++ "[]") = View.renderArray (declaredType element) ↔
        ∀ front last, ¬ EndsInAlternative element front last) ∧
      ∀ front last, EndsInAlternative element front last →
        declaredType (element ++ "[]") =
          Text.joinDistinct " | " ((topParts '|' front).map declaredType ++ [lastElement last]) := by
  obtain ⟨hne, htrim, hbalanced, -⟩ := isListable_iff.mp hlist
  refine ⟨?_, ⟨fun harray front last h => ?_, declaredType_append_brackets_of_no_alternative hbare hne⟩,
    fun front last h => h.declaredType_append_brackets hbare⟩
  · rw [Callable.ofText, WrittenSignature.ofText?_variadicText hname hlist, Callable.ofWritten,
      WrittenSignature.toCallable, WrittenSignature.receiver?, WrittenSignature.arguments]
    by_cases hreceiver : name = receiverName
    · subst hreceiver
      rfl
    · -- The name of a parameter that has none of its own is not the receiver's either.
      have hother : (if name = [] then "args".toList else name) ≠ receiverName := by
        split
        · decide
        · exact hreceiver
      rw [if_neg hreceiver, List.find?_singleton, List.eraseP_cons]
      simp only [hother, decide_false, cond_false, Bool.false_eq_true, if_false]
      rfl
  · rw [h.declaredType_append_brackets hbare] at harray
    exact h.ne hbare (openAfter_of_isBalanced hbalanced) harray

/-- A union without parentheses takes the brackets at its end, one with parentheses as a whole. -/
theorem Callable.ofText_variadic_of_union :
    Callable.ofText "fun(...: string|number)" =
        .typed none [⟨"args", "string | number[]", false, true⟩] voidType ∧
      declaredType "string|number[]" ≠ View.renderArray (declaredType "string|number") ∧
      Callable.ofText "fun(...rest: (string|number))" =
        .typed none [⟨"rest", "(string | number)[]", false, true⟩] voidType := by
  have hunion : EndsInAlternative "string|number" "string" "number" := ⟨rfl, by decide, by decide, by decide⟩
  have hbare : IsBare "string|number".toList := ⟨by decide, by decide, by decide⟩
  have henclosed : IsBare "(string|number)".toList := ⟨by decide, by decide, by decide⟩
  obtain ⟨hread, harray, hdeclared⟩ := Callable.ofText_variadic [] "string|number" (.inl rfl) (by decide) hbare
  obtain ⟨hread', -⟩ := Callable.ofText_variadic "rest" "(string|number)" (.inr (by decide)) (by decide) henclosed
  have htype : declaredType "string|number[]" = "string | number[]".toList :=
    (hdeclared _ _ hunion).trans (by decide +kernel)
  have htype' : declaredType "(string|number)[]" = "(string | number)[]".toList := by decide +kernel
  refine ⟨hread.trans ?_, fun heq => harray.mp heq _ _ hunion, hread'.trans ?_⟩
  · exact congrArg (fun type => Callable.typed none [⟨"args", type, false, true⟩] voidType) htype
  · exact congrArg (fun type => Callable.typed none [⟨"rest", type, false, true⟩] voidType) htype'

/-- A variadic parameter does not take an array of every type that is written behind its colon. -/
theorem Callable.ofText_variadic_differently :
    ¬ ∀ element : Text, isListable element = true → IsBare element →
      Callable.ofText (variadicText [] element) =
        .typed none [⟨"args", View.renderArray (declaredType element), false, true⟩] voidType := by
  intro h
  have hunion := h "string|number" (by decide) ⟨by decide, by decide, by decide⟩
  exact absurd hunion (by decide +kernel)

end TypeText

end LuaTypings
