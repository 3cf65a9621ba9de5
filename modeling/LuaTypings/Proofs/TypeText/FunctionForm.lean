import LuaTypings.Proofs.Text.Literal
import LuaTypings.Proofs.TypeText.Form
import LuaTypings.Proofs.TypeText.Prose
import LuaTypings.Proofs.TypeText.SignatureText

/-!
# When a function type is declared as one

The rules for the forms of a type look at the whole text before the one for functions is reached. Behind a parameter
list the end of the text is the end of the return type, so two marks there are taken for marks of the function: a
question mark in a text without bars (`ofText_signatureText_optional`) and a pair of square brackets
(`ofText_signatureText_array`). No other rule fires (`ofText_signatureText`).

The question mark does no harm, because the alternative it adds stands at the end of the declaration in either reading.
The brackets do: the declaration becomes a list of functions. `declaredType_signatureText` says for which return types
the declared type of a function type is the type of its signature.
-/

namespace LuaTypings.TypeText

/-- Whether a text can stand between the parentheses of a function type and be read as written there. -/
structure IsParamList (t : Text) : Prop where
  /-- The brackets in it are closed in it. -/
  balanced : isBalanced t = true
  /-- No comment starts with dashes. -/
  no_dashes : ¬ " --".toList <:+: t
  /-- No comment starts with a number sign. -/
  no_numberSign : ¬ "  #".toList <:+: t

/-- Whether a text is one return type that starts with a name and holds no blanks. -/
structure IsReturnType (t : Text) : Prop where
  /-- A name is at the start. -/
  starts : t.head?.any Text.isWordChar = true
  /-- There are no blanks. -/
  no_blank : ∀ c ∈ t, Text.isBlank c = false
  /-- The brackets in it are closed in it. -/
  balanced : isBalanced t = true
  /-- It has no alternatives. -/
  no_bar : isUnbroken (· == '|') 0 t = true
  /-- There is only one. -/
  no_comma : isUnbroken (· == ',') 0 t = true

instance (t : Text) : Decidable (IsParamList t) :=
  decidable_of_iff (isBalanced t = true ∧ ¬ " --".toList <:+: t ∧ ¬ "  #".toList <:+: t)
    ⟨fun ⟨hbalanced, hdashes, hsign⟩ => ⟨hbalanced, hdashes, hsign⟩,
      fun h => ⟨h.balanced, h.no_dashes, h.no_numberSign⟩⟩

instance (t : Text) : Decidable (IsReturnType t) :=
  decidable_of_iff (t.head?.any Text.isWordChar = true ∧ t.all (!Text.isBlank ·) = true ∧ isBalanced t = true ∧
      isUnbroken (· == '|') 0 t = true ∧ isUnbroken (· == ',') 0 t = true)
    ⟨fun ⟨hstarts, hblank, hbalanced, hbar, hcomma⟩ =>
      ⟨hstarts, fun c hc => Bool.not_eq_true' _ |>.mp (List.all_eq_true.mp hblank c hc), hbalanced, hbar, hcomma⟩,
    fun h => ⟨h.starts, List.all_eq_true.mpr fun c hc => Bool.not_eq_true' _ |>.mpr (h.no_blank c hc), h.balanced,
      h.no_bar, h.no_comma⟩⟩

/-- What the return type ends in for the rules behind the one for question marks. That rule passes over a text with
bars. -/
def returnEnd (list returns : Text) : Text :=
  if (list ++ returns).contains '|' then returns else Text.stripQuestionMarks returns

variable {list returns : Text}

/-! ## Return types -/

/-- A return type starts with a word character. -/
theorem IsReturnType.exists_cons (h : IsReturnType returns) :
    ∃ c t, Text.isWordChar c = true ∧ returns = c :: t := by
  cases returns with
  | nil => exact absurd h.starts (by decide)
  | cons c t => exact ⟨c, t, h.starts, rfl⟩

/-- A return type is not empty. -/
theorem IsReturnType.ne_nil (h : IsReturnType returns) : returns ≠ [] := by
  obtain ⟨c, t, -, rfl⟩ := h.exists_cons
  exact List.cons_ne_nil c t

/-- What stands before a balanced mark that starts with no word character is a return type, too. -/
theorem IsReturnType.of_append {front mark : Text} (hmark : isBalanced mark = true)
    (hstart : mark.head?.any Text.isWordChar = false) (h : IsReturnType (front ++ mark)) : IsReturnType front := by
  have hin : front <+: front ++ mark := List.prefix_append front mark
  refine ⟨?_, fun c hc => h.no_blank c (hin.subset hc), ?_, isUnbroken_of_isPrefix hin h.no_bar,
    isUnbroken_of_isPrefix hin h.no_comma⟩
  · cases front with
    | nil => exact absurd (h.starts : mark.head?.any Text.isWordChar = true) (by simp [hstart])
    | cons c front => exact h.starts
  · have hbalanced := h.balanced
    rwa [isBalanced, closesFrom_append_of_isBalanced hmark] at hbalanced

/-- A return type is clean of comments and prose. -/
theorem IsReturnType.withoutProse_eq (h : IsReturnType returns) : withoutProse returns = returns := by
  have hspace : ' ' ∉ returns := fun hmem => absurd (h.no_blank ' ' hmem) (by decide)
  have hmark : ∀ mark, ' ' ∈ mark → ¬ mark <:+: returns := fun mark hmem hin => hspace (hin.subset hmem)
  have hbare : IsBare returns := ⟨Text.strip_of_not_blank h.no_blank, hmark _ (by decide), hmark _ (by decide)⟩
  have hcapital : Text.hasCapitalised returns = false := by
    rw [← Bool.not_eq_true, Text.hasCapitalised_iff]
    rintro ⟨x, y, -, -, hin⟩
    exact hmark _ List.mem_cons_self hin
  have hrow : hasWordAfterType returns = false := by
    rw [← Bool.not_eq_true, hasWordAfterType_iff]
    rintro ⟨c, w, d, -, hne, hw, -, hin⟩
    obtain ⟨b, w, rfl⟩ := List.exists_cons_of_ne_nil hne
    have hb := h.no_blank b (hin.subset (by simp))
    rw [hw b List.mem_cons_self] at hb
    cases hb
  rw [withoutProse_of_isClean ⟨hbare, hcapital, hrow⟩, dropProseWord_eq_self]
  rintro ⟨front, word, hfront, -⟩
  exact hspace (hfront ▸ List.mem_append_right front List.mem_cons_self)

/-- One return type is returned as it is written. -/
theorem IsReturnType.ofCleaned_eq (h : IsReturnType returns) : WrittenReturn.ofCleaned returns = .single returns := by
  have hparts : topParts ',' returns = [returns] :=
    topPartsBy_of_isUnbroken h.no_comma h.ne_nil (Text.strip_of_not_blank h.no_blank)
  rw [WrittenReturn.ofCleaned, hparts]

/-! ## The whole text -/

/-- A function type ends as its return type does. -/
theorem getLast?_signatureText (h : returns ≠ []) : (signatureText list returns).getLast? = returns.getLast? := by
  rw [signatureText_eq_append, List.getLast?_append_of_ne_nil _ h]

/-- A mark at the end of the return type is at the end of the text. -/
theorem signatureText_append (list front mark : Text) :
    signatureText list (front ++ mark) = signatureText list front ++ mark := by
  rw [signatureText_eq_append, signatureText_eq_append, ← List.append_assoc]

/-- A function type starts with a small letter that starts no other form. -/
theorem exists_signatureText (list returns : Text) :
    ∃ t, signatureText list returns = 'f' :: 'u' :: 'n' :: '(' :: t := ⟨_, signatureText_eq list returns⟩

/-- No comment stands in a function type. -/
theorem isBare_signatureText (hlist : IsParamList list) (hreturns : IsReturnType returns) :
    IsBare (signatureText list returns) := by
  obtain ⟨c, t, hc, rfl⟩ := hreturns.exists_cons
  have hspace : ' ' ∉ c :: t := fun hmem => absurd (hreturns.no_blank ' ' hmem) (by decide)
  -- A mark in the text stands in the parameters or behind the colon, where the name comes right after a space.
  have hmark : ∀ mark : Text, ' ' ∈ mark → '(' ∉ mark → ')' ∉ mark → ':' ∉ mark → ¬ mark <:+: list →
      ¬ mark <+: ' ' :: c :: t → ¬ mark <:+: signatureText list (c :: t) := by
    intro mark hmem hopen hclose hcolon hnone hfirst hin
    rw [signatureText_eq] at hin
    obtain hin | hin := Text.isInfix_or_of_not_mem hin hopen
    · exact absurd (hin.subset hmem) (by decide)
    obtain hin | hin := Text.isInfix_or_of_not_mem hin hclose
    · exact hnone hin
    obtain hin | hin := Text.isInfix_or_of_not_mem (s := []) hin hcolon
    · exact absurd (hin.subset hmem) List.not_mem_nil
    obtain hstart | hin := List.infix_cons_iff.mp hin
    · exact hfirst hstart
    · exact hspace (hin.subset hmem)
  refine ⟨Text.strip_eq_self_iff.mpr ⟨?_, ?_⟩,
    hmark _ (by decide) (by decide) (by decide) (by decide) hlist.no_dashes ?_,
    hmark _ (by decide) (by decide) (by decide) (by decide) hlist.no_numberSign ?_⟩
  · obtain ⟨u, hu⟩ := exists_signatureText list (c :: t)
    rw [hu]
    intro d hd
    rw [← Option.some.inj hd]
    decide
  · rw [getLast?_signatureText (List.cons_ne_nil c t)]
    exact fun d hd => hreturns.no_blank d (List.mem_of_mem_getLast? hd)
  · intro hstart
    obtain ⟨rfl, -⟩ := List.cons_prefix_cons.mp (List.cons_prefix_cons.mp hstart).2
    exact absurd hc (by decide)
  · intro hstart
    obtain ⟨rfl, -⟩ := List.cons_prefix_cons.mp (List.cons_prefix_cons.mp hstart).2
    exact absurd hc (by decide)

/-- A function type closes its brackets and has no alternatives outside of them. -/
theorem isUnbroken_signatureText (hlist : IsParamList list) (hreturns : IsReturnType returns) :
    isBalanced (signatureText list returns) = true ∧ isUnbroken (· == '|') 0 (signatureText list returns) = true := by
  have htext : signatureText list returns = "fun".toList ++ (('(' :: (list ++ [')'])) ++ (": ".toList ++ returns)) := by
    rw [signatureText_eq]
    simp
  have hname : isBalanced "fun".toList = true := by decide
  have hcolon : isBalanced ": ".toList = true := by decide
  have hgroup : isBalanced ('(' :: (list ++ [')'])) = true :=
    isBalanced_bracketed (by decide) (by decide) hlist.balanced
  rw [htext]
  constructor
  · exact isBalanced_append hname (isBalanced_append hgroup (isBalanced_append hcolon hreturns.balanced))
  · rw [isUnbroken_append_of_isBalanced hname, isUnbroken_append_of_isBalanced hgroup,
      isUnbroken_append_of_isBalanced hcolon, isUnbroken_bracketed (by decide) hlist.balanced, hreturns.no_bar]
    decide

/-- Only the marks at its end keep a function type from being read as one. -/
theorem ofText_signatureText (hlist : IsParamList list) (hreturns : IsReturnType returns) :
    View.ofText (signatureText list returns) =
      match optionalBase? (signatureText list returns) with
      | some base => .optional base
      | none => match arrayElement? (signatureText list returns) with
        | some element => .array element
        | none => .callable (WrittenSignature.ofText? (signatureText list returns)) := by
  have hbare := isBare_signatureText hlist hreturns
  obtain ⟨hbalanced, hbar⟩ := isUnbroken_signatureText hlist hreturns
  obtain ⟨t, ht⟩ := exists_signatureText list returns
  have hmem : '(' ∈ signatureText list returns := by simp [ht]
  have hne : signatureText list returns ≠ [] := List.ne_nil_of_mem hmem
  have hvoid := not_void_of_not_isWordChar hmem (by decide)
  have hbasic := lookup_basicTypes_of_not_isWordChar hmem (by decide)
  have hnull := nullableBase?_of_isUnbroken hbalanced hbar
  have hunion := unionParts?_of_isUnbroken hbar hne hbare.trimmed
  have henclosed : enclosed? (signatureText list returns) = none := by
    rw [ht]
    rfl
  have hrecord : recordParts? (signatureText list returns) = none := by
    rw [ht]
    rfl
  have hfunction : isFunctionText (signatureText list returns) = true := by
    rw [ht]
    rfl
  -- The forms that are left out are those whose test fails before the ones that may succeed.
  rw [View.ofText, withoutComment_of_isBare hbare, View.ofBare, hvoid, hnull, hbasic, hunion, henclosed, hrecord,
    hfunction]
  rfl

/-- A question mark makes a function type without bars an optional one. -/
theorem ofText_signatureText_optional (hlist : IsParamList list) (hreturns : IsReturnType (returns ++ ['?']))
    (hbar : '|' ∉ list ++ returns) :
    View.ofText (signatureText list (returns ++ ['?'])) = .optional (signatureText list returns) := by
  have hbar' : '|' ∉ signatureText list returns := by
    rw [signatureText_eq]
    simpa using hbar
  rw [ofText_signatureText hlist hreturns, signatureText_append, optionalBase?_concat hbar']

/-- A pair of square brackets makes a function type a list. -/
theorem ofText_signatureText_array {element : Text} (hlist : IsParamList list)
    (hreturns : IsReturnType (element ++ "[]".toList)) :
    View.ofText (signatureText list (element ++ "[]".toList)) = .array (signatureText list element) := by
  have hlast : (signatureText list (element ++ "[]".toList)).getLast? = some ']' := by
    rw [getLast?_signatureText hreturns.ne_nil, List.getLast?_append]
    rfl
  have harray : arrayElement? (signatureText list (element ++ "[]".toList)) = some (signatureText list element) := by
    obtain ⟨t, ht⟩ := exists_signatureText list element
    rw [arrayElement?, signatureText_append, Text.dropEnd?_append, ht]
  rw [ofText_signatureText hlist hreturns, optionalBase?_of_getLast? hlast (by decide), harray]

/-- Without a mark at the end a function type is read as one. -/
theorem ofText_signatureText_callable (hlist : IsParamList list) (hreturns : IsReturnType returns)
    (hoptional : returns.getLast? = some '?' → '|' ∈ list ++ returns) (harray : ¬ "[]".toList <:+ returns) :
    View.ofText (signatureText list returns) = .callable (WrittenSignature.ofText? (signatureText list returns)) := by
  have hnotOptional : optionalBase? (signatureText list returns) = none := by
    by_cases hmark : returns.getLast? = some '?'
    · have hbar : (signatureText list returns).contains '|' = true := by
        rw [List.contains_iff_mem, signatureText_eq]
        have hmem := hoptional hmark
        rw [List.mem_append] at hmem
        simp [hmem]
      rw [optionalBase?, hbar]
      rfl
    · obtain ⟨c, hlast⟩ : ∃ c, returns.getLast? = some c := ⟨_, List.getLast?_eq_getLast_of_ne_nil hreturns.ne_nil⟩
      refine optionalBase?_of_getLast? ((getLast?_signatureText hreturns.ne_nil).trans hlast) ?_
      rintro rfl
      exact hmark hlast
  have hnotArray : arrayElement? (signatureText list returns) = none := by
    have hdrop : Text.dropEnd? "[]".toList (signatureText list returns) = none := by
      rw [Option.eq_none_iff_forall_ne_some]
      intro front hfront
      have hends : "[]".toList <:+ signatureText list returns := ⟨front, (Text.dropEnd?_eq_some_iff.mp hfront).symm⟩
      -- The brackets would be the end of the return type, which starts with a name.
      have hreturnEnds : returns <:+ signatureText list returns := List.suffix_append _ _
      obtain hends | hshort := List.suffix_or_suffix_of_suffix hends hreturnEnds
      · exact harray hends
      · obtain ⟨c, t, hc, rfl⟩ := hreturns.exists_cons
        have hmem : c ∈ "[]".toList := hshort.subset List.mem_cons_self
        have hbracket : "[]".toList.all (!Text.isWordChar ·) = true := by decide
        have hnot := List.all_eq_true.mp hbracket c hmem
        rw [hc] at hnot
        cases hnot
    rw [arrayElement?, hdrop]
  rw [ofText_signatureText hlist hreturns, hnotOptional, hnotArray]

/-! ## Declared types -/

/-- What the declared type of a function's signature has in front of the return type. -/
def callableStart (list : Text) : Text :=
  "(" ++ (WrittenSignature.toCallable declaredType ⟨(topParts ',' list).map .ofText, .absent⟩).paramList ++ ") => "

/-- The callable of a function type is declared by its parameters and its return type. -/
theorem typeText_signatureText (hlist : IsParamList list) (hreturns : IsReturnType returns) :
    (Callable.ofText (signatureText list returns)).typeText = callableStart list ++ declaredType returns := by
  have hwritten : WrittenSignature.ofText? (signatureText list returns) =
      some ⟨(topParts ',' list).map .ofText, .single returns⟩ := by
    rw [WrittenSignature.ofText?_signatureText hlist.balanced, hreturns.withoutProse_eq, hreturns.ofCleaned_eq]
  have hsingle : (WrittenReturn.single returns).toText declaredType = declaredType returns := by
    rw [WrittenReturn.toText]
  rw [Callable.ofText, hwritten, ← hsingle]
  exact typeText_toCallable _ _

/-- A function type without a mark at its end is declared by its signature. -/
theorem declaredType_signatureText_callable (hlist : IsParamList list) (hreturns : IsReturnType returns)
    (hoptional : returns.getLast? = some '?' → '|' ∈ list ++ returns) (harray : ¬ "[]".toList <:+ returns) :
    declaredType (signatureText list returns) = (Callable.ofText (signatureText list returns)).typeText := by
  rw [declaredType_eq, ofText_signatureText_callable hlist hreturns hoptional harray]
  rfl

/-- A function type with a question mark at its end is declared as the one without it or undefined. -/
theorem declaredType_signatureText_optional (hlist : IsParamList list) (hreturns : IsReturnType (returns ++ ['?']))
    (hbar : '|' ∉ list ++ returns) :
    declaredType (signatureText list (returns ++ ['?'])) =
      declaredType (signatureText list returns) ++ " | undefined".toList := by
  rw [declaredType_eq, ofText_signatureText_optional hlist hreturns hbar, render_optional]

/-- A return type with a question mark at its end is declared as the one without it or undefined. -/
theorem IsReturnType.declaredType_optional (h : IsReturnType (returns ++ ['?'])) (hbar : '|' ∉ returns) :
    declaredType (returns ++ ['?']) = declaredType returns ++ " | undefined".toList := by
  have hmem : '?' ∈ returns ++ ['?'] := List.mem_append_right returns (List.mem_singleton_self _)
  have hvoid := not_void_of_not_isWordChar hmem (by decide)
  have hbasic := lookup_basicTypes_of_not_isWordChar hmem (by decide)
  have hnull := nullableBase?_of_isUnbroken h.balanced h.no_bar
  have hoptional := optionalBase?_concat hbar
  have hview : View.ofText (returns ++ ['?']) = .optional returns := by
    rw [View.ofText, withoutComment_of_not_blank h.no_blank, View.ofBare, hvoid, hnull, hbasic, hoptional]
    rfl
  rw [declaredType_eq, hview, render_optional]

/-- A return type ends in a question mark that is read off first, in a pair of square brackets, or in no mark that the
rules take for one of the function. -/
theorem IsReturnType.end_induction {motive : (returns : Text) → IsReturnType returns → Prop} (list : Text)
    (optional : ∀ r hr hr', '|' ∉ list ++ r → motive r hr → motive (r ++ ['?']) hr')
    (array : ∀ e he he', motive e he → motive (e ++ "[]".toList) he')
    (callable : ∀ r hr, (r.getLast? = some '?' → '|' ∈ list ++ r) → ¬ "[]".toList <:+ r → motive r hr)
    {returns : Text} (h : IsReturnType returns) : motive returns h := by
  -- A mark is taken off at a time; what stands before it is a shorter return type.
  induction hlen : returns.length using Nat.strong_induction_on generalizing returns with
  | _ n ih =>
    by_cases harray : "[]".toList <:+ returns
    · obtain ⟨e, rfl⟩ := harray
      have he : IsReturnType e := h.of_append (by decide) (by decide)
      exact array e he h (ih e.length (by simp [← hlen]) he rfl)
    by_cases hoptional : returns.getLast? = some '?' ∧ '|' ∉ list ++ returns
    · obtain ⟨hlast, hbar⟩ := hoptional
      have hconcat : returns = returns.dropLast ++ ['?'] := (List.dropLast_append_getLast? '?' hlast).symm
      generalize returns.dropLast = r at hconcat
      subst hconcat
      have hr : IsReturnType r := h.of_append (by decide) (by decide)
      have hbar' : '|' ∉ list ++ r := by simpa using hbar
      exact optional r hr h hbar' (ih r.length (by simp [← hlen]) hr rfl)
    · exact callable returns h (fun hlast => not_not.mp fun hbar => hoptional ⟨hlast, hbar⟩) harray

/-- What a function's signature is declared as starts with the receiver and has an arrow behind the parameters. -/
theorem exists_callableStart (list : Text) : ∃ t, callableStart list = '(' :: 't' :: (t ++ "=> ".toList) := by
  obtain ⟨t, ht⟩ : ∃ t, (WrittenSignature.toCallable declaredType
      ⟨(topParts ',' list).map .ofText, .absent⟩).paramList = 't' :: t := by
    rw [Callable.paramList]
    cases List.map Param.render _ with
    | nil => exact ⟨_, Text.join_singleton _ _⟩
    | cons part parts => exact ⟨_, Text.join_cons_cons _ _ _ _⟩
  refine ⟨t ++ ") ".toList, ?_⟩
  rw [callableStart, ht]
  simp

/-- An element type with an arrow in it is put in parentheses. -/
theorem renderArray_of_isInfix {element : Text} (h : "=>".toList <:+: element) :
    View.renderArray element = "(".toList ++ element ++ ")[]".toList := by
  rw [View.renderArray, Text.hasText_iff.mpr h, Bool.or_true]
  rfl

/-- The declared type of a function type starts with a parenthesis and has an arrow in it. -/
theorem exists_declaredType_signatureText (hlist : IsParamList list) (hreturns : IsReturnType returns) :
    (∃ t, declaredType (signatureText list returns) = '(' :: t) ∧
      "=>".toList <:+: declaredType (signatureText list returns) := by
  induction hreturns using IsReturnType.end_induction list with
  | optional r hr hr' hbar ih =>
    obtain ⟨⟨t, ht⟩, harrow⟩ := ih
    rw [declaredType_signatureText_optional hlist hr' hbar]
    exact ⟨⟨t ++ " | undefined".toList, by rw [ht]; rfl⟩, harrow.trans (List.prefix_append _ _).isInfix⟩
  | array e he he' ih =>
    obtain ⟨-, harrow⟩ := ih
    rw [declaredType_eq, ofText_signatureText_array hlist he', render_array, renderArray_of_isInfix harrow]
    exact ⟨⟨_, rfl⟩, harrow.trans ⟨_, _, rfl⟩⟩
  | callable r hr hoptional harray =>
    obtain ⟨t, ht⟩ := exists_callableStart list
    rw [declaredType_signatureText_callable hlist hr hoptional harray, typeText_signatureText hlist hr, ht]
    exact ⟨⟨_, rfl⟩, ⟨'(' :: 't' :: t, ' ' :: declaredType r, by simp⟩⟩

/-- A function type with square brackets at its end is declared as a list of functions. -/
theorem declaredType_signatureText_array {element : Text} (hlist : IsParamList list)
    (hreturns : IsReturnType (element ++ "[]".toList)) :
    declaredType (signatureText list (element ++ "[]".toList)) =
      "(".toList ++ declaredType (signatureText list element) ++ ")[]".toList := by
  have helement : IsReturnType element := hreturns.of_append (by decide) (by decide)
  rw [declaredType_eq, ofText_signatureText_array hlist hreturns, render_array,
    renderArray_of_isInfix (exists_declaredType_signatureText hlist helement).2]

/-- Question marks behind the square brackets add an alternative each to the list of functions, without bars. -/
theorem declaredType_signatureText_marked_array {element : Text} {n : Nat} (hlist : IsParamList list)
    (hreturns : IsReturnType (element ++ "[]".toList ++ List.replicate n '?'))
    (hbar : n = 0 ∨ '|' ∉ list ++ (element ++ "[]".toList ++ List.replicate n '?')) :
    declaredType (signatureText list (element ++ "[]".toList ++ List.replicate n '?')) =
      "(".toList ++ declaredType (signatureText list element) ++ ")[]".toList ++
        (List.replicate n " | undefined".toList).flatten := by
  induction n with
  | zero =>
    rw [List.replicate_zero, List.append_nil] at hreturns ⊢
    rw [declaredType_signatureText_array hlist hreturns, List.replicate_zero, List.flatten_nil, List.append_nil]
  | succ n ih =>
    have hbar' := hbar.resolve_left (Nat.succ_ne_zero n)
    rw [List.replicate_succ', ← List.append_assoc] at hreturns hbar' ⊢
    have hinner : IsReturnType (element ++ "[]".toList ++ List.replicate n '?') :=
      hreturns.of_append (by decide) (by decide)
    have hno : '|' ∉ list ++ (element ++ "[]".toList ++ List.replicate n '?') := by simpa using hbar'
    rw [declaredType_signatureText_optional hlist hreturns hno, ih hinner (.inr hno), List.replicate_succ',
      List.flatten_concat, ← List.append_assoc]

/-- A function type is declared as its signature exactly when its return type does not end in a pair of square brackets
behind which only question marks that are read off stand; then it is declared as a list of functions. -/
theorem declaredType_signatureText (hlist : IsParamList list) (hreturns : IsReturnType returns) :
    (declaredType (signatureText list returns) = (Callable.ofText (signatureText list returns)).typeText ↔
      ¬ "[]".toList <:+ returnEnd list returns) ∧
    ∀ element n, returns = element ++ "[]".toList ++ List.replicate n '?' → (n = 0 ∨ '|' ∉ list ++ returns) →
      declaredType (signatureText list returns) =
        "(".toList ++ declaredType (signatureText list element) ++ ")[]".toList ++
          (List.replicate n " | undefined".toList).flatten := by
  refine ⟨?_, ?_⟩
  · induction hreturns using IsReturnType.end_induction list with
    -- The mark adds the same text to both sides.
    | optional r hr hr' hbar ih =>
      have hbar' : '|' ∉ r := fun hmem => hbar (List.mem_append_right list hmem)
      have hend : returnEnd list (r ++ ['?']) = returnEnd list r := by
        have hno : '|' ∉ list ++ (r ++ ['?']) := by simpa using hbar
        rw [returnEnd, returnEnd, if_neg (by simpa using hno), if_neg (by simpa using hbar), stripQuestionMarks_concat]
      rw [hend, ← ih, typeText_signatureText hlist hr', typeText_signatureText hlist hr,
        declaredType_signatureText_optional hlist hr' hbar, hr'.declaredType_optional hbar', ← List.append_assoc,
        List.append_left_inj]
    -- A list of functions starts with one parenthesis more than a function.
    | array e he he' ih =>
      have hend : returnEnd list (e ++ "[]".toList) = e ++ "[]".toList := by
        rw [returnEnd, stripQuestionMarks_of_getLast? (by simp), ite_self]
      obtain ⟨⟨t, ht⟩, -⟩ := exists_declaredType_signatureText hlist he
      obtain ⟨u, hu⟩ := exists_callableStart list
      rw [hend, declaredType_signatureText_array hlist he', ht, typeText_signatureText hlist he', hu]
      simp
    | callable r hr hoptional harray =>
      have hend : returnEnd list r = r := by
        rw [returnEnd]
        split
        · rfl
        · rename_i hbar
          exact stripQuestionMarks_of_getLast? fun hlast => hbar (by simpa using hoptional hlast)
      rw [hend]
      exact iff_of_true (declaredType_signatureText_callable hlist hr hoptional harray) harray
  · rintro element n rfl hbar
    exact declaredType_signatureText_marked_array hlist hreturns hbar

/-- A function that returns a table is declared as its signature, and a list of such tables makes it a list. -/
theorem declaredType_signatureText_table :
    IsParamList "x: number".toList ∧ IsReturnType "table<string,number>".toList ∧
      IsReturnType "table<string,number>[]?".toList ∧
      declaredType (signatureText "x: number" "table<string,number>") =
        (Callable.ofText (signatureText "x: number" "table<string,number>")).typeText ∧
      declaredType (signatureText "x: number" "table<string,number>[]?") =
        "((this: void, x: number) => Record<string, number>)[] | undefined".toList := by
  have hlist : IsParamList "x: number".toList := by decide
  have htable : IsReturnType "table<string,number>".toList := by decide
  have hmarked : IsReturnType "table<string,number>[]?".toList := by decide
  have hlistOfTables := (declaredType_signatureText hlist hmarked).2 "table<string,number>".toList 1 rfl (by decide)
  refine ⟨hlist, htable, hmarked, (declaredType_signatureText hlist htable).1.mpr (by decide), ?_⟩
  rw [hlistOfTables]
  decide +kernel

/-- The brackets of a returned list are taken for those of a list of functions. -/
theorem declaredType_signatureText_differently :
    IsParamList [] ∧ IsReturnType "string[]".toList ∧
      declaredType (signatureText [] "string[]") = "((this: void) => string)[]".toList ∧
      (Callable.ofText (signatureText [] "string[]")).typeText = "(this: void) => string[]".toList ∧
      declaredType (signatureText [] "string[]") ≠ (Callable.ofText (signatureText [] "string[]")).typeText := by
  decide +kernel

end LuaTypings.TypeText
