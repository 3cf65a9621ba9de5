import LuaTypings.Proofs.TypeText.TrailingNil
import LuaTypings.TypeText.Alias

/-!
# Aliases with a last alternative `nil`

The body of an alias with `fun(` somewhere in it is split into its alternatives in another way than any other type: each
alternative is declared by itself, and no rule makes a last `nil` mean null (`declaredAlias_of_mark`). Without that text in
it a union is the type that it would be elsewhere, and a last `nil` is read as elsewhere unless a comment cuts it off
(`declaredType_append_nil_of_not_isBare`). `declaredAlias_trailing_nil` puts the two together.
-/

namespace LuaTypings.TypeText

variable {t : Text} {alternatives : List Text}

/-! ## A comment in front of `nil` -/

/-- A trimmed text stays trimmed with a last alternative `nil`. -/
theorem strip_append_nil (htrim : Text.strip t = t) (hne : t ≠ []) :
    Text.strip (t ++ nilAlternative []) = t ++ nilAlternative [] := by
  have hends := Text.strip_append_append (m := "|".toList) (t := "nil".toList) htrim (by decide) hne (by decide)
  rwa [List.append_assoc] at hends

/-- A comment cuts off a last alternative `nil` behind it. -/
theorem declaredType_append_nil_of_not_isBare (htrim : Text.strip t = t) (hne : t ≠ []) (hcomment : ¬ IsBare t) :
    declaredType (t ++ nilAlternative []) = declaredType t := by
  refine declaredType_congr ?_
  rw [withoutComment, withoutComment, strip_append_nil htrim hne, htrim]
  by_cases hdashes : " --".toList <:+: t
  · rw [Text.before_append_of_isInfix hdashes]
  · -- No dashes start a comment, so it is a number sign that does.
    have hsign : "  #".toList <:+: t := by
      by_contra hsign
      exact hcomment ⟨htrim, hdashes, hsign⟩
    have hdashes' : ¬ " --".toList <:+: t ++ nilAlternative [] := by
      intro hin
      obtain hin | hin := Text.isInfix_or_of_not_mem (s := t) (c := '|') hin (by decide)
      · exact hdashes hin
      · exact absurd hin (by decide)
    rw [Text.before_eq_self hdashes, Text.before_eq_self hdashes', strip_append_nil htrim hne, htrim,
      Text.before_append_of_isInfix hsign]

/-! ## Alias bodies -/

/-- Only a text that ends in a curly bracket is an object literal. -/
theorem literalBody?_of_getLast? {c : Char} (h : t.getLast? = some c) (hc : c ≠ '}') : literalBody? t = none := by
  rw [literalBody?]
  cases hstart : Text.dropStart? "\x7b".toList t with
  | none => rfl
  | some front => exact Text.dropEnd?_of_dropStart? hstart h hc

/-- A text with a last alternative `nil` is no object literal. -/
theorem literalBody?_append_nil (t : Text) : literalBody? (t ++ nilAlternative []) = none :=
  literalBody?_of_getLast? (getLast?_append_nilAlternative t []) (by decide)

/-- The mark of a function is in a body with a last alternative `nil` when it is in the body. -/
theorem hasText_append_nil (t : Text) : Text.hasText "fun(" (t ++ nilAlternative []) = Text.hasText "fun(" t :=
  Text.hasText_append_cons (c := '|') (t := "nil".toList) (by decide) (by decide) t

/-- A body with a bar and the mark of a function declares its alternatives one by one. -/
theorem declaredAlias_of_mark (htrim : Text.strip t = t) (hliteral : literalBody? t = none) (hbar : '|' ∈ t)
    (hmark : Text.hasText "fun(" t = true) :
    declaredAlias t = Text.joinDistinct " | " ((topParts '|' t).map declaredAlternative) := by
  have hcontains : t.contains '|' = true := List.contains_iff_mem.mpr hbar
  simp only [declaredAlias, htrim, hliteral, hcontains, hmark, Bool.and_self, if_true]
  rfl

/-- A body without the mark of a function declares the type that it is elsewhere. -/
theorem declaredAlias_of_no_mark (htrim : Text.strip t = t) (hliteral : literalBody? t = none)
    (hmark : Text.hasText "fun(" t = false) : declaredAlias t = declaredType t := by
  simp only [declaredAlias, htrim, hliteral, hmark, Bool.and_false, Bool.false_eq_true, if_false]

/-- Trimmed texts with bars between them make a trimmed text. -/
theorem strip_join_bar (hne : alternatives ≠ []) (h : ∀ a ∈ alternatives, a ≠ [] ∧ Text.strip a = a) :
    Text.join "|" alternatives ≠ [] ∧ Text.strip (Text.join "|" alternatives) = Text.join "|" alternatives := by
  refine Text.join_of_append (motive := fun s => s ≠ [] ∧ Text.strip s = s) ?_ (by decide) hne h
  rintro s t ⟨hs, hs'⟩ ⟨ht, ht'⟩
  have hends := Text.strip_append_append (m := []) hs' ht' hs ht
  rw [List.append_nil] at hends
  exact ⟨by simp [hs], hends⟩

/-- A bar stands between two texts that are joined by bars. -/
theorem mem_bar_join (hlen : 2 ≤ alternatives.length) : '|' ∈ Text.join "|" alternatives := by
  obtain ⟨first, second, more, rfl⟩ := exists_of_two_le_length hlen
  rw [Text.join_cons_cons]
  exact List.mem_append_left _ (List.mem_append_right first List.mem_cons_self)

/-- A text with the mark of a function has an alternative. -/
theorem topParts_ne_nil_of_mark (hmark : Text.hasText "fun(" t = true) : topParts '|' t ≠ [] := by
  intro hnil
  have hmem : 'f' ∈ t := (Text.hasText_iff.mp hmark).subset List.mem_cons_self
  exact absurd (isBlank_or_of_topPartsBy_eq_nil hnil 'f' hmem) (by decide)

/-- A last alternative `nil` of a body with the mark of a function declares no value. -/
theorem declaredAlias_append_nil_of_mark (htrim : Text.strip t = t) (hne : t ≠ []) (hopen : openAfter 0 t = 0)
    (hmark : Text.hasText "fun(" t = true) :
    declaredAlias (t ++ nilAlternative []) =
      Text.joinDistinct " | " ((topParts '|' t).map declaredAlternative ++ ["void".toList]) := by
  have hbar : '|' ∈ t ++ nilAlternative [] := List.mem_append_right t List.mem_cons_self
  have hnil : declaredAlternative "nil" = "void".toList := by decide
  rw [declaredAlias_of_mark (strip_append_nil htrim hne) (literalBody?_append_nil t) hbar
    ((hasText_append_nil t).trans hmark), topParts_append_nilAlternative hopen (List.forall_mem_nil _), List.map_append,
    List.map_singleton, hnil]

/-- A last alternative `nil` of a body without the mark of a function is read as elsewhere. -/
theorem declaredAlias_append_nil_of_no_mark (htrim : Text.strip t = t) (hne : t ≠ [])
    (hmark : Text.hasText "fun(" t = false) :
    declaredAlias (t ++ nilAlternative []) = declaredType (t ++ nilAlternative []) :=
  declaredAlias_of_no_mark (strip_append_nil htrim hne) (literalBody?_append_nil t) ((hasText_append_nil t).trans hmark)

/-- **An alias with a last alternative `nil`.** In a body of alternatives with the mark of a function anywhere in it, a
last alternative `nil` declares no value; in any other body it is read as in any other type. So it means null, beside
what the body declares without it, exactly when the mark is not there and no comment either, unless the body is an object
literal. -/
theorem declaredAlias_trailing_nil (alternatives : List Text) (hlen : 2 ≤ alternatives.length)
    (h : ∀ a ∈ alternatives, a ≠ [] ∧ Text.strip a = a ∧ isBalanced a = true) :
    let body := Text.join "|" alternatives
    (Text.hasText "fun(" body = true →
        declaredAlias (body ++ nilAlternative []) =
          Text.joinDistinct " | " ((topParts '|' body).map declaredAlternative ++ ["void".toList])) ∧
      (Text.hasText "fun(" body = false →
        declaredAlias (body ++ nilAlternative []) = declaredType (body ++ nilAlternative [])) ∧
      (literalBody? body = none →
        (declaredAlias (body ++ nilAlternative []) = declaredAlias body ++ " | null".toList ↔
          Text.hasText "fun(" body = false ∧ IsBare body)) := by
  intro body
  have hseveral : alternatives ≠ [] := List.ne_nil_of_length_pos (by omega)
  obtain ⟨hne, htrim⟩ : body ≠ [] ∧ Text.strip body = body :=
    strip_join_bar hseveral fun a ha => ⟨(h a ha).1, (h a ha).2.1⟩
  have hopen : openAfter 0 body = 0 :=
    openAfter_of_isBalanced (isBalanced_join (by decide) fun a ha => (h a ha).2.2)
  have hbar : '|' ∈ body := mem_bar_join hlen
  -- Nothing is its own text with more behind it.
  have hlonger : ∀ s : Text, s ≠ s ++ " | null".toList := fun s heq => by
    have hlength := congrArg List.length heq
    rw [List.length_append] at hlength
    exact absurd hlength (by simp)
  refine ⟨declaredAlias_append_nil_of_mark htrim hne hopen, declaredAlias_append_nil_of_no_mark htrim hne,
    fun hliteral => ?_⟩
  cases hmark : Text.hasText "fun(" body with
  | true =>
    refine iff_of_false ?_ (fun hno => Bool.noConfusion hno.1)
    rw [declaredAlias_append_nil_of_mark htrim hne hopen hmark, declaredAlias_of_mark htrim hliteral hbar hmark]
    -- The last alternative is left out when another one declares no value already, and ends the union otherwise.
    by_cases hvoid : "void".toList ∈ (topParts '|' body).map declaredAlternative
    · rw [Text.joinDistinct_concat_of_mem hvoid]
      exact hlonger _
    · rw [Text.joinDistinct_concat_of_not_mem (by simpa using topParts_ne_nil_of_mark hmark) hvoid, List.append_assoc]
      exact fun heq => absurd (List.append_cancel_left heq) (by decide)
  | false =>
    rw [declaredAlias_append_nil_of_no_mark htrim hne hmark, declaredAlias_of_no_mark htrim hliteral hmark]
    by_cases hbare : IsBare body
    · exact iff_of_true (declaredType_nil_alternative hbare hne (.inl rfl)) ⟨rfl, hbare⟩
    · rw [declaredType_append_nil_of_not_isBare htrim hne hbare]
      exact iff_of_false (hlonger _) fun hboth => hbare hboth.2

/-- A function with its parameters in parentheses right behind the keyword keeps a last `nil` from meaning null; with a
space in front of them it does not. -/
theorem declaredAlias_trailing_nil_of_function :
    declaredAlias "string|fun(): number|nil" = "string | ((this: void) => number) | void".toList ∧
      declaredAlias "string|fun(): number|nil" ≠ declaredAlias "string|fun(): number" ++ " | null".toList ∧
      declaredAlias "string|fun (): number|nil" = declaredAlias "string|fun (): number" ++ " | null".toList := by
  obtain ⟨hvalue, -, hmarked⟩ :=
    declaredAlias_trailing_nil ["string", "fun(): number"] (by decide) (by decide)
  obtain ⟨-, -, hspaced⟩ :=
    declaredAlias_trailing_nil ["string", "fun (): number"] (by decide) (by decide)
  have hbare : IsBare "string|fun (): number".toList := ⟨by decide, by decide, by decide⟩
  refine ⟨(hvalue (by decide)).trans (by decide +kernel), fun heq => ?_, (hspaced (by decide)).mpr ⟨by decide, hbare⟩⟩
  exact absurd ((hmarked (by decide)).mp heq).1 (by decide)

/-- A last alternative `nil` does not mean null behind every function type. -/
theorem declaredAlias_trailing_nil_differently :
    ¬ ∀ alternatives : List Text, 2 ≤ alternatives.length →
      (∀ a ∈ alternatives, a ≠ [] ∧ Text.strip a = a ∧ isBalanced a = true) →
      (∃ a ∈ alternatives, isFunctionText a = true) →
      declaredAlias (Text.join "|" alternatives ++ nilAlternative []) =
        declaredAlias (Text.join "|" alternatives) ++ " | null".toList := by
  intro h
  have hfunction := h ["string", "fun(): number"] (by decide) (by decide) (by decide)
  exact absurd hfunction (by decide +kernel)

end LuaTypings.TypeText
