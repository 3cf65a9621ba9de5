import LuaTypings.Proofs.Text.Distinct
import LuaTypings.Proofs.Text.Literal
import LuaTypings.Proofs.TypeText.Form
import LuaTypings.Proofs.TypeText.Prose
import LuaTypings.Proofs.TypeText.TopParts

/-!
# A last alternative `nil`

A type with a last alternative `nil` is nullable when the bar and `nil` have one space between them or none
(`nullableBase?_eq_some_iff`, `declaredType_nil_alternative`). With other blanks between them the text is only a union, in
which `nil` is an alternative like any other and declares no value. `declaredType_trailing_nil` tells the two apart for
every number of blanks.

That the union never happens to be what the nullable type would have been rests on what is left of the alternatives when
repeated ones are left out: they take no more room than the declared type that they come from, unless they are `nil` but
for one (`joinDistinct_topParts_cases`).
-/

namespace LuaTypings.TypeText

/-- A last alternative `nil` with blanks behind its bar. -/
def nilAlternative (blanks : Text) : Text := "|" ++ blanks ++ "nil"

variable {t base w : Text}

/-! ## Nullable texts -/

/-- One space or none is nothing but spaces and tabulators. -/
theorem mem_of_one_space (hw : w = [] ∨ w = " ".toList) : ∀ c ∈ w, c = ' ' ∨ c = '\t' := by
  obtain rfl | rfl := hw
  · exact List.forall_mem_nil _
  · exact List.forall_mem_singleton.mpr (.inl rfl)

/-- Spaces and tabulators are blank. -/
theorem isBlank_of_spaces (hw : ∀ c ∈ w, c = ' ' ∨ c = '\t') : ∀ c ∈ w, Text.isBlank c = true := by
  intro c hc
  obtain rfl | rfl := hw c hc
  · decide
  · decide

/-- A last alternative starts with its bar. -/
theorem nilAlternative_eq (blanks : Text) : nilAlternative blanks = '|' :: (blanks ++ "nil".toList) := rfl

/-- A text is nullable when it ends in a bar and `nil` with one space between them or none. -/
theorem nullableBase?_eq_some_iff : nullableBase? t = some base ↔
    ∃ front w, (w = [] ∨ w = " ".toList) ∧ t = front ++ nilAlternative w ∧ Text.strip front = base := by
  rw [nullableBase?, Option.map_eq_some_iff]
  constructor
  · rintro ⟨front, hfront, rfl⟩
    rw [Option.orElse_eq_orElse, Option.orElse_eq_or, Option.or_eq_some_iff] at hfront
    obtain hfront | ⟨-, hfront⟩ := hfront
    · exact ⟨front, " ".toList, .inr rfl, Text.dropEnd?_eq_some_iff.mp hfront, rfl⟩
    · exact ⟨front, [], .inl rfl, Text.dropEnd?_eq_some_iff.mp hfront, rfl⟩
  · rintro ⟨front, w, rfl | rfl, rfl, rfl⟩
    · -- The last four characters tell the two endings apart.
      have hspaced : Text.dropEnd? "| nil".toList (front ++ nilAlternative []) = none := by
        rw [Option.eq_none_iff_forall_ne_some]
        intro other hother
        have heq : front ++ "|nil".toList = (other ++ "|".toList) ++ " nil".toList := by
          rw [List.append_assoc]
          exact Text.dropEnd?_eq_some_iff.mp hother
        exact absurd (List.append_inj' heq rfl).2 (by decide)
      refine ⟨front, ?_, rfl⟩
      rw [hspaced]
      exact Text.dropEnd?_append "|nil".toList front
    · refine ⟨front, ?_, rfl⟩
      have hspaced : Text.dropEnd? "| nil".toList (front ++ nilAlternative " ") = some front :=
        Text.dropEnd?_append "| nil".toList front
      rw [hspaced]
      rfl

/-- A text with a base is nullable, whatever else it may look like. -/
theorem ofBare_of_nullableBase? (h : nullableBase? t = some base) : View.ofBare t = .nullable base := by
  have hbar : '|' ∈ t := by
    obtain ⟨front, w, -, rfl, -⟩ := nullableBase?_eq_some_iff.mp h
    exact List.mem_append_right front List.mem_cons_self
  have hvoid := not_void_of_not_isWordChar hbar (by decide)
  simp only [View.ofBare, hvoid, h, Bool.false_eq_true, if_false]

/-- A text without a comment declares what its form renders. -/
theorem declaredType_of_isBare (h : IsBare t) : declaredType t = (View.ofBare t).render declaredType := by
  rw [declaredType_eq, View.ofText, withoutComment_of_isBare h]

/-- A nullable text declares its base or null. -/
theorem declaredType_of_nullableBase? (ht : IsBare t) (h : nullableBase? t = some base) :
    declaredType t = declaredType base ++ " | null".toList := by
  rw [declaredType_of_isBare ht, ofBare_of_nullableBase? h, render_nullable]

/-- A last alternative `nil` behind a text without a comment starts none. -/
theorem isBare_append_nilAlternative (ht : IsBare t) (hne : t ≠ []) (hw : ∀ c ∈ w, c = ' ' ∨ c = '\t') :
    IsBare (t ++ nilAlternative w) := by
  have hapart : ∀ mark : Text, '|' ∉ mark → (∃ c ∈ mark, c = '-' ∨ c = '#') → ¬ mark <:+: t →
      ¬ mark <:+: t ++ nilAlternative w := by
    rintro mark hbar ⟨c, hc, hsign⟩ hmark hin
    rw [nilAlternative_eq] at hin
    obtain hin | hin := Text.isInfix_or_of_not_mem hin hbar
    · exact hmark hin
    · -- Behind the bar there is neither a dash nor a number sign.
      have hmem := hin.subset hc
      rw [List.mem_append] at hmem
      obtain hmem | hmem := hmem
      · obtain rfl | rfl := hsign <;> obtain h | h := hw _ hmem <;> exact absurd h (by decide)
      · obtain rfl | rfl := hsign <;> exact absurd hmem (by decide)
  refine ⟨?_, hapart _ (by decide) ⟨'-', by decide, .inl rfl⟩ ht.no_dashes,
    hapart _ (by decide) ⟨'#', by decide, .inr rfl⟩ ht.no_numberSign⟩
  have hends := Text.strip_append_append (m := '|' :: w) (t := "nil".toList) ht.trimmed (by decide) hne (by decide)
  rwa [List.append_assoc] at hends

/-- With one space behind the bar or none, a last alternative `nil` makes any type nullable. -/
theorem declaredType_nil_alternative (ht : IsBare t) (hne : t ≠ []) (hw : w = [] ∨ w = " ".toList) :
    declaredType (t ++ nilAlternative w) = declaredType t ++ " | null".toList :=
  declaredType_of_nullableBase? (isBare_append_nilAlternative ht hne (mem_of_one_space hw))
    (nullableBase?_eq_some_iff.mpr ⟨t, w, hw, rfl, ht.trimmed⟩)

/-! ## Alternatives -/

/-- Only bars make several alternatives. -/
theorem mem_bar_of_several (h : 2 ≤ (topParts '|' t).length) : '|' ∈ t := by
  by_contra hbar
  have hu : isUnbroken (· == '|') 0 t = true := isUnbroken_of_not_mem hbar 0
  rw [topParts, topPartsBy, segments_of_isUnbroken hu] at h
  have hlen := h.trans (List.length_filter_le _ _)
  simp at hlen

/-- Several alternatives of a text that is not nullable are declared one by one, repeated ones once. -/
theorem declaredType_of_several (ht : IsBare t) (hnull : nullableBase? t = none) (h : 2 ≤ (topParts '|' t).length) :
    declaredType t = Text.joinDistinct " | " ((topParts '|' t).map declaredType) := by
  have hbar := mem_bar_of_several h
  have hvoid := not_void_of_not_isWordChar hbar (by decide)
  have hbasic := lookup_basicTypes_of_not_isWordChar hbar (by decide)
  have hopt : optionalBase? t = none := if_pos (List.contains_iff_mem.mpr hbar)
  have hunion := unionParts?_of_several rfl h
  have hform : View.ofBare t = .union (topParts '|' t) := by
    simp only [View.ofBare, hvoid, hnull, hbasic, hopt, hunion, Bool.false_eq_true, if_false]
  rw [declaredType_of_isBare ht, hform, render_union]
  rfl

/-- A last alternative `nil` is the last part of a text that leaves no bracket open. -/
theorem topParts_append_nilAlternative (hopen : openAfter 0 t = 0) (hw : ∀ c ∈ w, Text.isBlank c = true) :
    topParts '|' (t ++ nilAlternative w) = topParts '|' t ++ ["nil".toList] := by
  have hstrip : Text.strip (w ++ "nil".toList) = "nil".toList := Text.strip_blanks_append hw _
  have hlast : topPartsBy (· == '|') (w ++ "nil".toList) = ["nil".toList] := by
    rw [← topPartsBy_strip, hstrip]
    decide
  rw [topParts, nilAlternative_eq, topPartsBy_append_cons hopen (by decide), hlast, topParts]

/-- The alternatives of a nullable text are those of its base and `nil`. -/
theorem topParts_of_nullableBase? (ht : IsBare t) (hopen : openAfter 0 t = 0) (h : nullableBase? t = some base) :
    IsBare base ∧ openAfter 0 base = 0 ∧ topParts '|' t = topParts '|' base ++ ["nil".toList] := by
  obtain ⟨front, w, hw, rfl, rfl⟩ := nullableBase?_eq_some_iff.mp h
  -- The last alternative opens and closes nothing, so no bracket is open in front of it.
  have hlast : isBalanced (nilAlternative w) = true := by
    obtain rfl | rfl := hw <;> decide
  have hfront : openAfter 0 front = 0 := by
    have hsame := openAfter_of_closesFrom hlast (openAfter 0 front)
    rw [Nat.zero_add, ← openAfter_append, hopen] at hsame
    exact hsame.symm
  refine ⟨ht.of_isInfix ((Text.isInfix_strip front).trans (List.prefix_append front _).isInfix) (Text.strip_strip front),
    by rwa [openAfter_strip], ?_⟩
  rw [topParts_append_nilAlternative hfront (isBlank_of_spaces (mem_of_one_space hw)), topParts, topParts, topPartsBy_strip]

/-- `nil` alone declares no value. -/
theorem declaredType_nil : declaredType "nil" = "void".toList := by decide

/-- Of a few texts and repetitions of another one, without repeats, one is left alone or the repeated one is last. -/
theorem joinDistinct_append_replicate {separator a b : Text} {first : List Text} (hfirst : first.length ≤ 1) (k : Nat)
    (ha : a ∈ first ++ List.replicate k b) :
    Text.joinDistinct separator (first ++ List.replicate k b) = a ∨
      b <:+ Text.joinDistinct separator (first ++ List.replicate k b) := by
  induction k generalizing a with
  | zero =>
    rw [List.replicate_zero, List.append_nil] at ha ⊢
    obtain ⟨x, rfl⟩ := List.length_eq_one_iff.mp (le_antisymm hfirst (List.length_pos_of_mem ha))
    obtain rfl := List.mem_singleton.mp ha
    exact .inl (Text.joinDistinct_singleton separator a)
  | succ k ih =>
    rw [List.replicate_succ', ← List.append_assoc] at ha ⊢
    by_cases hb : b ∈ first ++ List.replicate k b
    · rw [Text.joinDistinct_concat_of_mem hb]
      obtain hmem | hmem := List.mem_append.mp ha
      · exact ih hmem
      · rw [List.mem_singleton.mp hmem]
        exact ih hb
    · refine .inr ?_
      by_cases hne : first ++ List.replicate k b = []
      · rw [hne, List.nil_append, Text.joinDistinct_singleton]
      · rw [Text.joinDistinct_concat_of_not_mem hne hb]
        exact List.suffix_append _ _

/-- The alternatives of a type are `nil` but for one, or without repeats they are no longer than its declared type. -/
theorem topParts_eq_or_length_le (ht : IsBare t) (hopen : openAfter 0 t = 0) :
    (∃ first k, first.length ≤ 1 ∧ topParts '|' t = first ++ List.replicate k "nil".toList) ∨
      (Text.joinDistinct " | " ((topParts '|' t).map declaredType)).length ≤ (declaredType t).length := by
  -- The base of a nullable text has all its alternatives but the last, and it is shorter than the text.
  induction hlen : t.length using Nat.strong_induction_on generalizing t with
  | _ n ih =>
    by_cases hseveral : 2 ≤ (topParts '|' t).length
    · cases hnull : nullableBase? t with
      | none =>
        rw [declaredType_of_several ht hnull hseveral]
        exact .inr le_rfl
      | some base =>
        obtain ⟨hbare, hclosed, hparts⟩ := topParts_of_nullableBase? ht hopen hnull
        rw [hparts, declaredType_of_nullableBase? ht hnull]
        obtain ⟨first, k, hfirst, hall⟩ | hle := ih _ (hlen ▸ length_of_nullableBase? hnull) hbare hclosed rfl
        · refine .inl ⟨first, k + 1, hfirst, ?_⟩
          rw [hall, List.append_assoc, ← List.replicate_succ']
        · -- The alternative makes the others no longer than the mark of null does.
          refine .inr ?_
          have hadded := Text.length_joinDistinct_concat_le " | " ((topParts '|' base).map declaredType) "void"
          have hmarks : (" | ".toList ++ "void".toList).length = " | null".toList.length := rfl
          rw [List.map_append, List.map_singleton, declaredType_nil, List.length_append]
          omega
    · refine .inl ⟨topParts '|' t, 0, by omega, ?_⟩
      rw [List.replicate_zero, List.append_nil]

/-- The alternatives without repeats are one of them alone, or end with no value, or are no longer than the declared
type. -/
theorem joinDistinct_topParts_cases (ht : IsBare t) (hopen : openAfter 0 t = 0) {a : Text}
    (ha : a ∈ (topParts '|' t).map declaredType) :
    Text.joinDistinct " | " ((topParts '|' t).map declaredType) = a ∨
      "void".toList <:+ Text.joinDistinct " | " ((topParts '|' t).map declaredType) ∨
      (Text.joinDistinct " | " ((topParts '|' t).map declaredType)).length ≤ (declaredType t).length := by
  obtain ⟨first, k, hfirst, hall⟩ | hle := topParts_eq_or_length_le ht hopen
  · have hmap : (topParts '|' t).map declaredType = first.map declaredType ++ List.replicate k "void".toList := by
      rw [hall, List.map_append, List.map_replicate, declaredType_nil]
    rw [hmap] at ha ⊢
    exact (joinDistinct_append_replicate (by rwa [List.length_map]) k ha).imp_right .inl
  · exact .inr (.inr hle)

/-! ## Any number of blanks -/

/-- A last alternative `nil` ends in its last letter. -/
theorem getLast?_append_nilAlternative (t w : Text) : (t ++ nilAlternative w).getLast? = some 'l' := by
  have hlast : t ++ nilAlternative w = (t ++ '|' :: w) ++ "nil".toList := (List.append_assoc t ('|' :: w) _).symm
  rw [hlast, List.getLast?_append]
  rfl

/-- Blanks other than one space make a text with a last alternative `nil` one that is not nullable. -/
theorem nullableBase?_append_nilAlternative (hw : ∀ c ∈ w, c = ' ' ∨ c = '\t') (hother : ¬ (w = [] ∨ w = " ".toList)) :
    nullableBase? (t ++ nilAlternative w) = none := by
  have hbar : ∀ v : Text, (∀ c ∈ v, c = ' ' ∨ c = '\t') → '|' ∉ v ++ "nil".toList := by
    intro v hv hmem
    obtain hmem | hmem := List.mem_append.mp hmem
    · obtain h | h := hv _ hmem <;> exact absurd h (by decide)
    · exact absurd hmem (by decide)
  rw [Option.eq_none_iff_forall_ne_some]
  rintro base hbase
  obtain ⟨front, v, hv, heq, -⟩ := nullableBase?_eq_some_iff.mp hbase
  -- Both endings start at the last bar of the text.
  rw [nilAlternative_eq, nilAlternative_eq] at heq
  have hsame : w = v := List.append_cancel_right (Text.eq_of_append_cons heq (hbar w hw) (hbar v (mem_of_one_space hv)))
  exact hother (hsame ▸ hv)

/-- Behind bars and blanks alone a last alternative `nil` that is not nullable makes no union: the text names itself. -/
theorem declaredType_bars_nilAlternative (ht : IsBare t) (hne : t ≠ []) (hopen : openAfter 0 t = 0)
    (hbars : topParts '|' t = []) (hw : ∀ c ∈ w, c = ' ' ∨ c = '\t') (hother : ¬ (w = [] ∨ w = " ".toList)) :
    declaredType (t ++ nilAlternative w) = t ++ nilAlternative w := by
  have hbar : '|' ∈ t ++ nilAlternative w := List.mem_append_right t List.mem_cons_self
  have hlast := getLast?_append_nilAlternative t w
  have hvoid := not_void_of_not_isWordChar hbar (by decide)
  have hnull := nullableBase?_append_nilAlternative (t := t) hw hother
  have hbasic := lookup_basicTypes_of_not_isWordChar hbar (by decide)
  have hopt := optionalBase?_of_getLast? hlast (by decide)
  have hunion : unionParts? (t ++ nilAlternative w) = none := by
    rw [unionParts?, topParts_append_nilAlternative hopen (isBlank_of_spaces hw), hbars]
    rfl
  have henclosed : enclosed? (t ++ nilAlternative w) = none :=
    enclosed?_of_getLast? fun heq => absurd (Option.some.inj (hlast.symm.trans heq)) (by decide)
  have harray := arrayElement?_of_getLast? hlast (by decide)
  have hrecord := recordParts?_of_getLast? hlast (by decide)
  -- Bars and blanks do not start the name of a function type.
  have hfun : isFunctionText (t ++ nilAlternative w) = false := by
    obtain ⟨c, u, rfl⟩ := List.exists_cons_of_ne_nil hne
    have hc : 'f' ≠ c := by
      rintro rfl
      have hfirst := isBlank_or_of_topPartsBy_eq_nil hbars 'f' List.mem_cons_self
      exact absurd hfirst (by decide)
    simp [isFunctionText, Text.startsWith, List.isPrefixOf, hc]
  have hform : View.ofBare (t ++ nilAlternative w) = .name (t ++ nilAlternative w) := by
    simp only [View.ofBare, hvoid, hnull, hbasic, hopt, hunion, henclosed, harray, hrecord, hfun, Bool.false_eq_true,
      if_false]
  rw [declaredType_of_isBare (isBare_append_nilAlternative ht hne hw), hform]
  rfl

/-- Behind an alternative a last alternative `nil` that is not nullable is one of the alternatives of a union. -/
theorem declaredType_union_nilAlternative (ht : IsBare t) (hne : t ≠ []) (hopen : openAfter 0 t = 0)
    (hparts : topParts '|' t ≠ []) (hw : ∀ c ∈ w, c = ' ' ∨ c = '\t') (hother : ¬ (w = [] ∨ w = " ".toList)) :
    declaredType (t ++ nilAlternative w) =
      Text.joinDistinct " | " ((topParts '|' t).map declaredType ++ ["void".toList]) := by
  have hall := topParts_append_nilAlternative hopen (isBlank_of_spaces hw)
  have hseveral : 2 ≤ (topParts '|' (t ++ nilAlternative w)).length := by
    have hpos := List.length_pos_of_ne_nil hparts
    rw [hall, List.length_append, List.length_singleton]
    omega
  rw [declaredType_of_several (isBare_append_nilAlternative ht hne hw)
    (nullableBase?_append_nilAlternative hw hother) hseveral, hall, List.map_append, List.map_singleton, declaredType_nil]

/-- What may be null ends so. -/
theorem isSuffix_null (t : Text) : "null".toList <:+ t ++ " | null".toList :=
  List.IsSuffix.trans (by decide) (List.suffix_append t _)

/-- A union with `nil` among its alternatives is not declared as the others or null. -/
theorem joinDistinct_void_ne (ht : IsBare t) (hopen : openAfter 0 t = 0) (hparts : topParts '|' t ≠ []) :
    Text.joinDistinct " | " ((topParts '|' t).map declaredType ++ ["void".toList]) ≠
      declaredType t ++ " | null".toList := by
  -- What ends in the absent value does not end in null.
  have hends : ∀ s : Text, "void".toList <:+ s → s ≠ declaredType t ++ " | null".toList := by
    intro s hs heq
    rw [heq] at hs
    exact absurd (Text.eq_of_isSuffix hs (isSuffix_null _) (by decide)) (by decide)
  by_cases hvoid : "void".toList ∈ (topParts '|' t).map declaredType
  · rw [Text.joinDistinct_concat_of_mem hvoid]
    obtain hone | hlast | hle := joinDistinct_topParts_cases ht hopen hvoid
    · exact hends _ (hone ▸ List.suffix_refl _)
    · exact hends _ hlast
    · intro heq
      rw [heq, List.length_append] at hle
      exact absurd hle (by simp)
  · rw [Text.joinDistinct_concat_of_not_mem (by simpa using hparts) hvoid]
    exact hends _ (List.suffix_append _ _)

/-- **A last alternative `nil`.** With one space behind its bar or none, a last alternative `nil` makes every type
nullable. With any other blanks it does not, when the type closes its brackets: behind bars alone the text names
itself, and otherwise it is a union in which `nil` declares no value. -/
theorem declaredType_trailing_nil (ht : IsBare t) (hne : t ≠ []) (hw : ∀ c ∈ w, c = ' ' ∨ c = '\t') :
    ((w = [] ∨ w = " ".toList) → declaredType (t ++ nilAlternative w) = declaredType t ++ " | null".toList) ∧
      (¬ (w = [] ∨ w = " ".toList) → openAfter 0 t = 0 →
        declaredType (t ++ nilAlternative w) =
            (if topParts '|' t = [] then t ++ nilAlternative w
              else Text.joinDistinct " | " ((topParts '|' t).map declaredType ++ ["void".toList])) ∧
          declaredType (t ++ nilAlternative w) ≠ declaredType t ++ " | null".toList) := by
  refine ⟨declaredType_nil_alternative ht hne, fun hother hopen => ?_⟩
  by_cases hparts : topParts '|' t = []
  · have hname := declaredType_bars_nilAlternative ht hne hopen hparts hw hother
    rw [hname, if_pos hparts]
    refine ⟨rfl, fun heq => ?_⟩
    -- The one text ends in `nil` and the other in `null`, so their last three letters differ.
    have hnil : "nil".toList <:+ t ++ nilAlternative w :=
      (List.suffix_append ('|' :: w) "nil".toList).trans (List.suffix_append t _)
    have hnull : "ull".toList <:+ t ++ nilAlternative w := by
      rw [heq]
      exact List.IsSuffix.trans (by decide) (isSuffix_null _)
    exact absurd (Text.eq_of_isSuffix hnil hnull (by decide)) (by decide)
  · rw [declaredType_union_nilAlternative ht hne hopen hparts hw hother, if_neg hparts]
    exact ⟨rfl, joinDistinct_void_ne ht hopen hparts⟩

/-- Two spaces are nothing but spaces. -/
theorem mem_two_spaces : ∀ c ∈ "  ".toList, c = ' ' ∨ c = '\t' :=
  List.forall_mem_cons.mpr ⟨.inl rfl, List.forall_mem_singleton.mpr (.inl rfl)⟩

/-- No blank and one space make a union nullable, and two spaces leave it a union. -/
theorem declaredType_trailing_nil_of_union :
    declaredType "string|number|nil" = "string | number | null".toList ∧
      declaredType "string|number| nil" = "string | number | null".toList ∧
      declaredType "string|number|  nil" = "string | number | void".toList ∧
      declaredType "string|number|  nil" ≠ declaredType "string|number" ++ " | null".toList := by
  have ht : IsBare "string|number".toList := ⟨by decide, by decide, by decide⟩
  have hdeclared : declaredType "string|number" = "string | number".toList := by decide +kernel
  obtain ⟨hone, -⟩ := declaredType_trailing_nil (w := []) ht (by decide) (List.forall_mem_nil _)
  obtain ⟨hspace, -⟩ := declaredType_trailing_nil (w := " ".toList) ht (by decide) (List.forall_mem_singleton.mpr (.inl rfl))
  obtain ⟨-, hmore⟩ := declaredType_trailing_nil (w := "  ".toList) ht (by decide) mem_two_spaces
  obtain ⟨hunion, hother⟩ := hmore (by decide) (by decide)
  rw [hdeclared] at hone hspace
  refine ⟨hone (.inl rfl), hspace (.inr rfl), hunion.trans ?_, hother⟩
  decide +kernel

/-- Behind two spaces a last alternative `nil` does not mean null. -/
theorem declaredType_trailing_nil_differently :
    ¬ ∀ t w : Text, IsBare t → t ≠ [] → (∀ c ∈ w, c = ' ' ∨ c = '\t') →
      declaredType (t ++ nilAlternative w) = declaredType t ++ " | null".toList := by
  intro h
  have hspaces := h "string" "  " ⟨by decide, by decide, by decide⟩ (by decide) mem_two_spaces
  exact absurd hspaces (by decide +kernel)

end LuaTypings.TypeText
