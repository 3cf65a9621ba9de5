import LuaTypings.Proofs.TypeText.Form
import LuaTypings.Proofs.TypeText.TreeText

/-!
# The declared type of a tree's text is its meaning

The text of a writable tree is read form by form, never as a tree. `declaredType_toText` shows that the declared type of
the text is nevertheless the meaning of the tree.

Each form of the text is found as it was written (`ofBare_table`, `ofBare_group`, `ofBare_tuple`, `ofBare_array`,
`ofBare_optional`, `ofBare_union`), and its operands are the texts of the parts. Alternatives with `nil` at their end
lose it first (`ofBare_nullable`), so that their meaning goes by induction from the last alternative to the first
(`declaredType_join`).
-/

namespace LuaTypings.TypeText

namespace Tree

/-! ## The forms of the texts -/

/-- The texts of writable trees that a separator does not break are read back one by one. -/
theorem topParts_join_toText {separator : Char} (hsep : isTopSeparator (· == separator) 0 separator = true)
    (hblank : Text.isBlank separator = false) {ts : List Tree}
    (h : ∀ t ∈ ts, t.isWritable = true ∧ isUnbroken (· == separator) 0 t.toText = true) :
    topParts separator (Text.join [separator] (ts.map toText)) = ts.map toText := by
  refine topPartsBy_join hsep (by simp) (fun b hb => beq_false_of_ne ?_) (fun r hr => ?_) fun r hr => ?_
  · rintro rfl
    rw [hb] at hblank
    contradiction
  · obtain ⟨t, ht, rfl⟩ := List.mem_map.mp hr
    exact ⟨(compact_toText (h t ht).1).balanced, (h t ht).2⟩
  · obtain ⟨t, ht, rfl⟩ := List.mem_map.mp hr
    have hcompact := compact_toText (h t ht).1
    exact ⟨hcompact.ne_nil, hcompact.strip_eq⟩

/-- A tree without alternatives is not broken by a bar. -/
theorem unionParts?_toText {t : Tree} (h : t.isWritable = true) (hunion : t.isUnion = false) :
    unionParts? t.toText = none := by
  have hcompact := compact_toText h
  have hbar : isUnbroken (· == '|') 0 t.toText = true :=
    isUnbroken_toText (by decide) (by decide) h fun hu => by simp [hunion] at hu
  exact unionParts?_of_isUnbroken hbar hcompact.ne_nil hcompact.strip_eq

/-- The text of a table has the form of a record, with the texts of its keys and values. -/
theorem ofBare_table {key value : Tree} (h : (table key value).isWritable = true) :
    View.ofBare (table key value).toText = .record key.toText value.toText := by
  have hlast := getLast?_table key value
  have hunion : unionParts? (table key value).toText = none := unionParts?_toText h rfl
  have henclosed : enclosed? (table key value).toText = none := enclosed?_of_getLast? (by simp [hlast])
  have harray : arrayElement? (table key value).toText = none := arrayElement?_of_getLast? hlast (by decide)
  have hparts : topParts ',' (key.toText ++ ',' :: value.toText) = [key.toText, value.toText] := by
    have hjoin : key.toText ++ ',' :: value.toText = Text.join [','] ([key, value].map toText) := by
      simp [Text.join_cons_cons, Text.join_singleton]
    rw [isWritable, Bool.and_eq_true] at h
    rw [hjoin]
    refine topParts_join_toText (by decide) (by decide) fun t ht => ?_
    rw [List.mem_cons, List.mem_singleton] at ht
    rcases ht with rfl | rfl
    · exact ⟨h.1, isUnbroken_comma_toText h.1⟩
    · exact ⟨h.2, isUnbroken_comma_toText h.2⟩
  have hrecord : recordParts? (table key value).toText = some (key.toText, value.toText) := by
    have hstart : Text.dropStart? "table<".toList (table key value).toText =
        some ((key.toText ++ ',' :: value.toText) ++ ['>']) := by
      rw [Text.dropStart?_eq_some_iff, toText_table]
      simp
    have hend : Text.dropEnd? ">".toList ((key.toText ++ ',' :: value.toText) ++ ['>']) =
        some (key.toText ++ ',' :: value.toText) := Text.dropEnd?_append ['>'] _
    simp only [recordParts?, hstart, Option.bind_eq_bind, Option.bind_some, hend, hparts]
  rw [ofBare_of_closed hlast (by decide) hunion, henclosed, harray, hrecord]

/-- The text of a group encloses the text of what is grouped. -/
theorem ofBare_group {inner : Tree} (h : (group inner).isWritable = true) :
    View.ofBare (group inner).toText = .group inner.toText := by
  have hinner := compact_toText (t := inner) h
  have hlast := getLast?_group inner
  have hparts : topParts ',' inner.toText = [inner.toText] :=
    topPartsBy_of_isUnbroken (isUnbroken_comma_toText h) hinner.ne_nil hinner.strip_eq
  rw [ofBare_of_closed hlast (by decide) (unionParts?_toText h rfl), toText_group,
    enclosed?_of_isBalanced hinner.balanced]
  simp only [View.ofEnclosed, hparts]

/-- The text of a tuple encloses the texts of its parts. -/
theorem ofBare_tuple {parts : List Tree} (h : (tuple parts).isWritable = true) :
    View.ofBare (tuple parts).toText = .tuple (parts.map toText) := by
  have hlast := getLast?_tuple parts
  have hunion := unionParts?_toText h rfl
  rw [isWritable, Bool.and_eq_true, decide_eq_true_eq, areWritable_iff] at h
  have hbalanced : isBalanced (Text.join ",".toList (parts.map toText)) = true := by
    refine isBalanced_join compact_comma.balanced fun r hr => ?_
    obtain ⟨t, ht, rfl⟩ := List.mem_map.mp hr
    exact (compact_toText (h.2 t ht)).balanced
  have hparts : topParts ',' (Text.join ",".toList (parts.map toText)) = parts.map toText := by
    exact topParts_join_toText (by decide) (by decide) fun t ht => ⟨h.2 t ht, isUnbroken_comma_toText (h.2 t ht)⟩
  rw [ofBare_of_closed hlast (by decide) hunion, toText_tuple, enclosed?_of_isBalanced hbalanced]
  exact ofEnclosed_of_several hparts (by rw [List.length_map]; exact h.1)

/-- The text of an array ends in a pair of square brackets behind the text of its element. -/
theorem ofBare_array {element : Tree} (h : (array element).isWritable = true) :
    View.ofBare (array element).toText = .array element.toText := by
  have hlast := getLast?_array element
  have hunion := unionParts?_toText h rfl
  have henclosed : enclosed? (array element).toText = none := enclosed?_of_getLast? (by simp [hlast])
  rw [isWritable, Bool.and_eq_true] at h
  have harray : arrayElement? (array element).toText = some element.toText := by
    have hend : Text.dropEnd? "[]".toList (array element).toText = some element.toText :=
      Text.dropEnd?_append ['[', ']'] _
    rw [arrayElement?, hend]
    have hne := (compact_toText h.1).ne_nil
    split
    · rename_i heq
      exact absurd (Option.some.inj heq) hne
    · rfl
  rw [ofBare_of_closed hlast (by decide) hunion, henclosed, harray]

/-- The text of an optional type ends in a question mark behind the text of its base. -/
theorem ofBare_optional {base : Tree} (h : (optional base).isWritable = true) :
    View.ofBare (optional base).toText = .optional base.toText := by
  have hlast := getLast?_optional base
  have hmem := List.mem_of_mem_getLast? hlast
  have hnull := nullableBase?_of_getLast? hlast (by decide)
  rw [isWritable, Bool.and_eq_true, Bool.not_eq_true'] at h
  have hopt : optionalBase? (optional base).toText = some base.toText := optionalBase?_concat (by simpa using h.2)
  rw [View.ofBare, not_void_of_not_isWordChar hmem (by decide), hnull,
    lookup_basicTypes_of_not_isWordChar hmem (by decide), hopt]
  rfl

/-- A last alternative other than `nil` leaves a type that is not nullable. -/
theorem nullableBase?_of_not_isNil {front : Text} {last : Tree} (hfront : Compact front)
    (hlast : last.isWritable = true) (hunion : last.isUnion = false) (hnil : last.isNil = false) :
    nullableBase? (front ++ '|' :: last.toText) = none := by
  have hends : ∀ c, last.toText.getLast? = some c → c ≠ 'l' → nullableBase? (front ++ '|' :: last.toText) = none := by
    intro c hc hne
    refine nullableBase?_of_getLast? (c := c) ?_ hne
    rw [List.getLast?_append, List.getLast?_cons, hc]
    rfl
  cases last with
  | name word =>
    -- Only a name can end as `nil` does, and then the whole of it would be `nil`.
    have hcompact : Compact (front ++ '|' :: word) := hfront.append (compact_bar.append (Compact.of_isWord hlast))
    have hspaced : Text.dropEnd? "| nil".toList (front ++ '|' :: word) = none :=
      Text.dropEnd?_eq_none_of_not_mem (fun hmem => absurd (hcompact.not_blank ' ' hmem) (by decide)) (by decide)
    have hplain : Text.dropEnd? "|nil".toList (front ++ '|' :: word) = none := by
      rw [Option.eq_none_iff_forall_ne_some]
      intro rest hrest
      have heq : front ++ '|' :: word = rest ++ '|' :: "nil".toList := Text.dropEnd?_eq_some_iff.mp hrest
      have hword := Text.eq_of_append_cons heq (Text.not_mem_of_isWord hlast (by decide)) (by decide)
      rw [isNil, decide_eq_false_iff_not] at hnil
      exact hnil hword
    have hnone : nullableBase? (front ++ '|' :: word) = none := by
      rw [nullableBase?, hspaced, hplain]
      rfl
    exact hnone
  | table key value => exact hends '>' (getLast?_table key value) (by decide)
  | group inner => exact hends ')' (getLast?_group inner) (by decide)
  | tuple parts => exact hends ')' (getLast?_tuple parts) (by decide)
  | array element => exact hends ']' (getLast?_array element) (by decide)
  | optional base => exact hends '?' (getLast?_optional base) (by decide)
  | union members => simp [isUnion] at hunion

/-- Alternatives with `nil` at their end are nullable. -/
theorem ofBare_nullable {members : List Tree} (hne : members ≠ []) (h : ∀ t ∈ members, t.isWritable = true) :
    View.ofBare (Text.join "|".toList (members.map toText) ++ "|nil".toList) =
      .nullable (Text.join "|".toList (members.map toText)) := by
  have hcompact := compact_join hne h
  generalize Text.join "|".toList (members.map toText) = front at hcompact ⊢
  have hmem : '|' ∈ front ++ "|nil".toList := List.mem_append_right front (by decide)
  have hnull : nullableBase? (front ++ "|nil".toList) = some front := by
    have hspaced : Text.dropEnd? "| nil".toList (front ++ "|nil".toList) = none := by
      refine Text.dropEnd?_eq_none_of_not_mem (c := ' ') (fun hspace => ?_) (by decide)
      rcases List.mem_append.mp hspace with hfront | hnil
      · exact absurd (hcompact.not_blank ' ' hfront) (by decide)
      · exact absurd hnil (by decide)
    rw [nullableBase?, hspaced, Text.dropEnd?_append]
    exact congrArg some hcompact.strip_eq
  rw [View.ofBare, not_void_of_not_isWordChar hmem (by decide), hnull]
  rfl

/-- Other alternatives are found as they were written. -/
theorem ofBare_union {members : List Tree} {last : Tree} (hne : members ≠ [])
    (h : ∀ t ∈ members ++ [last], t.isWritable = true ∧ t.isUnion = false) (hnil : last.isNil = false) :
    View.ofBare (Text.join "|".toList ((members ++ [last]).map toText)) = .union ((members ++ [last]).map toText) := by
  have hmembers : ∀ t ∈ members, t.isWritable = true := fun t ht => (h t (List.mem_append_left _ ht)).1
  have hlast := h last (List.mem_append_right members List.mem_cons_self)
  have htext : Text.join "|".toList ((members ++ [last]).map toText) =
      Text.join "|".toList (members.map toText) ++ '|' :: last.toText := by
    rw [List.map_append, List.map_singleton, Text.join_concat _ (by simpa using hne)]
    simp
  have hmem : '|' ∈ Text.join "|".toList ((members ++ [last]).map toText) := by
    rw [htext]
    exact List.mem_append_cons_self
  have hnull : nullableBase? (Text.join "|".toList ((members ++ [last]).map toText)) = none := by
    rw [htext]
    exact nullableBase?_of_not_isNil (compact_join hne hmembers) hlast.1 hlast.2 hnil
  have hopt : optionalBase? (Text.join "|".toList ((members ++ [last]).map toText)) = none := by
    rw [optionalBase?, if_pos (List.contains_iff_mem.mpr hmem)]
  have hunion : unionParts? (Text.join "|".toList ((members ++ [last]).map toText)) =
      some ((members ++ [last]).map toText) := by
    refine unionParts?_of_several (topParts_join_toText (by decide) (by decide) fun t ht => ?_) ?_
    · refine ⟨(h t ht).1, isUnbroken_toText (by decide) (by decide) (h t ht).1 fun hu => ?_⟩
      simp [(h t ht).2] at hu
    · have hpos := List.length_pos_of_ne_nil hne
      simp
      omega
  rw [View.ofBare, not_void_of_not_isWordChar hmem (by decide), hnull,
    lookup_basicTypes_of_not_isWordChar hmem (by decide), hopt, hunion]
  rfl

/-! ## The meaning -/

/-- What a table means. -/
theorem meaning_table (key value : Tree) :
    (table key value).meaning = "Record<".toList ++ key.meaning ++ ", ".toList ++ value.meaning ++ ">".toList := rfl

/-- What a tuple means. -/
theorem meaning_tuple (parts : List Tree) : (tuple parts).meaning = severalReturns (parts.map meaning) := by
  have hparts : (meanings parts).map (·.2) = parts.map meaning := by
    rw [meanings_eq_map, List.map_map]
    rfl
  rw [← hparts]
  rfl

/-- What a group means. -/
theorem meaning_group (inner : Tree) : (group inner).meaning = inner.meaning := rfl

/-- What an array means. -/
theorem meaning_array (element : Tree) : (array element).meaning = View.renderArray element.meaning := rfl

/-- What an optional type means. -/
theorem meaning_optional (base : Tree) : (optional base).meaning = base.meaning ++ " | undefined".toList := rfl

/-- What alternatives mean. -/
theorem meaning_union (members : List Tree) :
    (union members).meaning = unionMeaning (members.map fun t => (t.isNil, t.meaning)).reverse := by
  rw [← meanings_eq_map]
  rfl

/-- The declared type of a compact text is what its form renders. -/
theorem declaredType_of_ofBare {t : Text} (h : Compact t) {v : View} (hv : View.ofBare t = v) :
    declaredType t = v.render declaredType := by
  rw [declaredType_eq, View.ofText, withoutComment_of_not_blank h.not_blank, hv]

/-- The declared type of a word is its meaning. -/
theorem declaredType_name {word : Text} (h : Text.isWord word = true) : declaredType word = nameMeaning word := by
  rw [declaredType_of_ofBare (Compact.of_isWord h) (ofBare_of_isWord h), nameMeaning]
  split
  · rfl
  · cases basicTypes.lookup word <;> rfl

/-- The meaning of alternatives, the last of which is `nil`, is that of the others or null. -/
theorem unionMeaning_nil {rest : List (Bool × Text)} (hne : rest ≠ []) (meaning : Text) :
    unionMeaning ((true, meaning) :: rest) = unionMeaning rest ++ " | null".toList := by
  match rest, hne with
  | _ :: _, _ => rfl

/-- The meaning of other alternatives is what each of them means, repeated meanings once. -/
theorem unionMeaning_of_not_nil {rest : List (Bool × Text)} (hne : rest ≠ []) (meaning : Text) :
    unionMeaning ((false, meaning) :: rest) =
      Text.join " | ".toList ((((false, meaning) :: rest).reverse).map (·.2)).eraseDups := by
  match rest, hne with
  | _ :: _, _ => rfl

/-- The declared type of alternatives is their meaning. The induction takes the last alternative away, as reading
does with a `nil` there. -/
theorem declaredType_join {members : List Tree} (hne : members ≠ [])
    (h : ∀ t ∈ members, t.isWritable = true ∧ t.isUnion = false)
    (hmeaning : ∀ t ∈ members, declaredType t.toText = t.meaning) :
    declaredType (Text.join "|".toList (members.map toText)) =
      unionMeaning (members.map fun t => (t.isNil, t.meaning)).reverse := by
  induction members using List.reverseRecOn with
  | nil => exact absurd rfl hne
  | append_singleton members last ih =>
    have hmembers : ∀ t ∈ members, t.isWritable = true ∧ t.isUnion = false :=
      fun t ht => h t (List.mem_append_left _ ht)
    have hmeans : ∀ t ∈ members, declaredType t.toText = t.meaning :=
      fun t ht => hmeaning t (List.mem_append_left _ ht)
    by_cases hempty : members = []
    · -- A single alternative stands for itself.
      subst hempty
      rw [List.nil_append, List.map_singleton, Text.join_singleton]
      exact hmeaning last List.mem_cons_self
    have hcompact := compact_join hne fun t ht => (h t ht).1
    cases hnil : last.isNil with
    | true =>
      have hword : last.toText = "nil".toList := toText_of_isNil hnil
      have htext : Text.join "|".toList ((members ++ [last]).map toText) =
          Text.join "|".toList (members.map toText) ++ "|nil".toList := by
        rw [List.map_append, List.map_singleton, Text.join_concat _ (by simpa using hempty), hword, List.append_assoc]
        rfl
      have hview := ofBare_nullable hempty fun t ht => (hmembers t ht).1
      rw [htext] at hcompact ⊢
      rw [declaredType_of_ofBare hcompact hview, render_nullable, ih hempty hmembers hmeans, List.map_append,
        List.map_singleton, List.reverse_append, List.reverse_singleton, List.singleton_append, hnil,
        unionMeaning_nil (by simpa using hempty)]
    | false =>
      have hmap : ((members ++ [last]).map toText).map declaredType = (members ++ [last]).map meaning := by
        rw [List.map_map, Function.comp_def]
        exact List.map_congr_left hmeaning
      have hback : (members ++ [last]).map meaning =
          (((false, last.meaning) :: (members.map fun t => (t.isNil, t.meaning)).reverse).reverse).map (·.2) := by
        rw [List.reverse_cons, List.reverse_reverse, List.map_append, List.map_append, List.map_map]
        rfl
      have hends : ((members ++ [last]).map fun t => (t.isNil, t.meaning)).reverse =
          (false, last.meaning) :: (members.map fun t => (t.isNil, t.meaning)).reverse := by
        rw [List.map_append, List.map_singleton, List.reverse_append, List.reverse_singleton, List.singleton_append,
          hnil]
      rw [declaredType_of_ofBare hcompact (ofBare_union hempty h hnil), render_union, hmap, hends,
        unionMeaning_of_not_nil (by simpa using hempty), ← hback]

/-- The declared type of a table is its meaning, when its keys and values are declared as what they mean. -/
theorem declaredType_table {key value : Tree} (h : (table key value).isWritable = true)
    (hkey : declaredType key.toText = key.meaning) (hvalue : declaredType value.toText = value.meaning) :
    declaredType (table key value).toText = (table key value).meaning := by
  rw [declaredType_of_ofBare (compact_toText h) (ofBare_table h), render_record, hkey, hvalue, meaning_table]

/-- The declared type of a tuple is its meaning, when its parts are declared as what they mean. -/
theorem declaredType_tuple {parts : List Tree} (h : (tuple parts).isWritable = true)
    (hparts : ∀ t ∈ parts, declaredType t.toText = t.meaning) :
    declaredType (tuple parts).toText = (tuple parts).meaning := by
  have hmap : (parts.map toText).map declaredType = parts.map meaning := by
    rw [List.map_map, Function.comp_def]
    exact List.map_congr_left hparts
  rw [declaredType_of_ofBare (compact_toText h) (ofBare_tuple h), render_tuple, hmap, meaning_tuple]

/-- The declared type of alternatives is their meaning, when each of them is declared as what it means. -/
theorem declaredType_union {members : List Tree} (h : (union members).isWritable = true)
    (hmeaning : ∀ t ∈ members, declaredType t.toText = t.meaning) :
    declaredType (union members).toText = (union members).meaning := by
  rw [isWritable, Bool.and_eq_true, Bool.and_eq_true, decide_eq_true_eq, List.all_eq_true] at h
  have hne : members ≠ [] := by
    rintro rfl
    simp at h
  have hmembers : ∀ t ∈ members, t.isWritable = true ∧ t.isUnion = false :=
    fun t ht => ⟨areWritable_iff.mp h.1.2 t ht, by simpa using h.2 t ht⟩
  rw [toText_union, meaning_union]
  exact declaredType_join hne hmembers hmeaning

/-- The declared type of a writable tree's text is the tree's meaning. -/
theorem declaredType_toText (t : Tree) (h : t.isWritable = true) : declaredType t.toText = t.meaning := by
  induction t using forall_of_parts with
  | name word => exact declaredType_name h
  | table key value hkey hvalue =>
    have hparts := (Bool.and_eq_true _ _).mp h
    exact declaredType_table h (hkey hparts.1) (hvalue hparts.2)
  | group inner hinner =>
    rw [declaredType_of_ofBare (compact_toText h) (ofBare_group h), render_group, meaning_group]
    exact hinner h
  | tuple parts hparts =>
    have hwritable := areWritable_iff.mp ((Bool.and_eq_true _ _).mp h).2
    exact declaredType_tuple h fun t ht => hparts t ht (hwritable t ht)
  | array element helement =>
    have hwritable := (Bool.and_eq_true _ _).mp h
    rw [declaredType_of_ofBare (compact_toText h) (ofBare_array h), render_array, helement hwritable.1, meaning_array]
  | optional base hbase =>
    have hwritable := (Bool.and_eq_true _ _).mp ((Bool.and_eq_true _ _).mp h).1
    rw [declaredType_of_ofBare (compact_toText h) (ofBare_optional h), render_optional, hbase hwritable.1,
      meaning_optional]
  | union members hmembers =>
    have hwritable := areWritable_iff.mp ((Bool.and_eq_true _ _).mp ((Bool.and_eq_true _ _).mp h).1).2
    exact declaredType_union h fun t ht => hmembers t ht (hwritable t ht)

/-- A nullable choice of an array of alternatives, of a table with a tuple for its values, and of the array again. -/
theorem declaredType_nested_alternatives :
    (union [array (group (union [name "string", name "number", name "integer"])),
        table (name "string") (tuple [name "nil", optional (name "Unit")]),
        array (group (union [name "string", name "integer"])), name "nil"]).isWritable = true ∧
      declaredType "(string|number|integer)[]|table<string,(nil,Unit?)>|(string|integer)[]|nil" =
        "(string | number)[] | Record<string, LuaMultiReturn<[void, Unit | undefined]>> | null".toList :=
  ⟨by decide, (declaredType_toText
    (union [array (group (union [name "string", name "number", name "integer"])),
      table (name "string") (tuple [name "nil", optional (name "Unit")]),
      array (group (union [name "string", name "integer"])), name "nil"]) (by decide)).trans (by decide)⟩

end Tree

end LuaTypings.TypeText
