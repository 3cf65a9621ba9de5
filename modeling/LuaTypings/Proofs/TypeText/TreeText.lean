import LuaTypings.Proofs.TypeText.Balance
import LuaTypings.TypeText.Tree

/-!
# The texts of trees

The text of a writable tree is compact: not empty, balanced and without blanks (`compact_toText`). No separator stands
outside its brackets but the bars of alternatives (`isUnbroken_toText`), and its last character tells the form that the
tree has, unless it is a name or has alternatives.
-/

namespace LuaTypings.TypeText

/-- A text that is not empty, holds no blank and closes its brackets. -/
structure Compact (t : Text) : Prop where
  /-- Something is written. -/
  ne_nil : t ≠ []
  /-- Nothing that is written is blank. -/
  not_blank : ∀ c ∈ t, Text.isBlank c = false
  /-- The brackets are balanced. -/
  balanced : isBalanced t = true

namespace Compact

variable {s t : Text}

/-- A compact text is trimmed. -/
theorem strip_eq (h : Compact t) : Text.strip t = t := Text.strip_of_not_blank h.not_blank

/-- A word is compact. -/
theorem of_isWord (h : Text.isWord t = true) : Compact t :=
  ⟨(Text.isWord_iff.mp h).1, Text.isBlank_of_mem_isWord h, isBalanced_of_isWord h⟩

/-- Compact texts one after another are compact. -/
theorem append (hs : Compact s) (ht : Compact t) : Compact (s ++ t) where
  ne_nil := by simp [hs.ne_nil]
  not_blank := fun c hc => (List.mem_append.mp hc).elim (hs.not_blank c) (ht.not_blank c)
  balanced := isBalanced_append hs.balanced ht.balanced

/-- A compact text in a pair of brackets is compact. -/
theorem bracketed {o c : Char} (ho : isOpener o = true) (hc : isCloser c = true) (ho' : Text.isBlank o = false)
    (hc' : Text.isBlank c = false) (hs : Compact s) : Compact (o :: (s ++ [c])) where
  ne_nil := List.cons_ne_nil o _
  not_blank := by
    intro d hd
    rw [List.mem_cons, List.mem_append, List.mem_singleton] at hd
    rcases hd with rfl | hd | rfl
    · exact ho'
    · exact hs.not_blank d hd
    · exact hc'
  balanced := isBalanced_bracketed ho hc hs.balanced

/-- Compact texts with a compact separator between neighbours are compact. -/
theorem join (hs : Compact s) {parts : List Text} (hne : parts ≠ []) (h : ∀ r ∈ parts, Compact r) :
    Compact (Text.join s parts) :=
  Text.join_of_append (fun _ _ => append) hs hne h

/-- Whether a text is compact can be checked. -/
theorem of_check (h : (!t.isEmpty && t.all (!Text.isBlank ·) && isBalanced t) = true) : Compact t := by
  simp only [Bool.and_eq_true, Bool.not_eq_true', List.isEmpty_eq_false_iff, List.all_eq_true] at h
  exact ⟨h.1.1, h.1.2, h.2⟩

end Compact

/-- The separators of parts are compact texts themselves. -/
theorem compact_comma : Compact ",".toList := .of_check (by decide)

/-- The bar between alternatives is a compact text itself. -/
theorem compact_bar : Compact "|".toList := .of_check (by decide)

namespace Tree

/-- Induction over trees, in which what holds of the parts of a tuple or of alternatives holds of each of them. -/
theorem forall_of_parts {motive : Tree → Prop} (name : ∀ word, motive (name word))
    (table : ∀ key value, motive key → motive value → motive (table key value))
    (group : ∀ inner, motive inner → motive (group inner))
    (tuple : ∀ parts, (∀ t ∈ parts, motive t) → motive (tuple parts))
    (array : ∀ element, motive element → motive (array element))
    (optional : ∀ base, motive base → motive (optional base))
    (union : ∀ members, (∀ t ∈ members, motive t) → motive (union members)) (t : Tree) : motive t :=
  @Tree.rec motive (fun ts => ∀ t ∈ ts, motive t) name table group tuple array optional union (by simp)
    (fun _ _ ht hts => List.forall_mem_cons.mpr ⟨ht, hts⟩) t

/-! ## The texts of trees -/

/-- The texts of several trees are the texts of each. -/
theorem toTexts_eq_map (ts : List Tree) : toTexts ts = ts.map toText := by
  induction ts with
  | nil => rfl
  | cons t ts ih => exact congrArg (t.toText :: ·) ih

/-- The meanings of several trees are the meanings of each, with whether it is the absent value. -/
theorem meanings_eq_map (ts : List Tree) : meanings ts = ts.map fun t => (t.isNil, t.meaning) := by
  induction ts with
  | nil => rfl
  | cons t ts ih => exact congrArg ((t.isNil, t.meaning) :: ·) ih

/-- Several trees are writable when each of them is. -/
theorem areWritable_iff {ts : List Tree} : areWritable ts = true ↔ ∀ t ∈ ts, t.isWritable = true := by
  induction ts with
  | nil => simp [areWritable]
  | cons t ts ih => simp [areWritable, ih]

/-- What a table's text is made of. -/
theorem toText_table (key value : Tree) :
    (table key value).toText = "table".toList ++ '<' :: ((key.toText ++ ',' :: value.toText) ++ ['>']) := by
  have h : (table key value).toText = "table<".toList ++ key.toText ++ ",".toList ++ value.toText ++ ">".toList := rfl
  rw [h]
  simp

/-- The text of the absent value is its name. -/
theorem toText_of_isNil {t : Tree} (h : t.isNil = true) : t.toText = "nil".toList := by
  cases t with
  | name word => exact of_decide_eq_true h
  | _ => simp [isNil] at h

/-- What a tuple's text is made of. -/
theorem toText_tuple (parts : List Tree) :
    (tuple parts).toText = '(' :: (Text.join ",".toList (parts.map toText) ++ [')']) := by
  rw [← toTexts_eq_map]
  rfl

/-- What a group's text is made of. -/
theorem toText_group (inner : Tree) : (group inner).toText = '(' :: (inner.toText ++ [')']) := rfl

/-- What the text of alternatives is made of. -/
theorem toText_union (members : List Tree) :
    (union members).toText = Text.join "|".toList (members.map toText) := by
  rw [← toTexts_eq_map]
  rfl

/-- What an array's text is made of. -/
theorem toText_array (element : Tree) : (array element).toText = element.toText ++ ['[', ']'] := rfl

/-- What an optional type's text is made of. -/
theorem toText_optional (base : Tree) : (optional base).toText = base.toText ++ ['?'] := rfl

/-- The members of several trees with two parts or more are not missing. -/
theorem map_toText_ne_nil {ts : List Tree} (h : 2 ≤ ts.length) : ts.map toText ≠ [] := by
  rintro heq
  rw [List.map_eq_nil_iff] at heq
  simp [heq] at h

/-- The text of a writable tree is compact. -/
theorem compact_toText {t : Tree} (h : t.isWritable = true) : Compact t.toText := by
  induction t using forall_of_parts with
  | name word => exact Compact.of_isWord h
  | table key value hkey hvalue =>
    rw [isWritable, Bool.and_eq_true] at h
    have hinner : Compact (key.toText ++ ',' :: value.toText) :=
      (hkey h.1).append (compact_comma.append (hvalue h.2))
    rw [toText_table]
    exact (Compact.of_isWord (by decide)).append
      (Compact.bracketed (by decide) (by decide) (by decide) (by decide) hinner)
  | group inner hinner =>
    rw [toText_group]
    exact Compact.bracketed (by decide) (by decide) (by decide) (by decide) (hinner h)
  | tuple parts hparts =>
    rw [isWritable, Bool.and_eq_true, decide_eq_true_eq, areWritable_iff] at h
    rw [toText_tuple]
    refine Compact.bracketed (by decide) (by decide) (by decide) (by decide)
      (compact_comma.join (map_toText_ne_nil h.1) fun r hr => ?_)
    obtain ⟨t, ht, rfl⟩ := List.mem_map.mp hr
    exact hparts t ht (h.2 t ht)
  | array element helement =>
    rw [isWritable, Bool.and_eq_true] at h
    rw [toText_array]
    exact (helement h.1).append (.of_check (by decide))
  | optional base hbase =>
    rw [isWritable, Bool.and_eq_true, Bool.and_eq_true] at h
    rw [toText_optional]
    exact (hbase h.1.1).append (.of_check (by decide))
  | union members hmembers =>
    rw [isWritable, Bool.and_eq_true, Bool.and_eq_true, decide_eq_true_eq, areWritable_iff] at h
    rw [toText_union]
    refine compact_bar.join (map_toText_ne_nil h.1.1) fun r hr => ?_
    obtain ⟨t, ht, rfl⟩ := List.mem_map.mp hr
    exact hmembers t ht (h.1.2 t ht)

/-- The text of alternatives is compact. -/
theorem compact_join {members : List Tree} (hne : members ≠ []) (h : ∀ t ∈ members, t.isWritable = true) :
    Compact (Text.join "|".toList (members.map toText)) := by
  refine compact_bar.join (by simpa using hne) fun r hr => ?_
  obtain ⟨t, ht, rfl⟩ := List.mem_map.mp hr
  exact compact_toText (h t ht)

section Unbroken

variable {separator : Char}

/-- Unbroken balanced texts with another separator between neighbours are unbroken. -/
theorem isUnbroken_join {other : Text} (hother : isBalanced other = true ∧ isUnbroken (· == separator) 0 other = true)
    {parts : List Text} (hne : parts ≠ [])
    (h : ∀ r ∈ parts, isBalanced r = true ∧ isUnbroken (· == separator) 0 r = true) :
    isUnbroken (· == separator) 0 (Text.join other parts) = true := by
  have happend : ∀ s t : Text, (isBalanced s = true ∧ isUnbroken (· == separator) 0 s = true) →
      (isBalanced t = true ∧ isUnbroken (· == separator) 0 t = true) →
      isBalanced (s ++ t) = true ∧ isUnbroken (· == separator) 0 (s ++ t) = true := by
    rintro s t ⟨hs, hus⟩ ⟨ht, hut⟩
    rw [isUnbroken_append_of_isBalanced hs, hus, hut]
    exact ⟨isBalanced_append hs ht, rfl⟩
  exact (Text.join_of_append happend hother hne h).2

/-- A word is unbroken by a separator that no name holds. -/
theorem isUnbroken_of_isWord {w : Text} (h : Text.isWord w = true) (hsep : Text.isWordChar separator = false) :
    isUnbroken (· == separator) 0 w = true :=
  isUnbroken_of_not_mem (Text.not_mem_of_isWord h hsep) 0

/-- No separator stands outside the brackets of a tree's text, except for the bars between alternatives. -/
theorem isUnbroken_toText (hword : Text.isWordChar separator = false) (hmark : separator ≠ '?') {t : Tree}
    (h : t.isWritable = true) (hbar : t.isUnion = true → separator ≠ '|') :
    isUnbroken (· == separator) 0 t.toText = true := by
  induction t using forall_of_parts with
  | name word => exact isUnbroken_of_isWord h hword
  | table key value hkey hvalue =>
    rw [isWritable, Bool.and_eq_true] at h
    have hinner : isBalanced (key.toText ++ ',' :: value.toText) = true :=
      isBalanced_append (compact_toText h.1).balanced
        (isBalanced_append compact_comma.balanced (compact_toText h.2).balanced)
    have htable : Text.isWord "table".toList = true := by decide
    rw [toText_table, isUnbroken_append_of_isBalanced (isBalanced_of_isWord htable),
      isUnbroken_of_isWord htable hword, Bool.true_and]
    exact isUnbroken_bracketed (by decide) hinner '>'
  | group inner hinner =>
    have hcompact := compact_toText (t := inner) h
    rw [toText_group]
    exact isUnbroken_bracketed (by decide) hcompact.balanced ')'
  | tuple parts hparts =>
    rw [isWritable, Bool.and_eq_true, areWritable_iff] at h
    rw [toText_tuple]
    refine isUnbroken_bracketed (by decide) (isBalanced_join compact_comma.balanced fun r hr => ?_) ')'
    obtain ⟨t, ht, rfl⟩ := List.mem_map.mp hr
    exact (compact_toText (h.2 t ht)).balanced
  | array element helement =>
    rw [isWritable, Bool.and_eq_true, Bool.not_eq_true'] at h
    have hunbroken := helement h.1 fun hunion => by simp [h.2] at hunion
    rw [toText_array, isUnbroken_append_of_isBalanced (compact_toText h.1).balanced, hunbroken, Bool.true_and]
    exact isUnbroken_bracketed (s := []) (by decide) (by decide) ']'
  | optional base hbase =>
    -- No base is a choice of alternatives, so the separator may be a bar here, too.
    rw [isWritable, Bool.and_eq_true, Bool.and_eq_true, Bool.not_eq_true'] at h
    have hunbroken := hbase h.1.1 fun hunion => by simp [h.1.2] at hunion
    rw [toText_optional, isUnbroken_append_of_isBalanced (compact_toText h.1.1).balanced, hunbroken, Bool.true_and]
    exact isUnbroken_of_not_mem (by simpa using hmark) 0
  | union members hmembers =>
    rw [isWritable, Bool.and_eq_true, Bool.and_eq_true, decide_eq_true_eq, areWritable_iff] at h
    have hne : separator ≠ '|' := hbar rfl
    rw [toText_union]
    refine isUnbroken_join ⟨compact_bar.balanced, ?_⟩ (map_toText_ne_nil h.1.1) fun r hr => ?_
    · exact isUnbroken_of_not_mem (by simpa using hne) 0
    · obtain ⟨t, ht, rfl⟩ := List.mem_map.mp hr
      exact ⟨(compact_toText (h.1.2 t ht)).balanced, hmembers t ht (h.1.2 t ht) fun _ => hne⟩

end Unbroken

/-- A writable tree is not broken by a comma. -/
theorem isUnbroken_comma_toText {t : Tree} (h : t.isWritable = true) : isUnbroken (· == ',') 0 t.toText = true :=
  isUnbroken_toText (by decide) (by decide) h fun _ => by decide

/-! ## The ends of texts -/

/-- The last character of a text in brackets is the closer. -/
theorem getLast?_bracketed (o c : Char) (s : Text) : (o :: (s ++ [c])).getLast? = some c := by
  rw [← List.cons_append, List.getLast?_concat]

/-- The text of a table ends in an angle bracket. -/
theorem getLast?_table (key value : Tree) : (table key value).toText.getLast? = some '>' := by
  rw [toText_table, List.getLast?_append, getLast?_bracketed]
  rfl

/-- The text of a group ends in a parenthesis. -/
theorem getLast?_group (inner : Tree) : (group inner).toText.getLast? = some ')' := by
  rw [toText_group, getLast?_bracketed]

/-- The text of a tuple ends in a parenthesis. -/
theorem getLast?_tuple (parts : List Tree) : (tuple parts).toText.getLast? = some ')' := by
  rw [toText_tuple, getLast?_bracketed]

/-- The text of an array ends in a square bracket. -/
theorem getLast?_array (element : Tree) : (array element).toText.getLast? = some ']' := by
  rw [toText_array, List.getLast?_append]
  rfl

/-- The text of an optional type ends in a question mark. -/
theorem getLast?_optional (base : Tree) : (optional base).toText.getLast? = some '?' := by
  rw [toText_optional, List.getLast?_concat]

end Tree

end LuaTypings.TypeText
