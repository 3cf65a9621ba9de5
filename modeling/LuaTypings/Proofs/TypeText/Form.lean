import LuaTypings.Proofs.TypeText.Operands

/-!
# Which form a text has

The forms of a type are told apart by the ends of its text and by what stands outside its brackets. A last character
rules out every form that ends in another one (`nullableBase?_of_getLast?`, `optionalBase?_of_getLast?`,
`arrayElement?_of_getLast?`, `recordParts?_of_getLast?`), a text that no bar breaks has no alternatives
(`unionParts?_of_isUnbroken`), and a character that no name holds rules out the basic types
(`lookup_basicTypes_of_not_isWordChar`). A word is the absent value, a basic type or its own name (`ofBare_of_isWord`).
-/

namespace LuaTypings.TypeText

/-- A text without blanks has no comment. -/
theorem withoutComment_of_not_blank {t : Text} (h : ∀ c ∈ t, Text.isBlank c = false) : withoutComment t = t := by
  have hstrip : Text.strip t = t := Text.strip_of_not_blank h
  have hspace : ' ' ∉ t := fun hmem => absurd (h ' ' hmem) (by decide)
  have hdash : Text.before " --".toList t = t := Text.before_eq_self_of_not_mem hspace
  have hsign : Text.before "  #".toList t = t := Text.before_eq_self_of_not_mem hspace
  rw [withoutComment, hstrip, hdash, hstrip, hsign, hstrip]

/-! ## Forms that a last character rules out -/

section LastCharacter

variable {t : Text} {c : Char}

/-- Only a text that ends in the last letter of `nil` is nullable. -/
theorem nullableBase?_of_getLast? (h : t.getLast? = some c) (hc : c ≠ 'l') : nullableBase? t = none := by
  have hspaced : Text.dropEnd? "| nil".toList t = none := Text.dropEnd?_eq_none_of_getLast? h rfl hc
  have hplain : Text.dropEnd? "|nil".toList t = none := Text.dropEnd?_eq_none_of_getLast? h rfl hc
  rw [nullableBase?, hspaced, hplain]
  rfl

/-- Only a text that ends in a question mark is optional. -/
theorem optionalBase?_of_getLast? (h : t.getLast? = some c) (hc : c ≠ '?') : optionalBase? t = none := by
  have hmark : Text.dropEnd? "?".toList t = none := Text.dropEnd?_eq_none_of_getLast? h rfl hc
  rw [optionalBase?, hmark, ite_self]

/-- Only a text that ends in a square bracket is an array. -/
theorem arrayElement?_of_getLast? (h : t.getLast? = some c) (hc : c ≠ ']') : arrayElement? t = none := by
  have hmark : Text.dropEnd? "[]".toList t = none := Text.dropEnd?_eq_none_of_getLast? h rfl hc
  rw [arrayElement?, hmark]

/-- Only a text that ends in an angle bracket is a table. -/
theorem recordParts?_of_getLast? (h : t.getLast? = some c) (hc : c ≠ '>') : recordParts? t = none := by
  rw [recordParts?]
  cases hstart : Text.dropStart? "table<".toList t with
  | none => rfl
  | some front =>
    have hend : Text.dropEnd? ">".toList front = none := Text.dropEnd?_of_dropStart? hstart h hc
    simp only [Option.bind_eq_bind, Option.bind_some, hend, Option.bind_none]

end LastCharacter

/-! ## Other rules -/

/-- A question mark behind a text without bars is read off. -/
theorem optionalBase?_concat {t : Text} (hbar : '|' ∉ t) : optionalBase? (t ++ ['?']) = some t := by
  have hnone : (t ++ ['?']).contains '|' = false := by
    rw [← Bool.not_eq_true, List.contains_iff_mem]
    simpa using hbar
  rw [optionalBase?, hnone]
  exact Text.dropEnd?_append ['?'] t

/-- The names of the basic types are words. -/
theorem isWord_of_mem_basicTypes : ∀ p ∈ basicTypes, Text.isWord p.1 = true := by
  decide

/-- A text with a character that no name holds is no basic type. -/
theorem lookup_basicTypes_of_not_isWordChar {t : Text} {c : Char} (hmem : c ∈ t) (hc : Text.isWordChar c = false) :
    basicTypes.lookup t = none := by
  rw [List.lookup_eq_none_iff]
  intro p hp
  rw [bne_iff_ne]
  rintro rfl
  exact Text.not_mem_of_isWord (isWord_of_mem_basicTypes p hp) hc hmem

/-- A text with a character that no name holds is neither empty nor `nil`. -/
theorem not_void_of_not_isWordChar {t : Text} {c : Char} (hmem : c ∈ t) (hc : Text.isWordChar c = false) :
    (decide (t = []) || decide (t = "nil".toList)) = false := by
  rw [Bool.or_eq_false_iff, decide_eq_false_iff_not, decide_eq_false_iff_not]
  constructor
  · rintro rfl
    simp at hmem
  · rintro rfl
    exact Text.not_mem_of_isWord (by decide) hc hmem

/-- A trimmed text that no bar breaks has no alternatives. -/
theorem unionParts?_of_isUnbroken {t : Text} (hu : isUnbroken (· == '|') 0 t = true) (hne : t ≠ [])
    (htrim : Text.strip t = t) : unionParts? t = none := by
  rw [unionParts?, topParts, topPartsBy_of_isUnbroken hu hne htrim]

/-- A bracket at the end of a text rules out the nullable and the optional types. -/
theorem ofBare_of_closed {t : Text} {c : Char} (hlast : t.getLast? = some c) (hcloser : isCloser c = true)
    (hunion : unionParts? t = none) :
    View.ofBare t =
      match enclosed? t with
      | some inner => View.ofEnclosed inner
      | none => match arrayElement? t with
      | some element => .array element
      | none => match recordParts? t with
      | some (key, value) => .record key value
      | none => if isFunctionText t then .callable (WrittenSignature.ofText? t) else .name t := by
  have hword : Text.isWordChar c = false := by
    rw [← Bool.not_eq_true]
    intro hc
    rw [(not_bracket_of_isWordChar hc).2] at hcloser
    contradiction
  have hmem := List.mem_of_mem_getLast? hlast
  have hnull := nullableBase?_of_getLast? hlast (by rintro rfl; simp [isCloser] at hcloser)
  have hopt := optionalBase?_of_getLast? hlast (by rintro rfl; simp [isCloser] at hcloser)
  rw [View.ofBare, not_void_of_not_isWordChar hmem hword, hnull, lookup_basicTypes_of_not_isWordChar hmem hword, hopt,
    hunion]
  rfl

/-- A text that no separator breaks does not end in a mark that one does. -/
theorem dropEnd?_of_isUnbroken {p : Char → Bool} {mark t : Text} (hmark : isBalanced mark = true)
    (hbroken : isUnbroken p 0 mark = false) (hs : isBalanced t = true) (hu : isUnbroken p 0 t = true) :
    Text.dropEnd? mark t = none := by
  rw [Option.eq_none_iff_forall_ne_some]
  intro front hfront
  rw [Text.dropEnd?_eq_some_iff] at hfront
  rw [hfront, isBalanced, closesFrom_append_of_isBalanced hmark] at hs
  rw [hfront, isUnbroken_append_of_isBalanced hs, hbroken, Bool.and_false] at hu
  cases hu

/-- A text that no bar breaks is not nullable. -/
theorem nullableBase?_of_isUnbroken {t : Text} (hs : isBalanced t = true) (hu : isUnbroken (· == '|') 0 t = true) :
    nullableBase? t = none := by
  have hspaced : Text.dropEnd? "| nil".toList t = none := dropEnd?_of_isUnbroken (by decide) (by decide) hs hu
  have hplain : Text.dropEnd? "|nil".toList t = none := dropEnd?_of_isUnbroken (by decide) (by decide) hs hu
  rw [nullableBase?, hspaced, hplain]
  rfl

/-- A list of two elements or more starts with two. -/
theorem exists_of_two_le_length {parts : List Text} (h : 2 ≤ parts.length) :
    ∃ first second more, parts = first :: second :: more := by
  rcases parts with _ | ⟨first, _ | ⟨second, more⟩⟩
  · simp at h
  · simp at h
  · exact ⟨first, second, more, rfl⟩

/-- Two alternatives or more are the alternatives of their text. -/
theorem unionParts?_of_several {t : Text} {parts : List Text} (h : topParts '|' t = parts) (hlen : 2 ≤ parts.length) :
    unionParts? t = some parts := by
  rw [unionParts?, h]
  obtain ⟨first, second, more, rfl⟩ := exists_of_two_le_length hlen
  rfl

/-- Two parts or more between parentheses are a tuple. -/
theorem ofEnclosed_of_several {inner : Text} {parts : List Text} (h : topParts ',' inner = parts)
    (hlen : 2 ≤ parts.length) : View.ofEnclosed inner = .tuple parts := by
  rw [View.ofEnclosed, h]
  obtain ⟨first, second, more, rfl⟩ := exists_of_two_le_length hlen
  rfl

/-- A word is no function type. -/
theorem isFunctionText_of_isWord {w : Text} (h : Text.isWord w = true) : isFunctionText w = false := by
  have hmark : ∀ mark : Text, ∀ d ∈ mark, Text.isWordChar d = false → Text.startsWith mark w = false := by
    intro mark d hd hword
    rw [← Bool.not_eq_true]
    intro hstart
    obtain ⟨rest, hrest⟩ := List.isPrefixOf_iff_prefix.mp hstart
    exact Text.not_mem_of_isWord h hword (hrest ▸ List.mem_append_left rest hd)
  rw [isFunctionText, hmark "fun(".toList '(' (by decide) (by decide),
    hmark "fun ".toList ' ' (by decide) (by decide)]
  rfl

/-- A word is the absent value, a basic type, or the name of a type. -/
theorem ofBare_of_isWord {w : Text} (h : Text.isWord w = true) :
    View.ofBare w =
      if w = "nil".toList then .void
      else match basicTypes.lookup w with
        | some type => .basic type
        | none => .name w := by
  have hne : w ≠ [] := (Text.isWord_iff.mp h).1
  obtain ⟨c, hlast⟩ : ∃ c, w.getLast? = some c := ⟨w.getLast hne, List.getLast?_eq_getLast_of_ne_nil hne⟩
  have hword : Text.isWordChar c = true := (Text.isWord_iff.mp h).2 c (List.mem_of_mem_getLast? hlast)
  have hbar : isUnbroken (· == '|') 0 w = true := isUnbroken_of_not_mem (Text.not_mem_of_isWord h (by decide)) 0
  have hnull := nullableBase?_of_isUnbroken (isBalanced_of_isWord h) hbar
  have hopt := optionalBase?_of_getLast? hlast (Text.ne_of_isWordChar hword (by decide))
  have hunion := unionParts?_of_isUnbroken hbar hne (Text.strip_of_isWord h)
  have henclosed : enclosed? w = none :=
    enclosed?_of_getLast? fun heq => Text.ne_of_isWordChar hword (by decide) (Option.some.inj (hlast ▸ heq))
  have harray := arrayElement?_of_getLast? hlast (Text.ne_of_isWordChar hword (by decide))
  have hrecord := recordParts?_of_getLast? hlast (Text.ne_of_isWordChar hword (by decide))
  cases hbasic : basicTypes.lookup w with
  | none =>
    simp only [View.ofBare, hnull, hopt, hunion, henclosed, harray, hrecord, isFunctionText_of_isWord h, hne, hbasic,
      decide_false, Bool.false_or, decide_eq_true_eq, Bool.false_eq_true, if_false]
  | some type =>
    simp only [View.ofBare, hnull, hne, hbasic, decide_false, Bool.false_or, decide_eq_true_eq]

end LuaTypings.TypeText
