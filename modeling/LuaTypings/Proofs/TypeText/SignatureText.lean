import LuaTypings.Proofs.TypeText.Operands

/-!
# Signatures that are written and read back

A function type can be written from names and types: parameters one behind another with commas between them, the
returns behind the list. Such a text is cut into the same parts again if every type is listable: trimmed, balanced and
without a comma outside its brackets. `WrittenParam.ofText_paramText` reads one parameter back and
`WrittenSignature.ofText?_functionText` the whole of a function type.
-/

namespace LuaTypings.TypeText

/-- Whether a type text can stand among the parameters of a function type: it is not empty, it is trimmed, it closes
all its own brackets and no comma stands outside of them. -/
def isListable (t : Text) : Bool := !t.isEmpty && Text.strip t == t && isBalanced t && isUnbroken (· == ',') 0 t

/-- A parameter with its type, with a question mark behind the name when it is optional. -/
def paramText (name : Text) (optional : Bool) (type : Text) : Text :=
  name ++ (if optional then ['?'] else []) ++ ": " ++ type

/-- The function type with these parameters and returns. -/
def functionText (parts : List Text) (returns : Text) : Text := "fun(" ++ Text.join ", " parts ++ "): " ++ returns

/-- The function type with this text between its parentheses and this return type. -/
def signatureText (list returns : Text) : Text := "fun(" ++ list ++ "): " ++ returns

/-- The return type ends a function type. -/
theorem signatureText_eq_append (list returns : Text) :
    signatureText list returns = "fun(".toList ++ list ++ "): ".toList ++ returns := rfl

/-- The parameter list of a function type stands between its first parenthesis and that one's closer. -/
theorem signatureText_eq (list returns : Text) :
    signatureText list returns = "fun".toList ++ '(' :: (list ++ ')' :: (": ".toList ++ returns)) := by
  rw [signatureText_eq_append, List.append_assoc, List.append_assoc]
  rfl

/-- A parameter as it is read back. A question mark behind its type makes it optional, too. -/
def WrittenParam.ofParts (name : Text) (optional : Bool) (type : Text) : WrittenParam :=
  ⟨name, Text.stripQuestionMarks type, optional || type.getLast? == some '?', false⟩

/-! ## Listable texts -/

/-- What makes a text listable. -/
theorem isListable_iff {t : Text} :
    isListable t = true ↔ t ≠ [] ∧ Text.strip t = t ∧ isBalanced t = true ∧ isUnbroken (· == ',') 0 t = true := by
  simp [isListable, and_assoc]

/-- A blank is no comma. -/
theorem comma_ne_of_isBlank (c : Char) (hc : Text.isBlank c = true) : (c == ',') = false :=
  beq_false_of_ne (Text.ne_of_isBlank hc (by decide))

/-- A text of word characters and question marks is listable. -/
theorem isListable_of_plain {t : Text} (hne : t ≠ []) (h : ∀ c ∈ t, Text.isWordChar c = true ∨ c = '?') :
    isListable t = true := by
  refine isListable_iff.mpr ⟨hne, Text.strip_of_not_blank fun c hc => ?_, isBalanced_of_plain fun c hc => ?_,
    isUnbroken_of_forall (fun c hc => ?_) 0⟩
  · obtain hword | rfl := h c hc
    · exact Text.isBlank_of_isWordChar hword
    · decide
  · obtain hword | rfl := h c hc
    · exact not_bracket_of_isWordChar hword
    · decide
  · obtain hword | rfl := h c hc
    · exact beq_false_of_ne (Text.ne_of_isWordChar hword (by decide))
    · decide

/-- A word is listable. -/
theorem isListable_of_isWord {t : Text} (h : Text.isWord t = true) : isListable t = true :=
  isListable_of_plain (Text.isWord_iff.mp h).1 fun c hc => .inl ((Text.isWord_iff.mp h).2 c hc)

/-- Two listable texts with a colon and a space between them are listable. -/
theorem isListable_colon {s t : Text} (hs : isListable s = true) (ht : isListable t = true) :
    isListable (s ++ ": " ++ t) = true := by
  obtain ⟨hne, htrim, hbalanced, hunbroken⟩ := isListable_iff.mp hs
  obtain ⟨hne', htrim', hbalanced', hunbroken'⟩ := isListable_iff.mp ht
  have hmark : isBalanced ": ".toList = true := by decide
  refine isListable_iff.mpr ⟨by simp [hne], Text.strip_append_append htrim htrim' hne hne', ?_, ?_⟩
  · exact isBalanced_append (isBalanced_append hbalanced hmark) hbalanced'
  · rw [List.append_assoc, isUnbroken_append_of_isBalanced hbalanced, isUnbroken_append_of_isBalanced hmark,
      hunbroken, hunbroken']
    decide

/-- The name of a parameter with its mark is made of word characters and question marks. -/
theorem mem_marked {name : Text} (h : Text.isWord name = true) (optional : Bool) :
    ∀ c ∈ name ++ (if optional then ['?'] else []), Text.isWordChar c = true ∨ c = '?' := by
  intro c hc
  rw [List.mem_append] at hc
  obtain hc | hc := hc
  · exact .inl ((Text.isWord_iff.mp h).2 c hc)
  · cases optional with
    | false => exact absurd hc List.not_mem_nil
    | true => exact .inr (List.mem_singleton.mp hc)

/-- A parameter with a listable type is listable. -/
theorem isListable_paramText {name type : Text} (hname : Text.isWord name = true) (optional : Bool)
    (htype : isListable type = true) : isListable (paramText name optional type) = true := by
  have hne : name ++ (if optional then ['?'] else []) ≠ [] :=
    List.append_ne_nil_of_left_ne_nil (Text.isWord_iff.mp hname).1 _
  exact isListable_colon (isListable_of_plain hne (mem_marked hname optional)) htype

/-! ## Question marks -/

/-- A text that does not end in a question mark keeps its end. -/
theorem stripQuestionMarks_of_getLast? {t : Text} (h : t.getLast? ≠ some '?') : Text.stripQuestionMarks t = t := by
  rw [Text.stripQuestionMarks, List.reverse_eq_iff, List.dropWhile_eq_self_iff]
  intro hlen
  rw [← List.head?_reverse] at h
  rw [beq_iff_eq]
  intro hhead
  exact h (by rw [List.head?_eq_getElem?, List.getElem?_eq_getElem hlen, hhead])

/-- One question mark more at the end makes no difference. -/
theorem stripQuestionMarks_concat (t : Text) : Text.stripQuestionMarks (t ++ ['?']) = Text.stripQuestionMarks t := by
  rw [Text.stripQuestionMarks, List.reverse_append]
  rfl

/-- A word ends in no question mark. -/
theorem getLast?_of_isWord {name : Text} (h : Text.isWord name = true) : name.getLast? ≠ some '?' :=
  fun hlast => Text.not_mem_of_isWord h (by decide) (List.mem_of_getLast? hlast)

/-! ## One parameter -/

/-- A parameter does not start with three dots. -/
theorem dropStart?_dots_of_marked {s : Text} (hne : s ≠ []) (h : ∀ c ∈ s, Text.isWordChar c = true ∨ c = '?')
    (t : Text) : Text.dropStart? "..." (s ++ t) = none := by
  rw [Option.eq_none_iff_forall_ne_some]
  intro rest hrest
  obtain ⟨c, s', rfl⟩ := List.exists_cons_of_ne_nil hne
  have hdot : c = '.' := (List.cons.inj (Text.dropStart?_eq_some_iff.mp hrest)).1
  rw [hdot] at h
  exact absurd (h '.' List.mem_cons_self) (by decide)

/-- A name, with or without its mark, and a type behind a colon are read apart. -/
theorem WrittenParam.ofText_colon {s type : Text} (hne : s ≠ []) (hs : ∀ c ∈ s, Text.isWordChar c = true ∨ c = '?')
    (htype : Text.strip type = type) :
    ofText (s ++ ": " ++ type) =
      if s.getLast? = some '?' || type.getLast? = some '?' then
        ⟨Text.stripQuestionMarks s, Text.stripQuestionMarks type, true, false⟩
      else ⟨s, type, false, false⟩ := by
  have hcolon : ':' ∉ s := fun hmem => absurd (hs ':' hmem) (by decide)
  have htrim : Text.strip s = s := (isListable_iff.mp (isListable_of_plain hne hs)).2.1
  have hspace : Text.strip (' ' :: type) = type :=
    (Text.strip_blanks_append Text.isBlank_of_mem_space type).trans htype
  have hcut : Text.cutAtChar ':' (s ++ ": " ++ type) = (s, some (' ' :: type)) := by
    rw [List.append_assoc]
    exact Text.cutAtChar_append_cons hcolon (' ' :: type)
  have hdots : Text.dropStart? "..." (s ++ ": " ++ type) = none := by
    rw [List.append_assoc]
    exact dropStart?_dots_of_marked hne hs _
  simp only [ofText, hdots, hcut, htrim, hspace]

/-- A parameter that is written from a name and a trimmed type is read back. -/
theorem WrittenParam.ofText_paramText {name type : Text} (hname : Text.isWord name = true) (optional : Bool)
    (htype : Text.strip type = type) : ofText (paramText name optional type) = ofParts name optional type := by
  have hne : name ++ (if optional then ['?'] else []) ≠ [] :=
    List.append_ne_nil_of_left_ne_nil (Text.isWord_iff.mp hname).1 _
  have hplain : Text.stripQuestionMarks name = name := stripQuestionMarks_of_getLast? (getLast?_of_isWord hname)
  rw [paramText, ofText_colon hne (mem_marked hname optional) htype, ofParts]
  cases optional with
  | true =>
    -- The mark behind the name is enough; what the type ends in only matters for what is cut off.
    simp [stripQuestionMarks_concat, hplain]
  | false =>
    by_cases hmark : type.getLast? = some '?'
    · simp [hmark, hplain]
    · simp [hmark, getLast?_of_isWord hname, stripQuestionMarks_of_getLast? hmark]

/-! ## The whole function type -/

/-- Returns are read from what stands behind the colon and the space. -/
theorem WrittenReturn.ofText_returns (returns : Text) :
    WrittenReturn.ofText (": " ++ returns) = .ofCleaned (withoutProse returns) := by
  have hcolon : Text.strip (": " ++ returns) = ':' :: Text.stripEnd (' ' :: returns) := Text.strip_cons (by decide) _
  have hspace : Text.strip (' ' :: returns) = Text.strip returns :=
    Text.strip_blanks_append Text.isBlank_of_mem_space _
  rw [WrittenReturn.ofText_of_colon hcolon, withoutProse_congr_strip ((Text.strip_stripEnd _).trans hspace)]

/-- A function type is cut behind its parameters, whatever these are, if they close their brackets. -/
theorem WrittenSignature.ofText?_group {list : Text} (h : isBalanced list = true) (rest : Text) :
    WrittenSignature.ofText? ("fun(" ++ list ++ ")" ++ rest) =
      some ⟨(topParts ',' list).map WrittenParam.ofText, WrittenReturn.ofText rest⟩ := by
  -- The first parenthesis is the one behind the keyword, and its closer is the one that was written.
  have hcut : "fun(".toList ++ list ++ ")".toList ++ rest = "fun".toList ++ '(' :: (list ++ ')' :: rest) := by
    rw [List.append_assoc, List.append_assoc]
    rfl
  have hgroup : firstGroup? ("fun(" ++ list ++ ")" ++ rest) = some (list, rest) := by
    rw [hcut]
    exact firstGroup?_of_isBalanced (by decide) h rest
  rw [WrittenSignature.ofText?, hgroup, Option.map_some]

/-- A function type with a return type is cut into its parameters and its returns. -/
theorem WrittenSignature.ofText?_signatureText {list : Text} (h : isBalanced list = true) (returns : Text) :
    WrittenSignature.ofText? (signatureText list returns) =
      some ⟨(topParts ',' list).map WrittenParam.ofText, .ofCleaned (withoutProse returns)⟩ := by
  have hcut : signatureText list returns = "fun(".toList ++ list ++ ")".toList ++ (": ".toList ++ returns) := by
    rw [signatureText_eq_append, ← List.append_assoc, List.append_assoc _ ")".toList]
    rfl
  rw [hcut, ofText?_group h, WrittenReturn.ofText_returns]

/-- A function type that is written from listable parameters is read back. -/
theorem WrittenSignature.ofText?_functionText {parts : List Text} (h : ∀ part ∈ parts, isListable part = true)
    (returns : Text) :
    WrittenSignature.ofText? (functionText parts returns) =
      some ⟨parts.map WrittenParam.ofText, .ofCleaned (withoutProse returns)⟩ := by
  have hlist := fun part hpart => isListable_iff.mp (h part hpart)
  have hbalanced : isBalanced (Text.join ", " parts) = true :=
    isBalanced_join (by decide) fun part hpart => (hlist part hpart).2.2.1
  have hparts : topParts ',' (Text.join ", " parts) = parts :=
    topPartsBy_join (by decide) Text.isBlank_of_mem_space comma_ne_of_isBlank (fun part hpart => (hlist part hpart).2.2)
      fun part hpart => ⟨(hlist part hpart).1, (hlist part hpart).2.1⟩
  have hwhole := ofText?_signatureText hbalanced returns
  rwa [hparts] at hwhole

end LuaTypings.TypeText
