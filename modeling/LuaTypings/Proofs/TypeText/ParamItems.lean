import LuaTypings.Proofs.TypeText.SignatureText

/-!
# Parameters as they are written

A function type is written from parameter items with any blanks around the commas between them. Whatever is nested in
the types of the items, the signature is read back from them one by one (`topParts_join_spaced`,
`WrittenParam.ofText_toText`): the item of the receiver's name gives the receiver, the others the parameters, and the
returns depend on the return text alone (`Callable.ofText_items`).
-/

namespace LuaTypings.TypeText

/-- A parameter as it can be written: with its type, with a question mark behind its name or behind its type, or
without a type. -/
inductive ParamItem where
  | typed (name type : Text)
  | markedName (name type : Text)
  | markedType (name type : Text)
  | bare (name : Text)
  deriving DecidableEq, Repr

namespace ParamItem

/-- The name of the parameter. -/
def name : ParamItem → Text
  | typed name _ | markedName name _ | markedType name _ | bare name => name

/-- The text of the item. -/
def toText : ParamItem → Text
  | typed name type => name ++ ": " ++ type
  | markedName name type => name ++ "?: " ++ type
  | markedType name type => name ++ ": " ++ type ++ "?"
  | bare name => name

/-- Whether a question mark stands behind the name or behind the type. -/
def isOptional : ParamItem → Bool
  | markedName _ _ | markedType _ _ => true
  | typed _ _ | bare _ => false

/-- The type in the declaration, without the question mark; any when none is written. -/
def declared : ParamItem → Text
  | typed _ type | markedName _ type | markedType _ type => declaredType type
  | bare _ => "any"

/-- Whether the name is a word and the type one that can stand in a list and ends in no question mark of its own. -/
def isWritable : ParamItem → Bool
  | typed name type | markedName name type | markedType name type =>
    Text.isWord name && isListable type && type.getLast? != some '?'
  | bare name => Text.isWord name

/-- The parameter in the declaration. -/
def toParam (item : ParamItem) : Param := ⟨safeParamName item.name, item.declared, item.isOptional, false⟩

/-- The parameter as it is read. -/
def written : ParamItem → WrittenParam
  | typed name type => ⟨name, type, false, false⟩
  | markedName name type | markedType name type => ⟨name, type, true, false⟩
  | bare name => ⟨name, "any", false, false⟩

end ParamItem

/-- A parameter item in its place in a list, with the blanks around it. -/
structure SpacedItem where
  /-- The blanks in front of the item. -/
  before : Text
  /-- The item itself. -/
  item : ParamItem
  /-- The blanks behind the item. -/
  after : Text
  /-- Nothing but blanks stands around the item. -/
  blank : (before ++ after).all Text.isBlank = true
  /-- The item can be written. -/
  writable : item.isWritable = true

/-- The text of an item in its place. -/
def SpacedItem.toText (s : SpacedItem) : Text := s.before ++ s.item.toText ++ s.after

/-- The return text of a function type with the colon in front of it; nothing without one. -/
def returnsText : Option Text → Text
  | none => []
  | some text => ": " ++ text

/-- The function type with these items between its parentheses and this return text. -/
def itemsText (items : List SpacedItem) (returns : Option Text) : Text :=
  "fun(" ++ Text.join "," (items.map SpacedItem.toText) ++ ")" ++ returnsText returns

/-- What a function type with this return text returns: nothing without one, several types when commas outside all
brackets separate what is left of the text without its prose, and else the one type that is left. -/
def returnedType (returns : Option Text) : Text :=
  match returns with
  | none => "void"
  | some text =>
    match topParts ',' (withoutProse text) with
    | first :: second :: more => severalReturns ((first :: second :: more).map declaredType)
    | _ => declaredType (withoutProse text)

/-! ## One item -/

namespace ParamItem

/-- What makes an item with a type writable. -/
theorem isWritable_typed_iff {name type : Text} :
    (typed name type).isWritable = true ↔
      Text.isWord name = true ∧ isListable type = true ∧ type.getLast? ≠ some '?' := by
  simp [isWritable, and_assoc]

/-- A listable type with a question mark behind it is listable. -/
theorem isListable_concat_mark {type : Text} (h : isListable type = true) : isListable (type ++ ['?']) = true := by
  obtain ⟨hne, htrim, hbalanced, hunbroken⟩ := isListable_iff.mp h
  have hstrip : Text.strip (type ++ ['?']) = type ++ ['?'] := by
    have happend := Text.strip_append_append (m := []) htrim (t := ['?']) (by decide) hne (by decide)
    rwa [List.append_nil] at happend
  refine isListable_iff.mpr ⟨by simp, hstrip, isBalanced_append hbalanced (by decide), ?_⟩
  rw [isUnbroken_append_of_isBalanced hbalanced, hunbroken]
  decide

/-- An item with a type is written as a parameter with a mark or without one. -/
theorem toText_eq_paramText (name type : Text) :
    (typed name type).toText = paramText name false type ∧ (markedName name type).toText = paramText name true type ∧
      (markedType name type).toText = paramText name false (type ++ ['?']) := by
  simp [toText, paramText]

/-- A writable item is listable. -/
theorem isListable_toText {item : ParamItem} (h : item.isWritable = true) : isListable item.toText = true := by
  cases item with
  | typed name type =>
    obtain ⟨hname, htype, -⟩ := isWritable_typed_iff.mp h
    rw [(toText_eq_paramText name type).1]
    exact isListable_paramText hname false htype
  | markedName name type =>
    obtain ⟨hname, htype, -⟩ := isWritable_typed_iff.mp h
    rw [(toText_eq_paramText name type).2.1]
    exact isListable_paramText hname true htype
  | markedType name type =>
    obtain ⟨hname, htype, -⟩ := isWritable_typed_iff.mp h
    rw [(toText_eq_paramText name type).2.2]
    exact isListable_paramText hname false (isListable_concat_mark htype)
  | bare name => exact isListable_of_isWord h

end ParamItem

/-- A name alone is read as a parameter that takes any. -/
theorem WrittenParam.ofText_of_isWord {name : Text} (h : Text.isWord name = true) :
    ofText name = ⟨name, "any", false, false⟩ := by
  have hcolon : ':' ∉ name := Text.not_mem_of_isWord h (by decide)
  have hchars : ∀ c ∈ name, Text.isWordChar c = true ∨ c = '?' := fun c hc => .inl ((Text.isWord_iff.mp h).2 c hc)
  have hdots := dropStart?_dots_of_marked (Text.isWord_iff.mp h).1 hchars []
  rw [List.append_nil] at hdots
  rw [ofText, hdots]
  simp only [Text.cutAtChar_of_not_mem hcolon, Text.strip_of_isWord h]

/-- A writable item is read back. -/
theorem WrittenParam.ofText_toText {item : ParamItem} (h : item.isWritable = true) :
    ofText item.toText = item.written := by
  cases item with
  | typed name type =>
    obtain ⟨hname, htype, hmark⟩ := ParamItem.isWritable_typed_iff.mp h
    rw [(ParamItem.toText_eq_paramText name type).1, ofText_paramText hname false (isListable_iff.mp htype).2.1, ofParts,
      stripQuestionMarks_of_getLast? hmark]
    simp [ParamItem.written, hmark]
  | markedName name type =>
    obtain ⟨hname, htype, hmark⟩ := ParamItem.isWritable_typed_iff.mp h
    rw [(ParamItem.toText_eq_paramText name type).2.1, ofText_paramText hname true (isListable_iff.mp htype).2.1, ofParts,
      stripQuestionMarks_of_getLast? hmark]
    rfl
  | markedType name type =>
    obtain ⟨hname, htype, hmark⟩ := ParamItem.isWritable_typed_iff.mp h
    have htrim := (isListable_iff.mp (ParamItem.isListable_concat_mark htype)).2.1
    rw [(ParamItem.toText_eq_paramText name type).2.2, ofText_paramText hname false htrim, ofParts,
      stripQuestionMarks_concat, stripQuestionMarks_of_getLast? hmark, List.getLast?_concat]
    rfl
  | bare name => exact ofText_of_isWord h

/-- The type that is read from an item is declared as the item says. -/
theorem ParamItem.declaredType_written (item : ParamItem) : declaredType item.written.type = item.declared := by
  cases item with
  | bare name =>
    have hany : declaredType "any" = "any" := by decide
    exact hany
  | _ => rfl

/-- An item is read with its name. -/
theorem ParamItem.name_written (item : ParamItem) : item.written.name = item.name := by
  cases item <;> rfl

/-- The parameter that is read from an item is declared as the item says. -/
theorem ParamItem.toParam_written (item : ParamItem) : item.written.toParam declaredType = item.toParam := by
  rw [WrittenParam.toParam, item.declaredType_written, item.name_written, ParamItem.toParam]
  cases item <;> rfl

/-! ## The list of items -/

namespace SpacedItem

/-- Nothing but blanks stands in front of an item and behind it. -/
theorem isBlank_around (s : SpacedItem) :
    (∀ c ∈ s.before, Text.isBlank c = true) ∧ ∀ c ∈ s.after, Text.isBlank c = true :=
  List.forall_mem_append.mp (List.all_eq_true.mp s.blank)

/-- An item is trimmed of the blanks around it. -/
theorem strip_toText (s : SpacedItem) : Text.strip s.toText = s.item.toText := by
  obtain ⟨hbefore, hafter⟩ := s.isBlank_around
  rw [toText, Text.strip_append_blanks hafter, Text.strip_blanks_append hbefore]
  exact (isListable_iff.mp (ParamItem.isListable_toText s.writable)).2.1

/-- An item in its place is balanced and no comma stands outside its brackets. -/
theorem isBalanced_toText (s : SpacedItem) : isBalanced s.toText = true ∧ isUnbroken (· == ',') 0 s.toText = true := by
  obtain ⟨hbefore, hafter⟩ := s.isBlank_around
  obtain ⟨-, -, hbalanced, hunbroken⟩ := isListable_iff.mp (ParamItem.isListable_toText s.writable)
  rw [toText, List.append_assoc]
  exact isUnbroken_blanks_append hbefore comma_ne_of_isBlank
    (isUnbroken_append_blanks hafter comma_ne_of_isBlank ⟨hbalanced, hunbroken⟩)

end SpacedItem

/-- Items with commas between them are read back one by one. -/
theorem topParts_join_spaced (items : List SpacedItem) :
    topParts ',' (Text.join "," (items.map SpacedItem.toText)) = items.map (·.item.toText) := by
  cases items with
  | nil => rfl
  | cons s items =>
    have hpieces := segments_join_of_isBalanced (p := (· == ',')) (c := ',') (by decide)
      (List.forall_mem_map (l := s :: items).mpr fun r _ => r.isBalanced_toText)
    have hstrip : ((s :: items).map SpacedItem.toText).map Text.strip = (s :: items).map (·.item.toText) := by
      rw [List.map_map]
      exact List.map_congr_left fun r _ => r.strip_toText
    have hcomma : ",".toList = [','] := rfl
    rw [topParts, topPartsBy, List.map_cons, hcomma, hpieces, ← List.map_cons, hstrip, List.filter_eq_self]
    refine List.forall_mem_map.mpr fun r _ => ?_
    simpa using (isListable_iff.mp (ParamItem.isListable_toText r.writable)).1

/-- Leaving out the first element of a kind leaves out all of them when there is no other. -/
theorem eraseP_eq_filter {α : Type} {p : α → Bool} {l : List α} (h : l.countP p ≤ 1) :
    l.eraseP p = l.filter (!p ·) := by
  induction l with
  | nil => rfl
  | cons a l ih =>
    by_cases ha : p a = true
    · rw [List.countP_cons_of_pos ha] at h
      have hnone : ∀ b ∈ l, ¬ p b = true := List.countP_eq_zero.mp (by omega)
      rw [List.eraseP_cons_of_pos ha, List.filter_cons_of_neg (by simp [ha])]
      exact (List.filter_eq_self.mpr fun b hb => by simpa using hnone b hb).symm
    · rw [List.countP_cons_of_neg ha] at h
      rw [List.eraseP_cons_of_neg ha, List.filter_cons_of_pos (by simp [ha]), ih h]

/-- The returns are declared as one type or as several, or as nothing where no return text stands. -/
theorem toText_ofText_returnsText (returns : Option Text) :
    (WrittenReturn.ofText (returnsText returns)).toText declaredType = returnedType returns := by
  cases returns with
  | none =>
    have habsent : WrittenReturn.ofText (returnsText none) = .absent := WrittenReturn.ofText_of_no_colon rfl
    rw [habsent]
    rfl
  | some text =>
    rw [returnsText, WrittenReturn.ofText_returns, WrittenReturn.ofCleaned, returnedType]
    rcases topParts ',' (withoutProse text) with _ | ⟨first, _ | ⟨second, more⟩⟩
    · rw [WrittenReturn.toText]
    · rw [WrittenReturn.toText]
    · rw [WrittenReturn.toText]

/-- The signature of a function type of parameter items holds the items in their order. -/
theorem WrittenSignature.ofText?_itemsText (items : List SpacedItem) (returns : Option Text) :
    WrittenSignature.ofText? (itemsText items returns) =
      some ⟨items.map (·.item.written), WrittenReturn.ofText (returnsText returns)⟩ := by
  have hbalanced : isBalanced (Text.join "," (items.map SpacedItem.toText)) = true :=
    isBalanced_join (by decide) (List.forall_mem_map.mpr fun s _ => s.isBalanced_toText.1)
  have hread : (items.map (·.item.toText)).map WrittenParam.ofText = items.map (·.item.written) := by
    rw [List.map_map]
    exact List.map_congr_left fun s _ => WrittenParam.ofText_toText s.writable
  show ofText? ("fun(" ++ Text.join "," (items.map SpacedItem.toText) ++ ")" ++ returnsText returns) = _
  rw [ofText?_group hbalanced, topParts_join_spaced, hread]

/-- **A function type of parameter items.** A function type is read back from the items that it is written from. The
receiver is declared by the item of its name, when there is one; the parameters are the other items in their order, with
safe names, with the declared types, which are any where none is written, and optional where a question mark stands. The
returns depend on the return text alone. -/
theorem Callable.ofText_items {items : List SpacedItem} (hreceiver : items.countP (·.item.name = receiverName) ≤ 1)
    (returns : Option Text) :
    Callable.ofText (itemsText items returns) =
      .typed ((items.find? (·.item.name = receiverName)).map (·.item.declared))
        ((items.filter (·.item.name ≠ receiverName)).map (·.item.toParam)) (returnedType returns) := by
  have hname : (fun p : WrittenParam => decide (p.name = receiverName)) ∘ (fun s : SpacedItem => s.item.written) =
      fun s => decide (s.item.name = receiverName) := funext fun s => by rw [Function.comp_apply, ParamItem.name_written]
  have hfound : ((items.map (·.item.written)).find? (·.name = receiverName)).map (fun p => declaredType p.type) =
      (items.find? (·.item.name = receiverName)).map (·.item.declared) := by
    rw [List.find?_map, hname, Option.map_map]
    refine Option.map_congr fun s _ => ?_
    rw [Function.comp_apply, ParamItem.declaredType_written]
  have hothers : ((items.map (·.item.written)).eraseP (·.name = receiverName)).map (·.toParam declaredType) =
      (items.filter (·.item.name ≠ receiverName)).map (·.item.toParam) := by
    rw [List.eraseP_map, hname, eraseP_eq_filter hreceiver, List.map_map]
    simp only [← decide_not]
    refine List.map_congr_left fun s _ => ?_
    rw [Function.comp_apply, ParamItem.toParam_written]
  rw [Callable.ofText, WrittenSignature.ofText?_itemsText, Callable.ofWritten, WrittenSignature.toCallable]
  simp only [WrittenSignature.receiver?, WrittenSignature.arguments, hfound, hothers, toText_ofText_returnsText]

/-- A receiver between parameters whose types hold commas, colons, question marks and parentheses of their own. -/
def nestedItems : List SpacedItem :=
  [⟨"", .markedName "f" "fun(x?: A, y: B): C", " ", by decide, by decide⟩,
    ⟨"", .typed "self" "Map<A, B>", "", by decide, by decide⟩,
    ⟨"\n ", .markedType "in" "(A?)[]", "", by decide, by decide⟩,
    ⟨" ", .bare "rest", " ", by decide, by decide⟩]

/-- The receiver may stand anywhere, a parameter may be a function or be named by a reserved word, and one without a type
takes any value; the parts of a return become one. -/
theorem Callable.ofText_items_nested :
    nestedItems.countP (·.item.name = receiverName) ≤ 1 ∧
      itemsText nestedItems (some "A, B[]") =
        "fun(f?: fun(x?: A, y: B): C ,self: Map<A, B>,\n in: (A?)[]?, rest ): A, B[]" ∧
      Callable.ofText (itemsText nestedItems (some "A, B[]")) =
        .typed (some "Map<A, B>") [⟨"f", "(this: void, x?: A, y: B) => C", true, false⟩,
          ⟨"_in", "(A | undefined)[]", true, false⟩, ⟨"rest", "any", false, false⟩] "LuaMultiReturn<[A, B[]]>" :=
  ⟨by decide, by decide, (Callable.ofText_items (by decide) (some "A, B[]")).trans (by decide +kernel)⟩

end LuaTypings.TypeText

