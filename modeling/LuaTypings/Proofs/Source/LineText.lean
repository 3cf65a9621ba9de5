import LuaTypings.Source.Line
import LuaTypings.Source.Written
import LuaTypings.Proofs.Text.Lines

/-!
# Lines that are written and read back

A comment of three dashes is read by its content (`ofLine_comment`), an annotation by its keyword and the body behind it
(`ofLine_annotation`). Each kind of line is read back from the words and other texts that it is written from.
-/

namespace LuaTypings.Source

open Text (isWord isPhrase isLastPart isWordChar isBlank)

/-! ## Parts of a line -/

/-- A word in front of something else is read. -/
theorem word?_append {name rest : Text} (hname : isWord name = true) (hrest : ∀ c ∈ rest.head?, isWordChar c = false) :
    word? (name ++ rest) = some (name, rest) := by
  obtain ⟨hne, hchars⟩ := Text.isWord_iff.mp hname
  rw [word?, Text.spanWord, Text.span_append hchars hrest]
  cases name with
  | nil => exact absurd rfl hne
  | cons c name => rfl

/-- A word is read to its end. -/
theorem word?_of_isWord {name : Text} (hname : isWord name = true) : word? name = some (name, []) := by
  have h := word?_append hname (fun c (hc : c ∈ ([] : Text).head?) => absurd hc (by simp))
  rwa [List.append_nil] at h

/-- A text that does not start with a word character starts with no word. -/
theorem word?_eq_none {t : Text} (ht : ∀ c ∈ t.head?, isWordChar c = false) : word? t = none := by
  have hspan := Text.span_append (s := []) (fun c hc => absurd hc List.not_mem_nil) ht
  rw [List.nil_append] at hspan
  rw [word?, Text.spanWord, hspan]

/-- A last part behind a space stands behind blanks. -/
theorem stripStart_space_cons {t : Text} (ht : isLastPart t = true) : Text.stripStart (' ' :: t) = t := by
  have hspace : isBlank ' ' = true := by decide
  rw [Text.stripStart, List.dropWhile_cons_of_pos hspace]
  exact Text.stripStart_eq_self_iff.mpr (Text.head?_of_isLastPart ht)

/-- What can be the last part of a line is read behind a space. -/
theorem lastPart?_space_cons {t : Text} (ht : isLastPart t = true) : lastPart? (' ' :: t) = some t := by
  have hblanks : afterBlanks? (' ' :: t) = some t := by
    have hspace : isBlank ' ' = true := by decide
    rw [afterBlanks?, stripStart_space_cons ht]
    simp [hspace]
  obtain ⟨hne, -, hfeed⟩ := Text.isLastPart_iff.mp ht
  have hfeed : t.contains '\n' = false := by simpa using hfeed
  have hempty : t.isEmpty = false := by simpa using hne
  rw [lastPart?, hblanks, Option.bind_eq_bind, Option.bind_some, hempty, hfeed]
  rfl

/-! ## Comments -/

/-- A line says what it says without the blanks around it. -/
theorem ofLine_strip (line : Text) : Directive.ofLine (Text.strip line) = Directive.ofLine line := by
  rw [Directive.ofLine, Directive.ofLine, Text.strip_strip]

/-- A comment of three dashes is no code: it says what its content says. -/
theorem ofLine_comment {line content : Text} (h : Text.strip line = '-' :: '-' :: '-' :: content) :
    Directive.ofLine line = .ofContent (Text.strip content) := by
  have hfunction : declaredFunction? ('-' :: '-' :: '-' :: content) = none := rfl
  have htable : emptyTable? ('-' :: '-' :: '-' :: content) = none := by
    have hdash : isWordChar '-' = false := by decide
    rw [emptyTable?, word?_eq_none (by simp [hdash])]
    rfl
  rw [Directive.ofLine, h, hfunction, htable]
  rfl

/-- A text behind the dashes is a line of prose, unless it starts as an annotation does. -/
theorem ofLine_description {text : Text} (htext : isLastPart text = true) (hmark : text.head? ≠ some '@') :
    Directive.ofLine ("--- " ++ text) = .description text := by
  obtain ⟨hne, htrim, -⟩ := Text.isLastPart_iff.mp htext
  have hline : Text.strip ("--- " ++ text) = '-' :: '-' :: '-' :: ' ' :: text :=
    Text.strip_append_append (s := "---") (m := " ") (by decide) htrim (by decide) hne
  have hcontent : Text.strip (' ' :: text) = text :=
    (Text.strip_blanks_append Text.isBlank_of_mem_space text).trans htrim
  rw [ofLine_comment hline, hcontent]
  match text, hne, hmark with
  | c :: text, _, hmark =>
    have hc : c ≠ '@' := by simpa using hmark
    rw [Directive.ofContent]
    · exact fun h => absurd h (List.cons_ne_nil c text)
    · exact fun _ h => absurd (List.cons.inj h).1 hc

/-- An annotation is cut behind its keyword, which says what the rest is. -/
theorem ofLine_annotation {keyword body : Text} (hkeyword : isWord keyword = true) (hbody : isLastPart body = true) :
    Directive.ofLine ("---@" ++ (keyword ++ ' ' :: body)) = (tagged? keyword body).getD .silent := by
  obtain ⟨hne, htrim, -⟩ := Text.isLastPart_iff.mp hbody
  have hline : Text.strip ("---@" ++ (keyword ++ ' ' :: body)) = '-' :: '-' :: '-' :: '@' :: (keyword ++ ' ' :: body) := by
    have h := Text.strip_append_append (s := "---@") (m := keyword ++ [' ']) (by decide) htrim (by decide) hne
    simpa using h
  have hcontent : Text.strip ('@' :: (keyword ++ ' ' :: body)) = '@' :: (keyword ++ ' ' :: body) := by
    have h := Text.strip_append_append (s := "@") (m := keyword ++ [' ']) (by decide) htrim (by decide) hne
    simpa using h
  have hspan : (keyword ++ ' ' :: body).span (!isBlank ·) = (keyword, ' ' :: body) := by
    have hspace : isBlank ' ' = true := by decide
    refine Text.span_append (fun c hc => ?_) (by simp [hspace])
    rw [Text.isBlank_of_mem_isWord hkeyword c hc]
    rfl
  have hkey : Directive.ofContent ('@' :: (keyword ++ ' ' :: body)) =
      (tagged? keyword (Text.stripStart (' ' :: body))).getD .silent := by
    rw [Directive.ofContent, hspan]
  rw [ofLine_comment hline, hcontent, hkey, stripStart_space_cons hbody]

/-! ## Annotations -/

variable {name body key value : Text}

/-- The line of an annotation is a phrase when its parts are phrases. -/
theorem isPhrase_annotationLine {keyword : Text} {parts : List Text} (hkeyword : isPhrase keyword = true)
    (hparts : ∀ part ∈ parts, isPhrase part = true) : isPhrase (annotationLine keyword parts) = true := by
  have hall : ∀ part ∈ keyword :: parts, isPhrase part = true := List.forall_mem_cons.mpr ⟨hkeyword, hparts⟩
  have hjoin := Text.isPhrase_join (List.cons_ne_nil keyword parts) hall
  simpa [annotationLine] using Text.isPhrase_append (s := "---@") (m := []) (by decide) rfl hjoin

/-- The line of an annotation says what its parts say behind its keyword. -/
theorem ofLine_annotationLine {keyword : Text} {parts : List Text} (hkeyword : isWord keyword = true)
    (hne : parts ≠ []) (hparts : ∀ part ∈ parts, isLastPart part = true) :
    Directive.ofLine (annotationLine keyword parts) = (tagged? keyword (Text.join " " parts)).getD .silent := by
  have hline : annotationLine keyword parts = "---@" ++ (keyword ++ ' ' :: Text.join " " parts) := by
    obtain ⟨part, rest, rfl⟩ := List.exists_cons_of_ne_nil hne
    rw [annotationLine, Text.join_cons_cons]
    simp
  rw [hline, ofLine_annotation hkeyword (Text.isLastPart_join hne hparts)]

/-- Two parts of a line have a space between them. -/
theorem join_pair (s t : Text) : Text.join " " [s, t] = s ++ ' ' :: t := by
  simp [Text.join_cons_cons, Text.join_singleton]

/-- What holds of two parts of a line holds of all parts. -/
theorem forall_mem_pair {P : Text → Prop} {s t : Text} (hs : P s) (ht : P t) : ∀ part ∈ [s, t], P part := by
  simp [hs, ht]

/-- A class line is read back. -/
theorem ofLine_classStart (hname : isWord name = true) :
    Directive.ofLine (annotationLine "class" [name]) = .classStart name := by
  have htag : tagged? "class" name = (word? name).map fun found => .classStart found.1 := rfl
  rw [ofLine_annotationLine (by decide) (List.cons_ne_nil _ _)
    (List.forall_mem_singleton.mpr (Text.isLastPart_of_isWord hname)), Text.join_singleton, htag, word?_of_isWord hname]
  rfl

/-- A line that names the class to export is read back. -/
theorem ofLine_exportHint (hname : isWord name = true) :
    Directive.ofLine (annotationLine "type" [name]) = .exportHint name := by
  have htag : tagged? "type" name = (word? name).map fun found => .exportHint found.1 := rfl
  rw [ofLine_annotationLine (by decide) (List.cons_ne_nil _ _)
    (List.forall_mem_singleton.mpr (Text.isLastPart_of_isWord hname)), Text.join_singleton, htag, word?_of_isWord hname]
  rfl

/-- An alias line is read back. -/
theorem ofLine_alias (hname : isWord name = true) (hbody : isLastPart body = true) :
    Directive.ofLine (annotationLine "alias" [name, body]) = .alias name body := by
  have hspace : isWordChar ' ' = false := by decide
  have hword : word? (name ++ ' ' :: body) = some (name, ' ' :: body) := word?_append hname (by simp [hspace])
  have htag : tagged? "alias" (name ++ ' ' :: body) = some (.alias name body) := by
    change ((word? (name ++ ' ' :: body)).bind fun found => (lastPart? found.2).bind fun part =>
      some (Directive.alias found.1 part)) = _
    simp only [hword, Option.bind_some, lastPart?_space_cons hbody]
  rw [ofLine_annotationLine (by decide) (List.cons_ne_nil _ _)
    (forall_mem_pair (Text.isLastPart_of_isWord hname) hbody), join_pair, htag]
  rfl

/-! ## Fields -/

/-- A key in square brackets is a phrase. -/
theorem isPhrase_bracketed (hkey : isWord key = true) : isPhrase ("[" ++ key ++ "]") = true :=
  Text.isPhrase_append (by decide) (Text.isOneLine_of_isWord hkey) (by decide)

/-- A name with its mark, if it has one, is a phrase. -/
theorem isPhrase_marked (hname : isWord name = true) (optional : Bool) :
    isPhrase (name ++ optionalMark optional) = true := by
  have h := Text.isPhrase_of_isWord hname
  cases optional with
  | false => simpa [optionalMark] using h
  | true => simpa [optionalMark] using Text.isPhrase_append (m := []) (t := "?") h rfl (by decide)

/-- A text without a scope in front is read as it is. -/
theorem scoped?_of_none {α : Type} {t : Text} (h : afterScope? t = none) (read : Text → Option α) :
    scoped? read t = read t := by
  rw [scoped?, h]
  rfl

/-- An index field is read back. -/
theorem ofLine_indexField (hkey : isWord key = true) (hvalue : isLastPart value = true) :
    Directive.ofLine (annotationLine "field" ["[" ++ key ++ "]", value]) = .indexField key value := by
  have hbracket : isWordChar '[' = false := by decide
  have hcloser : isWordChar ']' = false := by decide
  have hjoin : Text.join " " ["[" ++ key ++ "]", value] = '[' :: (key ++ ']' :: ' ' :: value) := by
    rw [join_pair]
    simp
  have hscope : afterScope? ('[' :: (key ++ ']' :: ' ' :: value)) = none := by
    rw [afterScope?, word?_eq_none (by simp [hbracket])]
    rfl
  have hread : indexField? ('[' :: (key ++ ']' :: ' ' :: value)) = some (key, value) := by
    change ((word? (key ++ ']' :: ' ' :: value)).bind fun found => (Text.dropStart? "]" found.2).bind fun rest =>
      (lastPart? rest).bind fun part => some (found.1, part)) = _
    rw [word?_append hkey (by simp [hcloser]), Option.bind_some]
    change ((lastPart? (' ' :: value)).bind fun part => some (key, part)) = _
    rw [lastPart?_space_cons hvalue]
    rfl
  have htag : tagged? "field" ('[' :: (key ++ ']' :: ' ' :: value)) = some (.indexField key value) := by
    change (((scoped? indexField? _).map fun found => Directive.indexField found.1 found.2) <|> _) = _
    rw [scoped?_of_none hscope, hread]
    rfl
  rw [ofLine_annotationLine (by decide) (List.cons_ne_nil _ _)
    (forall_mem_pair (Text.isLastPart_of_isPhrase (isPhrase_bracketed hkey)) hvalue), hjoin, htag]
  rfl

/-- A text that starts with a name is no index field. -/
theorem indexField?_of_isWord (hname : isWord name = true) (t : Text) : indexField? (name ++ t) = none := by
  obtain ⟨hne, hchars⟩ := Text.isWord_iff.mp hname
  obtain ⟨c, rest, rfl⟩ := List.exists_cons_of_ne_nil hne
  have hc : '[' ≠ c := (Text.ne_of_isWordChar (hchars c List.mem_cons_self) (by decide)).symm
  have hmark : Text.dropStart? "[" (c :: rest ++ t) = none := if_neg hc
  rw [indexField?, hmark]
  rfl

/-- Behind a name stands its mark, if it has one, and a space. -/
theorem word?_marked (hname : isWord name = true) (optional : Bool) (t : Text) :
    word? (name ++ (optionalMark optional ++ ' ' :: t)) = some (name, optionalMark optional ++ ' ' :: t) := by
  have hspace : isWordChar ' ' = false := by decide
  have hquestion : isWordChar '?' = false := by decide
  refine word?_append hname ?_
  cases optional with
  | false => simp [optionalMark, hspace]
  | true => simp [optionalMark, hquestion]

/-- A name is read with its mark, if it has one. -/
theorem markedWord?_marked (hname : isWord name = true) (optional : Bool) (t : Text) :
    markedWord? (name ++ (optionalMark optional ++ ' ' :: t)) = some (name, optional, ' ' :: t) := by
  rw [markedWord?, word?_marked hname]
  cases optional <;> rfl

/-- A name with a type behind it is a field. -/
theorem fieldNote?_marked (hname : isWord name = true) (optional : Bool) {tail : Text} (htail : isLastPart tail = true) :
    fieldNote? (name ++ (optionalMark optional ++ ' ' :: tail)) = some (.ofParts name optional tail) := by
  rw [fieldNote?, markedWord?_marked hname]
  simp [lastPart?_space_cons htail]

/-- The line of a field is a phrase. -/
theorem isPhrase_fieldLine {note : FieldNote} (hname : isWord note.name = true)
    (htexts : ∀ text ∈ note.type :: note.description.toList, isPhrase text = true) : isPhrase note.line = true :=
  isPhrase_annotationLine (by decide) (List.forall_mem_cons.mpr ⟨isPhrase_marked hname _, htexts⟩)

/-- A name with a type behind it is the body of a field, unless the name is read as a scope. -/
theorem tagged?_field (hname : isWord name = true) (optional : Bool) {tail : Text} (htail : isLastPart tail = true)
    (hscope : afterScope? (name ++ (optionalMark optional ++ ' ' :: tail)) = none) :
    tagged? "field" (name ++ (optionalMark optional ++ ' ' :: tail)) = some (.field (.ofParts name optional tail)) := by
  have hindex := indexField?_of_isWord hname (optionalMark optional ++ ' ' :: tail)
  have hfield := fieldNote?_marked hname optional htail
  generalize name ++ (optionalMark optional ++ ' ' :: tail) = body at hscope hindex hfield ⊢
  change (((scoped? indexField? body).map fun found => Directive.indexField found.1 found.2) <|>
    (scoped? fieldNote? body).map Directive.field) = _
  rw [scoped?_of_none hscope, scoped?_of_none hscope, hindex, hfield]
  rfl

/-- A named field is read as its name, its mark and the texts behind them. -/
theorem ofLine_field {note : FieldNote} (hname : isWord note.name = true) (hscope : note.name ∉ fieldScopes)
    (htexts : ∀ text ∈ note.type :: note.description.toList, isLastPart text = true) :
    Directive.ofLine note.line =
      .field (.ofParts note.name note.optional (Text.join " " (note.type :: note.description.toList))) := by
  have htail := Text.isLastPart_join (List.cons_ne_nil note.type note.description.toList) htexts
  have hjoin : Text.join " " ((note.name ++ optionalMark note.optional) :: note.type :: note.description.toList) =
      note.name ++ (optionalMark note.optional ++ ' ' :: Text.join " " (note.type :: note.description.toList)) := by
    rw [Text.join_cons_cons]
    simp
  generalize Text.join " " (note.type :: note.description.toList) = tail at htail hjoin ⊢
  have hnone : afterScope? (note.name ++ (optionalMark note.optional ++ ' ' :: tail)) = none := by
    rw [afterScope?, word?_marked hname]
    simp [hscope]
  rw [FieldNote.line, ofLine_annotationLine (by decide) (List.cons_ne_nil _ _)
    (List.forall_mem_cons.mpr ⟨Text.isLastPart_of_isPhrase (isPhrase_marked hname _), htexts⟩), hjoin,
    tagged?_field hname note.optional htail hnone]
  rfl

/-- A name with a question mark is no scope: the mark stands where a scope has a blank behind it. -/
theorem afterScope?_of_mark (hname : isWord name = true) (t : Text) :
    afterScope? (name ++ (optionalMark true ++ ' ' :: t)) = none := by
  have hmark : afterBlanks? (optionalMark true ++ ' ' :: t) = none := rfl
  rw [afterScope?, word?_marked hname, Option.bind_eq_bind, Option.bind_some]
  show (if fieldScopes.contains name then afterBlanks? (optionalMark true ++ ' ' :: t) else none) = none
  rw [hmark, ite_self]

/-- The line of an optional field is read back, even when the field has the name of a scope. -/
theorem ofLine_optionalField {type : Text} (hname : isWord name = true) (htype : isLastPart type = true) :
    Directive.ofLine ("---@field " ++ name ++ "? " ++ type) = .field (.ofParts name true type) := by
  have hline : "---@field ".toList ++ name ++ "? ".toList ++ type =
      "---@".toList ++ ("field".toList ++ ' ' :: (name ++ (optionalMark true ++ ' ' :: type))) := by
    simp [optionalMark]
  have hbody : isLastPart (name ++ (optionalMark true ++ ' ' :: type)) = true := by
    have hjoin : Text.join " " [name ++ optionalMark true, type] = name ++ (optionalMark true ++ ' ' :: type) := by
      rw [join_pair, List.append_assoc]
    rw [← hjoin]
    exact Text.isLastPart_join (List.cons_ne_nil _ _)
      (forall_mem_pair (Text.isLastPart_of_isPhrase (isPhrase_marked hname true)) htype)
  rw [hline, ofLine_annotation (by decide) hbody, tagged?_field hname true htype (afterScope?_of_mark hname type)]
  rfl

/-- A text without a space in front of a capitalised word is all type. -/
theorem FieldNote.ofParts_of_not_prose {type : Text} (optional : Bool)
    (h : TypeText.isFunctionText type = true ∨ Text.cutCapitalised? type = none) :
    FieldNote.ofParts name optional type = ⟨name, type, optional, none⟩ := by
  rw [FieldNote.ofParts]
  obtain h | h := h
  · rw [if_pos h]
  · rw [h, ite_self]

end LuaTypings.Source
