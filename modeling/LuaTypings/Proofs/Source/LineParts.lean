import Mathlib.Data.Option.Basic
import LuaTypings.Proofs.Text.Lines
import LuaTypings.Proofs.TypeText.Operands
import LuaTypings.Source.Line

/-!
# The parts of a line in its directive

A line is read from left to right, and what is left to read is always an end of the trimmed line (`IsEndOf`). So each
reader takes names and filled parts of the line. `Directive.isReadFrom_ofLine` says of every directive which of its texts
are such names and parts, and which are cut from one; what holds of the texts of directives follows from it, one case for
each kind of directive.
-/

namespace LuaTypings

namespace Text

/-- A piece between characters of a kind is a part of the text. -/
theorem isInfix_of_mem_splitAll {c : Char} {s t : Text} (h : s ∈ splitAll (· == c) t) : s <:+: t := by
  have hjoin : s <:+: join [c] (splitAll (· == c) t) := isInfix_join h
  rwa [join_splitAll] at hjoin

/-- The texts beside a cut in front of a capitalised word are filled when the whole text is. -/
theorem isFilled_of_cutCapitalised? {t head rest : Text} (h : cutCapitalised? t = some (head, rest))
    (ht : IsFilled t) : IsFilled (strip head) ∧ IsFilled (strip rest) := by
  have hstarts := startsCapitalised_of_cutCapitalised? h
  refine ⟨isFilled_strip ?_, isFilled_strip (strip_ne_nil_of_startsCapitalised hstarts)⟩
  -- The space in front of the word is not the first character of the text.
  obtain ⟨x, y, -, -, u, rfl⟩ := startsCapitalised_iff.mp hstarts
  have hwhole := TypeText.append_of_cutCapitalised? h
  have hhead := (strip_eq_self_iff.mp ht.trimmed).1
  intro hnil
  cases head with
  | nil => exact absurd (hhead ' ' (by rw [← hwhole]; rfl)) (by decide)
  | cons c head =>
    have hc : isBlank c = false := hhead c (by rw [← hwhole]; rfl)
    rw [isBlank_of_strip_eq_nil hnil c List.mem_cons_self] at hc
    cases hc

end Text

namespace Source

open Text (isWord IsFilled isBlank strip stripStart)

/-- A part of a line that does not end in a blank. What is left to read of a line is one. -/
structure IsEndOf (line t : Text) : Prop where
  /-- The text is a part of the line. -/
  isInfix : t <:+: line
  /-- The text does not end in a blank. -/
  not_blank : ∀ c ∈ t.getLast?, isBlank c = false

/-- A word that stands in a line. -/
structure IsNameIn (line name : Text) : Prop where
  /-- The name is one word character or more. -/
  word : isWord name = true
  /-- The name is a part of the line. -/
  isInfix : name <:+: line

/-- A filled part of a line. -/
structure IsPartOf (line part : Text) : Prop where
  /-- The part is not empty, and trimmed. -/
  filled : IsFilled part
  /-- The part stands in the line. -/
  isInfix : part <:+: line

/-- What a line can say, with the names and parts of the line that the texts of each directive are or are cut from. -/
inductive Directive.IsReadFrom (line : Text) : Directive → Prop where
  | classStart {name : Text} (hname : IsNameIn line name) : IsReadFrom line (.classStart name)
  | alias {name body : Text} (hname : IsNameIn line name) (hbody : IsPartOf line body) :
    IsReadFrom line (.alias name body)
  | exportHint {name : Text} (hname : IsNameIn line name) : IsReadFrom line (.exportHint name)
  | param {name part : Text} {optional : Bool} (hname : IsNameIn line name ∨ name = "...")
    (hpart : IsPartOf line part) : IsReadFrom line (.param ⟨name, (TypeText.spanType part).1, optional⟩)
  | returns {part : Text} (hpart : IsPartOf line part) : IsReadFrom line (.returns (TypeText.withoutProse part))
  | indexField {key value : Text} (hkey : IsNameIn line key) (hvalue : IsPartOf line value) :
    IsReadFrom line (.indexField key value)
  | field {name part : Text} {optional : Bool} (hname : IsNameIn line name) (hpart : IsPartOf line part) :
    IsReadFrom line (.field (.ofParts name optional part))
  | description {text : Text} (htext : IsPartOf line text) : IsReadFrom line (.description text)
  | function {d : DeclaredFunction} (hclass : IsNameIn line d.className) (hmethod : IsNameIn line d.method)
    (hparams : ∀ name ∈ d.params, IsPartOf line name ∧ ',' ∉ name ∧ ')' ∉ name) : IsReadFrom line (.function d)
  | nested {outer inner : Text} (houter : IsNameIn line outer) (hinner : IsNameIn line inner) :
    IsReadFrom line (.nested outer inner)
  | otherCode : IsReadFrom line .otherCode
  | silent : IsReadFrom line .silent

variable {line t rest : Text}

/-! ## Parts of a line -/

/-- A field keeps its name, and its type and its description are parts of the line that the text is a part of. -/
theorem FieldNote.isPartOf_ofParts {part : Text} (hpart : IsPartOf line part) (name : Text) (optional : Bool) :
    (ofParts name optional part).name = name ∧ IsPartOf line (ofParts name optional part).type ∧
      ∀ text ∈ (ofParts name optional part).description, IsPartOf line text := by
  rw [ofParts]
  split
  · exact ⟨rfl, hpart, nofun⟩
  · split
    · rename_i head rest hcut
      obtain ⟨hhead, hrest⟩ := Text.isFilled_of_cutCapitalised? hcut hpart.filled
      have hwhole := TypeText.append_of_cutCapitalised? hcut
      have hfront : head <:+: part := ⟨[], rest, hwhole⟩
      have hbehind : rest <:+: part := ⟨head, [], by rw [List.append_nil, hwhole]⟩
      refine ⟨rfl, ⟨hhead, ((Text.isInfix_strip head).trans hfront).trans hpart.isInfix⟩, ?_⟩
      rintro text ⟨⟩
      exact ⟨hrest, ((Text.isInfix_strip rest).trans hbehind).trans hpart.isInfix⟩
    · exact ⟨rfl, hpart, nofun⟩

/-- A trimmed line is an end of the line. -/
theorem isEndOf_strip (line : Text) : IsEndOf line (strip line) :=
  ⟨Text.isInfix_strip line, (Text.strip_eq_self_iff.mp (Text.strip_strip line)).2⟩

/-- What is read as a word is one, and the rest follows it. -/
theorem eq_append_of_word? {name : Text} (h : word? t = some (name, rest)) : t = name ++ rest ∧ isWord name = true := by
  rw [word?, Text.spanWord, List.span_eq_takeWhile_dropWhile] at h
  split at h
  · cases h
  · rename_i hne
    obtain ⟨rfl, rfl⟩ := Prod.mk.inj (Option.some.inj h)
    refine ⟨List.takeWhile_append_dropWhile.symm, Text.isWord_iff.mpr ⟨fun hnil => hne _ (by rw [hnil]), fun c hc => ?_⟩⟩
    exact List.mem_takeWhile_imp hc

namespace IsEndOf

section Readers

variable (ht : IsEndOf line t)

include ht

/-- What ends an end of a line ends the line. -/
theorem of_isSuffix {s : Text} (h : s <:+ t) : IsEndOf line s :=
  ⟨h.isInfix.trans ht.isInfix, Text.isBlank_getLast_of_isSuffix h ht.not_blank⟩

/-- What stands behind a mark ends the line. -/
theorem of_dropStart? {mark : Text} (h : Text.dropStart? mark t = some rest) : IsEndOf line rest :=
  ht.of_isSuffix ⟨mark, (Text.dropStart?_eq_some_iff.mp h).symm⟩

/-- A word is a name in the line, and what follows it ends the line. -/
theorem of_word? {name : Text} (h : word? t = some (name, rest)) : IsNameIn line name ∧ IsEndOf line rest := by
  obtain ⟨rfl, hword⟩ := eq_append_of_word? h
  exact ⟨⟨hword, (List.prefix_append name rest).isInfix.trans ht.isInfix⟩, ht.of_isSuffix (List.suffix_append name rest)⟩

/-- A word that a question mark may follow is a name in the line, and what follows it ends the line. -/
theorem of_markedWord? {name : Text} {marked : Bool} (h : markedWord? t = some (name, marked, rest)) :
    IsNameIn line name ∧ IsEndOf line rest := by
  obtain ⟨⟨word, behind⟩, hword, h⟩ := Option.bind_eq_some_iff.mp h
  obtain ⟨hname, hbehind⟩ := ht.of_word? hword
  dsimp only at h
  split at h
  · obtain ⟨rfl, -, rfl⟩ := by simpa using h
    exact ⟨hname, hbehind.of_isSuffix (List.suffix_cons '?' _)⟩
  · obtain ⟨rfl, -, rfl⟩ := by simpa using h
    exact ⟨hname, hbehind⟩

/-- What stands behind blanks ends the line. -/
theorem of_afterBlanks? (h : afterBlanks? t = some rest) : IsEndOf line rest := by
  rw [afterBlanks?] at h
  split at h
  · obtain rfl := Option.some.inj h
    exact ht.of_isSuffix (List.dropWhile_suffix _)
  · cases h

/-- The last part of a line is a filled part of it. -/
theorem of_lastPart? (h : lastPart? t = some rest) : IsPartOf line rest := by
  obtain ⟨part, hblanks, h⟩ := Option.bind_eq_some_iff.mp h
  have hend := ht.of_afterBlanks? hblanks
  split at h
  · cases h
  · rename_i hpart
    obtain rfl := Option.some.inj h
    refine ⟨?_, hend.isInfix⟩
    rw [afterBlanks?] at hblanks
    split at hblanks
    · obtain rfl := Option.some.inj hblanks
      refine Text.isFilled_stripStart (fun hnil => hpart ?_) ht.not_blank
      rw [hnil]
      rfl
    · cases hblanks

/-- Words between dots are names in the line, and what follows the last of them ends the line. -/
theorem of_dottedWords? {names : List Text} (h : dottedWords? t = some (names, rest)) :
    (∀ name ∈ names, IsNameIn line name) ∧ IsEndOf line rest := by
  rw [dottedWords?, List.span_eq_takeWhile_dropWhile] at h
  dsimp only at h
  split at h
  · cases h
  · rename_i hfilled
    obtain ⟨rfl, rfl⟩ := Prod.mk.inj (Option.some.inj h)
    refine ⟨fun name hname => ?_, ht.of_isSuffix (List.dropWhile_suffix _)⟩
    have hin := Text.isInfix_of_mem_splitAll hname
    refine ⟨Text.isWord_iff.mpr ⟨?_, fun c hc => ?_⟩, (hin.trans (List.takeWhile_prefix _).isInfix).trans ht.isInfix⟩
    · rintro rfl
      exact hfilled (List.any_eq_true.mpr ⟨[], hname, rfl⟩)
    · -- A piece holds no dot, and the path has no other characters than dots and word characters.
      have hpath := List.mem_takeWhile_imp (hin.subset hc)
      rw [Text.eq_false_of_mem_splitAll hname c hc, Bool.or_false] at hpath
      exact hpath

/-- A text that is read behind a scope, or as it is, is read from an end of the line. -/
theorem of_scoped? {α : Type} {read : Text → Option α} {a : α} (h : scoped? read t = some a) :
    ∃ s, IsEndOf line s ∧ read s = some a := by
  obtain h | ⟨-, h⟩ := (Option.orElse_eq_some _ _ _).mp h
  · obtain ⟨s, hscope, hread⟩ := Option.bind_eq_some_iff.mp h
    obtain ⟨⟨scope, behind⟩, hword, hscope⟩ := Option.bind_eq_some_iff.mp hscope
    dsimp only at hscope
    split at hscope
    · exact ⟨s, (ht.of_word? hword).2.of_afterBlanks? hscope, hread⟩
    · cases hscope
  · exact ⟨t, ht, h⟩

/-! ## Code -/

/-- Declared parameters are filled parts of the line, without the characters that end one. -/
theorem of_declaredParams? {params : List Text} (h : declaredParams? t = some params) :
    ∀ name ∈ params, IsPartOf line name ∧ ',' ∉ name ∧ ')' ∉ name := by
  obtain ⟨inside, hinside, h⟩ := Option.bind_eq_some_iff.mp h
  have hend := (ht.of_isSuffix (List.dropWhile_suffix _)).of_dropStart? hinside
  cases hcut : Text.cutAtChar ')' inside with
  | mk names behind =>
    rw [hcut] at h
    cases behind with
    | none => cases h
    | some behind =>
      obtain rfl := Option.some.inj h
      obtain ⟨rfl, hparen⟩ := Text.cutAtChar_eq_some_iff.mp hcut
      intro name hname
      obtain ⟨hmem, hne⟩ := List.mem_filter.mp hname
      obtain ⟨piece, hpiece, rfl⟩ := List.mem_map.mp hmem
      have hstrip := Text.isInfix_strip piece
      have hnames := hstrip.trans (Text.isInfix_of_mem_splitAll hpiece)
      have hline := (hnames.trans (List.prefix_append names _).isInfix).trans hend.isInfix
      refine ⟨⟨Text.isFilled_strip (by simpa using hne), hline⟩, fun hcomma => ?_, fun hclose => ?_⟩
      · exact absurd (Text.eq_false_of_mem_splitAll hpiece ',' (hstrip.subset hcomma)) (by decide)
      · exact hparen (hnames.subset hclose)

/-- A function declaration is read from the line. -/
theorem of_declaredFunction? {d : DeclaredFunction} (h : declaredFunction? t = some d) :
    (Directive.function d).IsReadFrom line := by
  obtain ⟨behind, hbehind, h⟩ := Option.bind_eq_some_iff.mp h
  obtain ⟨path, hpath, h⟩ := Option.bind_eq_some_iff.mp h
  obtain ⟨⟨names, rest⟩, hnames, h⟩ := Option.bind_eq_some_iff.mp h
  obtain ⟨hwords, hrest⟩ := ((ht.of_dropStart? hbehind).of_afterBlanks? hpath).of_dottedWords? hnames
  dsimp only at h
  split at h
  · rename_i rest
    obtain ⟨⟨method, tail⟩, hmethod, h⟩ := Option.bind_eq_some_iff.mp h
    obtain ⟨className, hclass, h⟩ := Option.bind_eq_some_iff.mp h
    obtain ⟨params, hparams, h⟩ := Option.bind_eq_some_iff.mp h
    obtain rfl := Option.some.inj h
    obtain ⟨hmethod, htail⟩ := (hrest.of_isSuffix (List.suffix_cons ':' rest)).of_word? hmethod
    exact .function (hwords className (List.mem_of_getLast? hclass)) hmethod (htail.of_declaredParams? hparams)
  · obtain ⟨className, hclass, h⟩ := Option.bind_eq_some_iff.mp h
    obtain ⟨method, hmethod, h⟩ := Option.bind_eq_some_iff.mp h
    obtain ⟨params, hparams, h⟩ := Option.bind_eq_some_iff.mp h
    obtain rfl := Option.some.inj h
    exact .function (hwords className (List.mem_of_mem_dropLast (List.mem_of_getLast? hclass)))
      (hwords method (List.mem_of_getLast? hmethod)) (hrest.of_declaredParams? hparams)

/-- The assignment of an empty table is read from the line. -/
theorem of_emptyTable? {outer inner : Text} (h : emptyTable? t = some (outer, inner)) :
    (Directive.nested outer inner).IsReadFrom line := by
  obtain ⟨⟨first, behind⟩, hfirst, h⟩ := Option.bind_eq_some_iff.mp h
  obtain ⟨dotted, hdotted, h⟩ := Option.bind_eq_some_iff.mp h
  obtain ⟨⟨second, tail⟩, hsecond, h⟩ := Option.bind_eq_some_iff.mp h
  obtain ⟨_, -, h⟩ := Option.bind_eq_some_iff.mp h
  obtain ⟨_, -, h⟩ := Option.bind_eq_some_iff.mp h
  obtain ⟨_, -, h⟩ := Option.bind_eq_some_iff.mp h
  obtain ⟨houter, hbehind⟩ := ht.of_word? hfirst
  obtain ⟨hinner, -⟩ := (hbehind.of_dropStart? hdotted).of_word? hsecond
  split at h
  · obtain ⟨rfl, rfl⟩ := Prod.mk.inj (Option.some.inj h)
    exact .nested houter hinner
  · cases h

/-! ## Annotations -/

/-- An annotated parameter is read from the line. -/
theorem of_paramNote? {note : ParamNote} (h : paramNote? t = some note) : (Directive.param note).IsReadFrom line := by
  -- Whatever names the parameter, its type is the start of the last part behind that name.
  have htype : ∀ {name behind : Text} {optional : Bool}, (IsNameIn line name ∨ name = "...") → IsEndOf line behind →
      ((lastPart? behind).bind fun part => some (ParamNote.mk name (TypeText.spanType part).1 optional)) = some note →
      (Directive.param note).IsReadFrom line := by
    intro name behind optional hname hbehind h
    obtain ⟨part, hpart, h⟩ := Option.bind_eq_some_iff.mp h
    obtain rfl := Option.some.inj h
    exact .param hname (hbehind.of_lastPart? hpart)
  unfold paramNote? at h
  split at h
  · rename_i rest hdots
    exact htype (.inr rfl) (ht.of_dropStart? hdots) h
  · obtain ⟨⟨name, optional, behind⟩, hname, h⟩ := Option.bind_eq_some_iff.mp h
    exact htype (.inl (ht.of_markedWord? hname).1) (ht.of_markedWord? hname).2 h

/-- An index field is read from the line. -/
theorem of_indexField? {key value : Text} (h : indexField? t = some (key, value)) :
    (Directive.indexField key value).IsReadFrom line := by
  obtain ⟨inside, hinside, h⟩ := Option.bind_eq_some_iff.mp h
  obtain ⟨⟨word, behind⟩, hword, h⟩ := Option.bind_eq_some_iff.mp h
  obtain ⟨closed, hclosed, h⟩ := Option.bind_eq_some_iff.mp h
  obtain ⟨last, hlast, h⟩ := Option.bind_eq_some_iff.mp h
  obtain ⟨rfl, rfl⟩ := Prod.mk.inj (Option.some.inj h)
  obtain ⟨hkey, hbehind⟩ := (ht.of_dropStart? hinside).of_word? hword
  exact .indexField hkey ((hbehind.of_dropStart? hclosed).of_lastPart? hlast)

/-- A named field is read from the line. -/
theorem of_fieldNote? {note : FieldNote} (h : fieldNote? t = some note) : (Directive.field note).IsReadFrom line := by
  obtain ⟨⟨name, optional, behind⟩, hword, h⟩ := Option.bind_eq_some_iff.mp h
  obtain ⟨type, htype, h⟩ := Option.bind_eq_some_iff.mp h
  obtain rfl := Option.some.inj h
  obtain ⟨hname, hbehind⟩ := ht.of_markedWord? hword
  exact .field hname (hbehind.of_lastPart? htype)

/-- A trimmed annotation is read from the line. -/
theorem of_tagged? {keyword : Text} {d : Directive} (htrim : strip t = t) (h : tagged? keyword t = some d) :
    d.IsReadFrom line := by
  unfold tagged? at h
  split at h
  · obtain ⟨⟨name, rest⟩, hword, rfl⟩ := Option.map_eq_some_iff.mp h
    exact .exportHint (ht.of_word? hword).1
  split at h
  · obtain ⟨⟨name, rest⟩, hword, rfl⟩ := Option.map_eq_some_iff.mp h
    exact .classStart (ht.of_word? hword).1
  split at h
  · obtain ⟨⟨name, rest⟩, hword, h⟩ := Option.bind_eq_some_iff.mp h
    obtain ⟨last, hlast, h⟩ := Option.bind_eq_some_iff.mp h
    obtain rfl := Option.some.inj h
    obtain ⟨hname, hrest⟩ := ht.of_word? hword
    exact .alias hname (hrest.of_lastPart? hlast)
  split at h
  · obtain ⟨note, hnote, rfl⟩ := Option.map_eq_some_iff.mp h
    exact ht.of_paramNote? hnote
  split at h
  · split at h
    · cases h
    · rename_i hbody
      obtain rfl := Option.some.inj h
      refine .returns ⟨⟨fun hnil => hbody ?_, htrim⟩, ht.isInfix⟩
      rw [hnil]
      rfl
  split at h
  · obtain h | ⟨-, h⟩ := (Option.orElse_eq_some _ _ _).mp h
    · obtain ⟨⟨key, value⟩, hindex, rfl⟩ := Option.map_eq_some_iff.mp h
      obtain ⟨behind, hbehind, hread⟩ := ht.of_scoped? hindex
      exact hbehind.of_indexField? hread
    · obtain ⟨note, hnote, rfl⟩ := Option.map_eq_some_iff.mp h
      obtain ⟨behind, hbehind, hread⟩ := ht.of_scoped? hnote
      exact hbehind.of_fieldNote? hread
  · cases h

/-- The trimmed content of a comment is read from the line. -/
theorem isReadFrom_ofContent (htrim : strip t = t) : (Directive.ofContent t).IsReadFrom line := by
  unfold Directive.ofContent
  split
  · exact .silent
  · rename_i body
    rw [List.span_eq_takeWhile_dropWhile]
    dsimp only
    generalize hrest : body.dropWhile (!isBlank ·) = rest
    have hend : IsEndOf line rest := by
      rw [← hrest]
      exact ht.of_isSuffix ((List.dropWhile_suffix _).trans (List.suffix_cons '@' body))
    have htrim : strip (stripStart rest) = stripStart rest := by
      by_cases hnil : stripStart rest = []
      · rw [hnil]
        rfl
      · exact (Text.isFilled_stripStart hnil hend.not_blank).trimmed
    cases htag : tagged? (body.takeWhile (!isBlank ·)) (stripStart rest) with
    | none => exact .silent
    | some d => exact (hend.of_isSuffix (List.dropWhile_suffix _)).of_tagged? htrim htag
  · rename_i hne _
    exact .description ⟨⟨hne, htrim⟩, ht.isInfix⟩

end Readers

end IsEndOf

/-! ## Lines -/

/-- The directive of a line is read from it. -/
theorem Directive.isReadFrom_ofLine (line : Text) : (ofLine line).IsReadFrom line := by
  have htrim := isEndOf_strip line
  unfold ofLine
  dsimp only
  split
  · rename_i d hd
    exact htrim.of_declaredFunction? hd
  split
  · rename_i outer inner htable
    exact htrim.of_emptyTable? htable
  rw [ofOther]
  split
  · rename_i content hcontent
    have hend := htrim.of_dropStart? hcontent
    have hcomment : IsEndOf line (strip content) :=
      ⟨(Text.isInfix_strip content).trans hend.isInfix, (isEndOf_strip content).not_blank⟩
    exact hcomment.isReadFrom_ofContent (Text.strip_strip content)
  · split
    · exact .silent
    · exact .otherCode

end Source

end LuaTypings
