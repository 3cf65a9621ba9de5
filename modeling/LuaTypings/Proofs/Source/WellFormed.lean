import LuaTypings.Proofs.Source.DeclaredSignature
import LuaTypings.Proofs.Source.LineParts
import LuaTypings.Proofs.Source.Waiting
import LuaTypings.Proofs.TypeText.CommentCut
import LuaTypings.Proofs.TypeText.LeadingWords

/-!
# Well-formed directives

Whatever a line holds, the names in its directive are words and the other texts in it are filled: not empty, and trimmed
(`Directive.isWellFormed_ofLine`). A line gives words and filled parts of it (`Directive.IsReadFrom`), and what is cut
off a type behind that never takes its first character.

What waits while lines are read is then well formed too (`Progress.isWellFormed_readLines`), and a returned type that
waits is never empty: a declaration returns nil only where none waits (`wellFormed_lines`).
-/

namespace LuaTypings

namespace TypeText

open Text

variable {t : Text}

/-! ## What the cuts leave -/

/-- A cleaned return text is filled, unless the text is blank. -/
theorem isFilled_withoutProse (h : strip t ≠ []) : IsFilled (withoutProse t) :=
  ⟨withoutProse_ne_nil h, (isClean_withoutProse t).bare.trimmed⟩

/-- The type in front of free text is filled, unless the text is blank. -/
theorem isFilled_spanType (h : strip t ≠ []) : IsFilled (spanType t).1 := by
  have hlongest := isLongestGlued_spanGlued (topLevelWords t)
  have hwords : topLevelWords t ≠ [] := fun hnil => h (strip_eq_nil_iff.mpr (topLevelWords_eq_nil_iff.mp hnil))
  refine isFilled_join (hlongest.ne_nil hwords) fun word hword => ?_
  have hmem : word ∈ topLevelWords t := by
    rw [← hlongest.append_eq]
    exact List.mem_append_left _ hword
  exact ⟨by simpa using List.of_mem_filter hmem, strip_of_mem_topPartsBy hmem⟩

/-- Nothing is left of a blank text when a return text is cleaned. -/
theorem withoutProse_eq_nil_iff : withoutProse t = [] ↔ ∀ c ∈ t, isBlank c = true := by
  rw [← strip_eq_nil_iff]
  refine ⟨fun h => by_contra fun hne => withoutProse_ne_nil hne h, fun h => ?_⟩
  have hnil : withoutProse [] = [] := by decide
  rw [← hnil]
  exact withoutProse_congr_strip h

/-- No type stands in a blank text, and one in every other text. -/
theorem spanType_eq_nil_iff : (spanType t).1 = [] ↔ ∀ c ∈ t, isBlank c = true := by
  rw [← strip_eq_nil_iff]
  refine ⟨fun h => by_contra fun hne => (isFilled_spanType hne).ne_nil h, fun h => ?_⟩
  have hwords : topLevelWords t = [] := topLevelWords_eq_nil_iff.mpr (strip_eq_nil_iff.mp h)
  rw [spanType, hwords]
  rfl

end TypeText

namespace Source

open Text (isWord IsFilled isBlank strip)
open TypeText (withoutComment withoutProse spanType functionText)

/-! ## Well-formed directives -/

/-- A name is a word, and so it does not end in a question mark. -/
structure IsName (name : Text) : Prop where
  /-- One word character or more. -/
  word : isWord name = true
  /-- The mark of what may be left out is no part of a name. -/
  unmarked : name.getLast? ≠ some '?'

/-- A parameter has a name, or it stands for all further ones, and it has a type. -/
structure ParamNote.IsWellFormed (note : ParamNote) : Prop where
  /-- The name of a parameter may be the three dots. -/
  name : IsName note.name ∨ note.name = "..."
  /-- The type is filled. -/
  type : IsFilled note.type

/-- A field has a name and a type, and a description of it is filled. -/
structure FieldNote.IsWellFormed (note : FieldNote) : Prop where
  /-- The name is a word. -/
  name : IsName note.name
  /-- The type is filled, whatever was cut off as its description. -/
  type : IsFilled note.type
  /-- The description is filled if there is one. -/
  description : ∀ text ∈ note.description, IsFilled text

/-- A declaration has names for the class and for the method, and each of its parameters could stand between commas and
parentheses. -/
structure DeclaredFunction.IsWellFormed (d : DeclaredFunction) : Prop where
  /-- The class has a name. -/
  className : IsName d.className
  /-- The method has a name. -/
  method : IsName d.method
  /-- The parameters are filled, without a comma and a closing parenthesis. -/
  params : ∀ name ∈ d.params, IsFilled name ∧ ',' ∉ name ∧ ')' ∉ name

/-- A directive is well formed when its names are words and its other texts are filled. -/
def Directive.IsWellFormed : Directive → Prop
  | .classStart name | .exportHint name => IsName name
  | .alias name body => IsName name ∧ IsFilled body
  | .param note => note.IsWellFormed
  | .returns type => IsFilled type
  | .indexField key value => IsName key ∧ IsFilled value
  | .field note => note.IsWellFormed
  | .description text => IsFilled text
  | .function d => d.IsWellFormed
  | .nested outer inner => IsName outer ∧ IsName inner
  | .otherCode | .silent => True

/-- A word is a name. -/
theorem isName_of_isWord {name : Text} (h : isWord name = true) : IsName name := ⟨h, TypeText.getLast?_of_isWord h⟩

/-- Nothing is left for the type of a field exactly of a blank text. -/
theorem FieldNote.type_ofParts_eq_nil_iff {t : Text} (name : Text) (optional : Bool) :
    (ofParts name optional (strip t)).type = [] ↔ ∀ c ∈ t, isBlank c = true := by
  rw [← Text.strip_eq_nil_iff]
  constructor
  · intro h
    by_contra hne
    have hwhole : IsPartOf (strip t) (strip t) := ⟨Text.isFilled_strip hne, List.infix_refl _⟩
    exact (isPartOf_ofParts hwhole name optional).2.1.filled.ne_nil h
  · intro h
    rw [h]
    rfl

/-- The directive of a line is well formed. -/
theorem Directive.isWellFormed_ofLine (line : Text) : (ofLine line).IsWellFormed := by
  have hread := isReadFrom_ofLine line
  have hword : ∀ {name : Text}, IsNameIn line name → IsName name := fun h => isName_of_isWord h.word
  generalize ofLine line = d at hread ⊢
  cases hread with
  | classStart hname => exact hword hname
  | «alias» hname hbody => exact ⟨hword hname, hbody.filled⟩
  | exportHint hname => exact hword hname
  | param hname hpart => exact ⟨hname.imp_left hword, TypeText.isFilled_spanType hpart.filled.strip_ne_nil⟩
  | returns hpart => exact TypeText.isFilled_withoutProse hpart.filled.strip_ne_nil
  | indexField hkey hvalue => exact ⟨hword hkey, hvalue.filled⟩
  | field hname hpart =>
    obtain ⟨hsame, htype, hprose⟩ := FieldNote.isPartOf_ofParts hpart _ _
    exact ⟨hsame.symm ▸ hword hname, htype.filled, fun text htext => (hprose text htext).filled⟩
  | description htext => exact htext.filled
  | function hclass hmethod hparams =>
    exact ⟨hword hclass, hword hmethod, fun name hname => ⟨(hparams name hname).1.filled, (hparams name hname).2⟩⟩
  | nested houter hinner => exact ⟨hword houter, hword hinner⟩
  | otherCode => trivial
  | silent => trivial

/-! ## What waits -/

/-- What waits is well formed when each part of it comes from a well-formed directive. -/
structure Context.IsWellFormed (c : Context) : Prop where
  /-- The open class has a name. -/
  openClass : ∀ name ∈ c.openClass, IsName name
  /-- The parameters are well formed. -/
  params : ∀ note ∈ c.params, note.IsWellFormed
  /-- The type to return is filled if one is given. -/
  returns : ∀ type ∈ c.returns, IsFilled type
  /-- The lines of prose are filled. -/
  description : ∀ text ∈ c.description, IsFilled text

namespace Context

variable {c : Context}

/-- Nothing that waits is well formed. -/
theorem isWellFormed_empty : empty.IsWellFormed :=
  ⟨nofun, fun _ h => absurd h List.not_mem_nil, nofun, fun _ h => absurd h List.not_mem_nil⟩

/-- Without what waits a context stays well formed. -/
theorem IsWellFormed.cleared (h : c.IsWellFormed) : c.cleared.IsWellFormed :=
  { isWellFormed_empty with openClass := h.openClass }

/-- A well-formed directive leads from a well-formed context to one. -/
theorem IsWellFormed.next {d : Directive} (h : c.IsWellFormed) (hd : d.IsWellFormed) : (c.next d).IsWellFormed := by
  cases d with
  | classStart name =>
    refine { h with openClass := ?_ }
    rintro _ ⟨⟩
    exact hd
  | param note =>
    exact { h with params := List.forall_mem_append.mpr ⟨h.params, List.forall_mem_singleton.mpr hd⟩ }
  | returns type =>
    refine { h with returns := ?_ }
    rintro _ ⟨⟩
    exact hd
  | description text =>
    exact { h with description := List.forall_mem_append.mpr ⟨h.description, List.forall_mem_singleton.mpr hd⟩ }
  | field note =>
    rw [Context.next]
    split
    · exact { h with description := fun _ hmem => absurd hmem List.not_mem_nil }
    · exact h
  | nested outer inner =>
    rw [Context.next]
    split
    · exact h
    · exact h.cleared
  | function d => exact h.cleared
  | otherCode => exact h.cleared
  | «alias» name body => exact h
  | exportHint name => exact h
  | indexField key value => exact h
  | silent => exact h

/-- A declaration returns the type that waits, and nil only when none does. -/
theorem IsWellFormed.functionType_eq (h : c.IsWellFormed) (d : DeclaredFunction) :
    c.functionType d = functionText (c.writeParams d) (c.returns.getD "nil") := by
  rw [Context.functionType_eq, writtenReturns]
  congr 1
  split
  · rename_i hnone
    rw [hnone]
    rfl
  · rename_i hempty
    exact absurd rfl (h.returns [] hempty).ne_nil
  · rename_i type _ htype
    rw [htype]
    rfl

end Context

/-- Reading lines keeps what waits well formed. -/
theorem Progress.isWellFormed_readLines {p : Progress} (h : p.context.IsWellFormed) (lines : List Text) :
    (p.readLines lines).context.IsWellFormed := by
  induction lines generalizing p with
  | nil => exact h
  | cons line lines ih => exact ih (p := p.step (.ofLine line)) (h.next (Directive.isWellFormed_ofLine line))

/-- No type waits exactly when none was given since the last reset. -/
theorem returns_eq_none_iff (lines : List Text) :
    (Progress.start.readLines lines).context.returns = none ↔
      ∀ d ∈ since Event.resets (lines.map .ofLine), d.returned? = none := by
  rw [context_eq_ofDirectives]
  change ((since Event.resets (lines.map .ofLine)).filterMap Directive.returned?).getLast? = none ↔ _
  rw [List.getLast?_eq_none_iff, List.filterMap_eq_nil_iff]

/-- **Every line is well formed.** Whatever a line holds, the names in its directive are words and the other texts in it
are filled, and so is all that waits while lines are read. A declaration returns the type that waits, and nil only when
none was given since the last reset. Of the cuts that take comments and prose from a type none leaves nothing, unless the
text is blank. -/
theorem wellFormed_lines :
    (∀ line : Text, (Directive.ofLine line).IsWellFormed) ∧
      (∀ lines : List Text,
        (Progress.start.readLines lines).context.IsWellFormed ∧
          (∀ d : DeclaredFunction, (Progress.start.readLines lines).context.functionType d =
            functionText ((Progress.start.readLines lines).context.writeParams d)
              ((Progress.start.readLines lines).context.returns.getD "nil")) ∧
          ((Progress.start.readLines lines).context.returns = none ↔
            ∀ d ∈ since Event.resets (lines.map .ofLine), d.returned? = none)) ∧
      ∀ t : Text,
        (withoutComment t = [] ↔ ∀ c ∈ t, isBlank c = true) ∧
          (withoutProse t = [] ↔ ∀ c ∈ t, isBlank c = true) ∧
          ((spanType t).1 = [] ↔ ∀ c ∈ t, isBlank c = true) ∧
          ∀ (name : Text) (optional : Bool),
            (FieldNote.ofParts name optional (strip t)).type = [] ↔ ∀ c ∈ t, isBlank c = true := by
  refine ⟨Directive.isWellFormed_ofLine, fun lines => ?_, fun t => ?_⟩
  · have hcontext := Progress.isWellFormed_readLines (p := .start) Context.isWellFormed_empty lines
    exact ⟨hcontext, hcontext.functionType_eq, returns_eq_none_iff lines⟩
  · exact ⟨TypeText.withoutComment_eq_nil_iff, TypeText.withoutProse_eq_nil_iff, TypeText.spanType_eq_nil_iff,
      FieldNote.type_ofParts_eq_nil_iff⟩

/-- The first word of a type is never taken for its description. -/
example : Directive.ofLine "---@field size? Vector Big -- in pixels" =
    .field ⟨"size", "Vector", true, some "Big -- in pixels"⟩ := by decide

end Source

end LuaTypings
