import LuaTypings.Proofs.Source.LineParts
import LuaTypings.Proofs.TypeText.OneLine

/-!
# Directives on one line

A directive is read off one line, and none of the texts in it has a line end (`Directive.isOneLine_of_mem_texts`): names,
types and prose are cut out of the line, and where words are put together again a space goes in between.
-/

namespace LuaTypings.Source

open Text

/-- The texts of a parameter annotation. -/
def ParamNote.texts (note : ParamNote) : List Text := [note.name, note.type]

/-- The texts of a field annotation. -/
def FieldNote.texts (note : FieldNote) : List Text := note.name :: note.type :: note.description.toList

/-- The texts of a function declaration. -/
def DeclaredFunction.texts (d : DeclaredFunction) : List Text := d.className :: d.method :: d.params

/-- The texts that a directive holds. -/
def Directive.texts : Directive → List Text
  | classStart name | exportHint name => [name]
  | .alias name body => [name, body]
  | param note => note.texts
  | returns type => [type]
  | indexField key value => [key, value]
  | field note => note.texts
  | description text => [text]
  | function d => d.texts
  | nested outer inner => [outer, inner]
  | otherCode | silent => []

/-- No text in the directive of a line has a line end. -/
theorem Directive.isOneLine_of_mem_texts {line : Text} (hline : isOneLine line = true) :
    ∀ s ∈ (ofLine line).texts, isOneLine s = true := by
  have hread := isReadFrom_ofLine line
  have hword : ∀ {name : Text}, IsNameIn line name → isOneLine name = true := fun h =>
    isOneLine_of_isInfix h.isInfix hline
  have hin : ∀ {part : Text}, IsPartOf line part → isOneLine part = true := fun h =>
    isOneLine_of_isInfix h.isInfix hline
  generalize ofLine line = d at hread ⊢
  cases hread with
  | classStart hname => exact List.forall_mem_singleton.mpr (hword hname)
  | «alias» hname hbody => exact List.forall_mem_cons.mpr ⟨hword hname, List.forall_mem_singleton.mpr (hin hbody)⟩
  | exportHint hname => exact List.forall_mem_singleton.mpr (hword hname)
  | param hname hpart =>
    refine List.forall_mem_cons.mpr ⟨?_, List.forall_mem_singleton.mpr (TypeText.isOneLine_spanType (hin hpart))⟩
    obtain hname | rfl := hname
    · exact hword hname
    · rfl
  | returns hpart => exact List.forall_mem_singleton.mpr (TypeText.isOneLine_withoutProse (hin hpart))
  | indexField hkey hvalue => exact List.forall_mem_cons.mpr ⟨hword hkey, List.forall_mem_singleton.mpr (hin hvalue)⟩
  | field hname hpart =>
    obtain ⟨hsame, htype, hprose⟩ := FieldNote.isPartOf_ofParts hpart _ _
    refine List.forall_mem_cons.mpr ⟨hsame.symm ▸ hword hname, List.forall_mem_cons.mpr ⟨hin htype, fun s hs => ?_⟩⟩
    exact hin (hprose s (Option.mem_toList.mp hs))
  | description htext => exact List.forall_mem_singleton.mpr (hin htext)
  | function hclass hmethod hparams =>
    refine List.forall_mem_cons.mpr ⟨hword hclass, List.forall_mem_cons.mpr ⟨hword hmethod, fun s hs => ?_⟩⟩
    exact hin (hparams s hs).1
  | nested houter hinner => exact List.forall_mem_cons.mpr ⟨hword houter, List.forall_mem_singleton.mpr (hword hinner)⟩
  | otherCode => exact fun s hs => absurd hs List.not_mem_nil
  | silent => exact fun s hs => absurd hs List.not_mem_nil

end LuaTypings.Source
