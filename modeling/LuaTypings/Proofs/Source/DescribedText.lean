import LuaTypings.Proofs.Source.LineParts

/-!
# Descriptions are parts of lines

A description is found in one line of the source, as the whole content of a comment or behind the type of a field. It is
therefore a part of that line as it was written (`isInfix_of_ofLine`).
-/

namespace LuaTypings.Source

variable {line text : Text}

/-- The description that a directive gives: prose, or what stands behind the type of a field. -/
def Directive.description? : Directive → Option Text
  | .description text => some text
  | .field note => note.description
  | _ => none

/-- The description that a line gives is a filled part of the line. -/
theorem isPartOf_of_description? (h : (Directive.ofLine line).description? = some text) : IsPartOf line text := by
  have hread := Directive.isReadFrom_ofLine line
  generalize Directive.ofLine line = d at h hread
  cases hread with
  | description htext =>
    obtain rfl := Option.some.inj h
    exact htext
  | field hname hpart => exact (FieldNote.isPartOf_ofParts hpart _ _).2.2 text h
  | _ => cases h

/-- The description that a line gives is a part of the line. -/
theorem isInfix_of_ofLine (h : (Directive.ofLine line).description? = some text) : text <:+: line :=
  (isPartOf_of_description? h).isInfix

end LuaTypings.Source
