import LuaTypings.Text.Search
import LuaTypings.Text.Word

/-!
# Substitution

A rule says what is written instead of the text at one place. Substitution tries the rule at every place from left
to right; what it writes is not looked at again, and a place inside what it took is none.
-/

namespace LuaTypings.Text

/-- A rule for the place between a character, if there is one, and the text behind it: what is written instead
of the start of that text, and what remains of it. -/
abbrev Rule := Option Char → Text → Option (Text × Text)

/-- Applies a rule to a text, at most as often as the limit says, with the next `skip` characters already
taken. -/
def substituteFrom (rule : Rule) : (limit : Option Nat) → (skip : Nat) → Option Char → Text → Text
  | _, _, _, [] => []
  | limit, skip + 1, _, c :: t => substituteFrom rule limit skip (some c) t
  | limit, 0, previous, c :: t =>
    match if limit = some 0 then none else rule previous (c :: t) with
    | some (written, rest) =>
      written ++ substituteFrom rule (limit.map (· - 1)) (t.length - rest.length) (some c) t
    | none => c :: substituteFrom rule limit 0 (some c) t

/-- Applies a rule to a text, everywhere or as often as the limit says. -/
def substitute (rule : Rule) (limit : Option Nat) (t : Text) : Text := substituteFrom rule limit 0 none t

/-- The rule that writes one literal text for another. -/
def literalRule (old new : Text) : Rule := fun _ t => (dropStart? old t).map fun rest => (new, rest)

/-- Whether a word starts or ends between a character and the text behind it. -/
def atWordBoundary (previous : Option Char) (t : Text) : Bool :=
  previous.any isWordChar != t.head?.any isWordChar

/-- Changes every line of a text by itself; lines are separated by line feeds. -/
def mapLines (change : Text → Text) (t : Text) : Text :=
  join "\n" ((splitAll (· == '\n') t).map change)

end LuaTypings.Text
