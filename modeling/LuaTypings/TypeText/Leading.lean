import LuaTypings.TypeText.Bracket

/-!
# The type in front of free text

A type may be written with blanks around a union bar, after a colon or after a comma. The words of a text,
cut at the blanks outside all brackets, belong to its leading type as long as such a character glues them.
-/

namespace LuaTypings.TypeText

/-- The words of a text: its runs between blanks that stand outside all brackets. -/
def topLevelWords (t : Text) : List Text := topPartsBy Text.isBlank t

/-- Whether a word goes on in the next one: it ends in a bar, a colon or a comma, or the next one starts
with a bar. -/
def glued (left right : Text) : Bool :=
  left.getLast?.any (fun c => c == '|' || c == ':' || c == ',') || right.head? == some '|'

/-- The longest non-empty run of words at the start in which neighbours are glued, and the other words. -/
def spanGlued : List Text → List Text × List Text
  | [] => ([], [])
  | [word] => ([word], [])
  | word :: next :: words =>
    if glued word next then
      let (taken, rest) := spanGlued (next :: words)
      (word :: taken, rest)
    else ([word], next :: words)

/-- The type that a text starts with and the free text behind it, their words single-spaced. -/
def spanType (t : Text) : Text × Text :=
  let (taken, rest) := spanGlued (topLevelWords t)
  (Text.join " " taken, Text.join " " rest)

end LuaTypings.TypeText
