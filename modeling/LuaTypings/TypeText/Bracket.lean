import LuaTypings.Text.Basic

/-!
# Bracket depth

Type expressions nest through round, square, curly and angle brackets. All scanning counts how many brackets
are open: any opener counts up and any closer down, whatever its kind, and the count never falls below zero,
so a stray closer is tolerated. A separator counts only where no bracket is open.
-/

namespace LuaTypings.TypeText

/-- The characters that open a group. -/
def isOpener (c : Char) : Bool := c == '(' || c == '[' || c == '{' || c == '<'

/-- The characters that close a group. -/
def isCloser (c : Char) : Bool := c == ')' || c == ']' || c == '}' || c == '>'

/-- The number of open brackets after one more character. -/
def depthAfter (depth : Nat) (c : Char) : Nat :=
  if isOpener c then depth + 1 else if isCloser c then depth - 1 else depth

/-- Whether a character is a separator of the given kind where `depth` brackets are open. Brackets never
separate. -/
def isTopSeparator (isSeparator : Char → Bool) (depth : Nat) (c : Char) : Bool :=
  depth == 0 && !isOpener c && !isCloser c && isSeparator c

/-- The pieces between the separators that stand at depth zero, for a text that starts inside `depth` open
brackets. There is always one piece more than such separators. -/
def segments (isSeparator : Char → Bool) : Nat → Text → List Text
  | _, [] => [[]]
  | depth, c :: t =>
    if isTopSeparator isSeparator depth c then [] :: segments isSeparator 0 t
    else match segments isSeparator (depthAfter depth c) t with
      | [] => [[c]]
      | piece :: pieces => (c :: piece) :: pieces

/-- The trimmed, non-empty pieces between the separators outside all brackets. -/
def topPartsBy (isSeparator : Char → Bool) (t : Text) : List Text :=
  ((segments isSeparator 0 t).map Text.strip).filter (!·.isEmpty)

/-- The trimmed, non-empty pieces between the occurrences of a character outside all brackets. -/
def topParts (separator : Char) (t : Text) : List Text := topPartsBy (· == separator) t

/-- Splits at a separator given as a text. Separators are single characters, so a text of any other length
never separates. -/
def topPartsAt (separator t : Text) : List Text := topPartsBy (fun c => separator == [c]) t

/-- Cuts at the closer that ends `depth` open brackets: what stands inside them, and what follows. -/
def splitAtClose? : Nat → Text → Option (Text × Text)
  | _, [] => none
  | depth, c :: t =>
    if isCloser c && depth ≤ 1 then some ([], t)
    else (splitAtClose? (depthAfter depth c) t).map fun (inside, rest) => (c :: inside, rest)

/-- The index of the closer that matches the opener at an index, if an opener stands there and it is ever
closed. -/
def closerIndex? (t : Text) (start : Int) : Option Nat :=
  if start < 0 then none
  else match t.drop start.toNat with
    | [] => none
    | c :: rest =>
      if isOpener c then
        (splitAtClose? 1 rest).map fun (inside, _) => start.toNat + inside.length + 1
      else none

/-- What a pair of parentheses encloses, when the first parenthesis of the text closes at its very end. -/
def enclosed? : Text → Option Text
  | '(' :: t =>
    match splitAtClose? 1 t with
    | some (inside, []) => if t.getLast? = some ')' then some inside else none
    | _ => none
  | _ => none

/-- Whether a text is one pair of parentheses with its content. -/
def isEnclosed (t : Text) : Bool := (enclosed? t).isSome

/-- What the first opening parenthesis encloses, and what follows its closer. -/
def firstGroup? (t : Text) : Option (Text × Text) :=
  match t.dropWhile (· ≠ '(') with
  | [] => none
  | _ :: rest => splitAtClose? 1 rest

end LuaTypings.TypeText
