/-!
# Texts

A text is the list of its code points. The blank characters are the white space of every script together
with the four information separators; a text is trimmed of them at both ends by `strip`.
-/

namespace LuaTypings

/-- A text is the list of its code points. -/
abbrev Text := List Char

instance : Coe String Text := ⟨String.toList⟩

instance : LawfulBEq Text := inferInstance

namespace Text

/-- Whether a code point lies in one of the closed ranges. -/
def inRanges (ranges : List (Nat × Nat)) (c : Char) : Bool :=
  ranges.any fun (first, last) => first ≤ c.toNat && c.toNat ≤ last

/-- The blank code points, as closed ranges in rising order. -/
def blankRanges : List (Nat × Nat) :=
  [(0x09, 0x0d), (0x1c, 0x20), (0x85, 0x85), (0xa0, 0xa0), (0x1680, 0x1680), (0x2000, 0x200a),
   (0x2028, 0x2029), (0x202f, 0x202f), (0x205f, 0x205f), (0x3000, 0x3000)]

/-- Whether a character is blank. -/
def isBlank (c : Char) : Bool := inRanges blankRanges c

/-- The text without its leading blanks. -/
def stripStart (t : Text) : Text := t.dropWhile isBlank

/-- The text without its trailing blanks. -/
def stripEnd (t : Text) : Text := (t.reverse.dropWhile isBlank).reverse

/-- The text without the blanks at either end. -/
def strip (t : Text) : Text := stripEnd (stripStart t)

/-- The text without the question marks at its end. -/
def stripQuestionMarks (t : Text) : Text := (t.reverse.dropWhile (· == '?')).reverse

/-- The parts one after another, with the separator between neighbours. -/
def join (separator : Text) (parts : List Text) : Text := separator.intercalate parts

/-- Cuts at every character of a kind; there is always one piece more than such characters. -/
def splitAll (isSeparator : Char → Bool) : Text → List Text
  | [] => [[]]
  | c :: cs =>
    if isSeparator c then [] :: splitAll isSeparator cs
    else match splitAll isSeparator cs with
      | [] => [[c]]
      | piece :: pieces => (c :: piece) :: pieces

/-- The lower-case form of the letters of the English alphabet; every other character stays. -/
def lower (t : Text) : Text := t.map Char.toLower

/-- A natural number in decimal digits. -/
def ofNat (n : Nat) : Text := Nat.toDigits 10 n

end Text

end LuaTypings
