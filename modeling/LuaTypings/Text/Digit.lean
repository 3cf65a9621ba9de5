import LuaTypings.Text.Basic

/-!
# Decimal digits

The digits of every script, and the texts of numbers that are made of them.
-/

namespace LuaTypings.Text

/-- The code points of the digits zero. The nine digits above zero follow each of them. -/
def zeroDigits : List Nat :=
  [0x30, 0x660, 0x6f0, 0x7c0, 0x966, 0x9e6, 0xa66, 0xae6, 0xb66, 0xbe6, 0xc66, 0xce6, 0xd66, 0xde6, 0xe50, 0xed0,
   0xf20, 0x1040, 0x1090, 0x17e0, 0x1810, 0x1946, 0x19d0, 0x1a80, 0x1a90, 0x1b50, 0x1bb0, 0x1c40, 0x1c50, 0xa620,
   0xa8d0, 0xa900, 0xa9d0, 0xa9f0, 0xaa50, 0xabf0, 0xff10, 0x104a0, 0x10d30, 0x11066, 0x110f0, 0x11136, 0x111d0,
   0x112f0, 0x11450, 0x114d0, 0x11650, 0x116c0, 0x11730, 0x118e0, 0x11950, 0x11c50, 0x11d50, 0x11da0, 0x16a60,
   0x16ac0, 0x16b50, 0x1d7ce, 0x1d7d8, 0x1d7e2, 0x1d7ec, 0x1d7f6, 0x1e140, 0x1e2f0, 0x1e950, 0x1fbf0]

/-- Whether a character is a decimal digit. -/
def isDigit (c : Char) : Bool := inRanges (zeroDigits.map fun first => (first, first + 9)) c

/-- Whether a text is one digit or more. -/
def areDigits (t : Text) : Bool := !t.isEmpty && t.all isDigit

/-- Whether a blank may stand around a number: the information separators may not. -/
def isMargin (c : Char) : Bool := isBlank c && !inRanges [(0x1c, 0x1f)] c

/-- The text without a sign at its start. -/
def dropSign : Text → Text
  | '+' :: t | '-' :: t => t
  | t => t

/-- Whether a text is a whole number, between blanks and with a sign if need be. Single underscores may stand
between its digits. -/
def isWholeNumber (t : Text) : Bool :=
  let trimmed := ((t.dropWhile isMargin).reverse.dropWhile isMargin).reverse
  (splitAll (· == '_') (dropSign trimmed)).all areDigits

/-- Whether digits follow a dash, with a point before or among them if need be, and nothing but a line feed follows
them. -/
def isDashedNumber : Text → Bool
  | '-' :: t =>
    let body := if t.getLast? = some '\n' then t.dropLast else t
    match splitAll (· == '.') body with
    | [whole] => areDigits whole
    | [whole, fraction] => whole.all isDigit && areDigits fraction
    | _ => false
  | _ => false

/-! ## Texts of whole numbers -/

/-- How many decimal digits the text of a whole number may have. -/
def maxDigits : Nat := 4300

/-- Whether a whole number has too many digits to be written. -/
def isTooLong (n : Int) : Bool := Nat.pow 10 maxDigits ≤ n.natAbs

/-- The decimal digits of a whole number, behind a minus when it is negative. -/
def ofInt (n : Int) : Text := if n < 0 then '-' :: ofNat n.natAbs else ofNat n.natAbs

/-- The text of a whole number is not empty. -/
theorem ofInt_ne_nil (n : Int) : ofInt n ≠ [] := by
  unfold ofInt
  split
  · exact List.cons_ne_nil _ _
  · exact Nat.toDigits_ne_nil

end LuaTypings.Text
