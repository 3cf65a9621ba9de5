import LuaTypings.Decimal.Shortest
import LuaTypings.Json.Value
import LuaTypings.Text.Digit
import LuaTypings.Text.Search

/-!
# Reading structured values

Every reader gives what it read and the text behind it, or else the text from the place on where something else was
needed. From the length of that text a reader of the whole knows the position of the fault. Whole numbers may have so
many digits and values may be nested so deep; a text that goes beyond that is given up where it does.
-/

namespace LuaTypings.Json

/-- Why a text is no value. The type says how places in the text are given. -/
inductive Fault (α : Type) where
  /-- Something else was needed at a place. -/
  | unexpected (place : α)
  /-- A whole number is too long, or the nesting too deep. -/
  | tooLarge
  deriving DecidableEq, Repr

/-- The fault with its place in other terms. -/
def Fault.map {α β : Type} (f : α → β) : Fault α → Fault β
  | unexpected place => unexpected (f place)
  | tooLarge => tooLarge

/-- What a reader gives: a result and the text behind it, or the fault, whose place is the text from there on. -/
abbrev Step (α : Type) := Except (Fault Text) (α × Text)

/-- A reader that needs something else than what a text starts with. -/
def unexpected {α : Type} (t : Text) : Step α := .error (.unexpected t)

/-- Whether a character may stand between the parts of a value. -/
def isSpace (c : Char) : Bool := c == ' ' || c == '\t' || c == '\n' || c == '\r'

/-- The text from the next part on. -/
def skip (t : Text) : Text := t.dropWhile isSpace

/-! ## Strings -/

/-- The value of a hexadecimal digit. -/
def hexDigit? (c : Char) : Option Nat :=
  if '0' ≤ c && c ≤ '9' then some (c.toNat - '0'.toNat)
  else if 'a' ≤ c && c ≤ 'f' then some (c.toNat - 'a'.toNat + 10)
  else if 'A' ≤ c && c ≤ 'F' then some (c.toNat - 'A'.toNat + 10)
  else none

/-- The number of hexadecimal digits. -/
def hexValue? (digits : Text) : Option Nat :=
  digits.foldlM (fun n c => (hexDigit? c).map (16 * n + ·)) 0

/-- The character that a letter behind a backslash stands for. -/
def escaped? : Char → Option Char
  | '"' => some '"'
  | '\\' => some '\\'
  | '/' => some '/'
  | 'b' => some '\x08'
  | 'f' => some '\x0c'
  | 'n' => some '\n'
  | 'r' => some '\r'
  | 't' => some '\t'
  | _ => none

/-- The code units of a string up to its closing quote, where `start` is the text from the opening one on. Control
characters have to be escaped, and something has to follow four hexadecimal digits. -/
def unitsFrom (start : Text) : Text → Step (List Nat)
  | [] => unexpected start
  | '"' :: rest => .ok ([], rest)
  | '\\' :: 'u' :: a :: b :: c :: d :: rest =>
    match hexValue? [a, b, c, d], rest with
    | some unit, _ :: _ => (unitsFrom start rest).map fun (units, last) => (unit :: units, last)
    | _, _ => unexpected ('u' :: a :: b :: c :: d :: rest)
  | '\\' :: 'u' :: rest => unexpected ('u' :: rest)
  | ['\\'] => unexpected start
  | '\\' :: c :: rest =>
    match escaped? c with
    | some e => (unitsFrom start rest).map fun (units, last) => (e.toNat :: units, last)
    | none => unexpected ('\\' :: c :: rest)
  | c :: rest =>
    if c.toNat < 0x20 then unexpected (c :: rest)
    else (unitsFrom start rest).map fun (units, last) => (c.toNat :: units, last)

/-- The characters of code units. Two halves of a pair make one character; a half by itself makes the replacement
character. -/
def charsOfUnits : List Nat → Text
  | [] => []
  | [unit] => [if unit.isValidChar then Char.ofNat unit else '\ufffd']
  | high :: low :: units =>
    if 0xd800 ≤ high && high < 0xdc00 && 0xdc00 ≤ low && low < 0xe000 then
      Char.ofNat (0x10000 + (high - 0xd800) * 0x400 + (low - 0xdc00)) :: charsOfUnits units
    else (if high.isValidChar then Char.ofNat high else '\ufffd') :: charsOfUnits (low :: units)

/-- The string whose opening quote is the first character of `start`. -/
def stringFrom (start : Text) : Step Text :=
  (unitsFrom start (start.drop 1)).map fun (units, last) => (charsOfUnits units, last)

/-! ## Numbers -/

/-- The number that digits write. -/
def digitsValue (digits : Text) : Nat := digits.foldl (fun n c => 10 * n + (c.toNat - '0'.toNat)) 0

/-- Digits at the start of a text, at least one. -/
def digits? (t : Text) : Option (Text × Text) :=
  match t.span Char.isDigit with
  | ([], _) => none
  | digits => some digits

/-- A whole part: one zero, or digits that do not start with a zero. -/
def wholePart? : Text → Option (Text × Text)
  | '0' :: t => some (['0'], t)
  | t => digits? t

/-- The places behind a point, if a point and digits follow. -/
def places? : Text → Option (Text × Text)
  | '.' :: t => digits? t
  | _ => none

/-- The exponent, if a letter, a sign if need be, and digits follow. -/
def exponent? : Text → Option (Int × Text)
  | e :: t =>
    if e == 'e' || e == 'E' then
      match t with
      | '-' :: t => (digits? t).map fun (digits, rest) => (-(digitsValue digits : Int), rest)
      | '+' :: t => (digits? t).map fun (digits, rest) => ((digitsValue digits : Int), rest)
      | t => (digits? t).map fun (digits, rest) => ((digitsValue digits : Int), rest)
    else none
  | [] => none

/-- The number at the start of a text. -/
def numberFrom (t : Text) : Step Value :=
  let (negative, unsigned) := match t with
    | '-' :: t => (true, t)
    | t => (false, t)
  match wholePart? unsigned with
  | none => unexpected t
  | some (whole, rest) =>
    let fraction := places? rest
    let rest := (fraction.map (·.2)).getD rest
    let exponent := exponent? rest
    let rest := (exponent.map (·.2)).getD rest
    if fraction.isNone && exponent.isNone then
      let n : Int := digitsValue whole
      if whole.length > Text.maxDigits then .error .tooLarge
      else .ok (.whole (if negative then -n else n), rest)
    else
      let places := (fraction.map (·.1)).getD []
      let power := (exponent.map (·.1)).getD 0 - places.length
      .ok (.fraction (Decimal.shortest ⟨negative, digitsValue (whole ++ places), power⟩), rest)

/-! ## Values -/

/-- The words that are values. -/
def words : List (Text × Value) :=
  [("null", .null), ("true", .bool true), ("false", .bool false), ("NaN", .fraction "nan"),
   ("Infinity", .fraction "inf"), ("-Infinity", .fraction "-inf")]

/-- The word or the number at the start of a text. -/
def atomFrom (t : Text) : Step Value :=
  match words.findSome? fun (word, value) => (Text.dropStart? word t).map fun rest => (value, rest) with
  | some step => .ok step
  | none => numberFrom t

/-- How deep lists and objects may be nested. -/
def maxDepth : Nat := 940

mutual

/-- A value that may be nested to a depth. -/
def valueFrom : (fuel depth : Nat) → Text → Step Value
  | 0, _, t => unexpected t
  | fuel + 1, depth, t =>
    match t, depth with
    | '"' :: _, _ => (stringFrom t).map fun (text, rest) => (.string text, rest)
    | '[' :: _, 0 | '\x7b' :: _, 0 => .error .tooLarge
    | '[' :: rest, depth + 1 =>
      match skip rest with
      | ']' :: rest => .ok (.list [], rest)
      | rest => (itemsFrom fuel depth rest).map fun (items, rest) => (.list items, rest)
    | '\x7b' :: rest, depth + 1 =>
      match skip rest with
      | '\x7d' :: rest => .ok (.object [], rest)
      | rest => (entriesFrom fuel depth rest).map fun (entries, rest) => (.object entries, rest)
    | t, _ => atomFrom t

/-- The items of a list up to its bracket, at least one. -/
def itemsFrom : (fuel depth : Nat) → Text → Except (Fault Text) (List Value × Text)
  | 0, _, t => unexpected t
  | fuel + 1, depth, t => do
    let (value, rest) ← valueFrom fuel depth t
    match skip rest with
    | ']' :: rest => return ([value], rest)
    | ',' :: rest =>
      let (values, rest) ← itemsFrom fuel depth (skip rest)
      return (value :: values, rest)
    | rest => unexpected rest

/-- The entries of an object up to its brace, at least one. -/
def entriesFrom : (fuel depth : Nat) → Text → Except (Fault Text) (List (Text × Value) × Text)
  | 0, _, t => unexpected t
  | fuel + 1, depth, t =>
    match t with
    | '"' :: _ => do
      let (name, rest) ← stringFrom t
      match skip rest with
      | ':' :: rest =>
        let (value, rest) ← valueFrom fuel depth (skip rest)
        match skip rest with
        | '\x7d' :: rest => return ([(name, value)], rest)
        | ',' :: rest =>
          let (entries, rest) ← entriesFrom fuel depth (skip rest)
          return ((name, value) :: entries, rest)
        | rest => unexpected rest
      | rest => unexpected rest
    | t => unexpected t

end

/-- The value that a text writes, or the first fault in it, placed by its position. A byte-order mark at the start
counts for nothing. Every character gives rise to two calls at most, which the fuel allows. -/
def Value.ofText (t : Text) : Except (Fault Nat) Value :=
  let whole := match t with
    | '\ufeff' :: t => t
    | t => t
  let read : Except (Fault Text) Value :=
    match valueFrom (2 * whole.length + 2) maxDepth (skip whole) with
    | .error fault => .error fault
    | .ok (value, rest) => if (skip rest).isEmpty then .ok value else .error (.unexpected (skip rest))
  read.mapError (·.map fun rest => whole.length - rest.length)

end LuaTypings.Json
