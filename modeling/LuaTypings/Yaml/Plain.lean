import LuaTypings.Decimal.Shortest
import LuaTypings.Yaml.Cursor
import LuaTypings.Yaml.Value

/-!
# Scalars without quotes

A scalar without quotes is nothing, a truth value, a number or a date if it looks like one, and else a string. Of the dates
only those of a day are known, and to the base sixty only whole numbers.
-/

namespace LuaTypings.Yaml

/-- Whether a text is one of several words. -/
def isOneOf (words : List String) (t : Text) : Bool := words.any (·.toList == t)

/-- A sign at the start, as whether it is a minus, and what follows it. -/
def sign (t : Text) : Bool × Text :=
  match t with
  | '-' :: t => (true, t)
  | '+' :: t => (false, t)
  | t => (false, t)

/-- The number written by digits in a base; an underscore between them counts for nothing. -/
def digitsValue (base : Nat) (t : Text) : Nat :=
  (t.filter (· ≠ '_')).foldl (fun n c => base * n + (hexDigit? c).getD 0) 0

/-- The number written by digits of a base with underscores between them, and by nothing else. -/
def digits? (base : Nat) (t : Text) : Option Nat :=
  if t.all fun c => c == '_' || (hexDigit? c).any (· < base) then some (digitsValue base t) else none

/-- A number to the base sixty: decimal digits, and numbers below sixty behind colons. -/
def sexagesimal? (t : Text) : Option Nat :=
  match Text.splitAll (· == ':') t with
  | [] => none
  | first :: parts => do
    let isPart := fun part : Text => match part with
      | [c] => c.isDigit
      | [c, d] => '0' ≤ c && c ≤ '5' && d.isDigit
      | _ => false
    guard (parts.all isPart)
    return parts.foldl (fun n part => 60 * n + digitsValue 10 part) (← digits? 10 first)

/-- A whole number: one zero, binary, hexadecimal or octal digits behind a zero, or decimal digits that do not start with
one, further ones to the base sixty behind them if need be. -/
def wholeNumber? (t : Text) : Option Int :=
  let (negative, digits) := sign t
  let value? : Option Nat := match digits with
    | [] => none
    | ['0'] => some 0
    | '0' :: 'b' :: rest => if rest.all (· == '_') then none else digits? 2 rest
    | '0' :: 'x' :: rest => if rest.all (· == '_') then none else digits? 16 rest
    | '0' :: rest => digits? 8 rest
    | c :: _ => if c == '_' then none else sexagesimal? digits
  value?.map fun n => if negative then -(n : Int) else n

/-- The exponent at the end of a fractional number: nothing, or a letter, a sign and digits. -/
def exponent? (t : Text) : Option Int :=
  match t with
  | [] => some 0
  | e :: s :: digits =>
    if (e == 'e' || e == 'E') && (s == '+' || s == '-') && !digits.isEmpty && digits.all Char.isDigit then
      some (if s == '-' then -(digitsValue 10 digits : Int) else digitsValue 10 digits)
    else none
  | _ => none

/-- A fractional number: digits with a point, and an exponent or none. Only behind digits may the point stand
without any. -/
def fraction? (t : Text) : Option Text := do
  let (negative, unsigned) := sign t
  let isDigit := fun c : Char => c == '_' || c.isDigit
  let (whole, rest) := unsigned.span isDigit
  let (places, rest) := (← Text.dropStart? "." rest).span isDigit
  let exponent ← exponent? rest
  let signed := unsigned.length ≠ t.length
  guard (if whole.isEmpty then !signed && places.head?.any Char.isDigit else whole.head?.any Char.isDigit)
  let decimals := (places.filter (· ≠ '_')).length
  return Decimal.shortest ⟨negative, digitsValue 10 (whole ++ places), exponent - decimals⟩

/-- The numbers that are no decimals: infinity, which may have a sign, and the undefined number. -/
def special? (t : Text) : Option Text :=
  let (negative, unsigned) := sign t
  if isOneOf [".inf", ".Inf", ".INF"] unsigned then some (if negative then "-inf" else "inf")
  else if isOneOf [".nan", ".NaN", ".NAN"] t then some "nan"
  else none

/-- Whether a text is a date: a year, a month and a day. -/
def isDate (t : Text) : Bool :=
  match Text.splitAll (· == '-') t with
  | [year, month, day] =>
    year.length == 4 && month.length == 2 && day.length == 2 && (year ++ month ++ day).all Char.isDigit
  | _ => false

/-- What a scalar without quotes stands for. -/
def Scalar.ofPlain (t : Text) : Scalar :=
  if isOneOf ["", "~", "null", "Null", "NULL"] t then .null
  else if isOneOf ["yes", "Yes", "YES", "true", "True", "TRUE", "on", "On", "ON"] t then .bool true
  else if isOneOf ["no", "No", "NO", "false", "False", "FALSE", "off", "Off", "OFF"] t then .bool false
  else match wholeNumber? t with
    | some n => .whole n
    | none => match fraction? t <|> special? t with
      | some digits => .fraction digits
      | none => if isDate t then .other else .string t

end LuaTypings.Yaml
