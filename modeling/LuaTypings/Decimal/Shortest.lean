import LuaTypings.Text.Basic

/-!
# The shortest text of a number

A decimal number is kept as the double-precision binary number nearest to it, and written with the fewest digits
that are nearer to this number than to any other. All arithmetic is on whole numbers.
-/

namespace LuaTypings

/-- The number `coefficient · 10 ^ exponent`, or its opposite. -/
structure Decimal where
  negative : Bool
  coefficient : Nat
  exponent : Int
  deriving DecidableEq, Repr

namespace Decimal

/-- The binary number `significand · 2 ^ exponent`. -/
structure Binary where
  significand : Nat
  exponent : Int
  deriving DecidableEq, Repr

/-- The numerator and the denominator of `n · base ^ exponent / d`. -/
def scale (base : Nat) (exponent : Int) (n d : Nat) : Nat × Nat :=
  (n * base.pow exponent.toNat, d * base.pow (-exponent).toNat)

/-- The whole number nearest to a fraction, of two equally near the even one. -/
def roundHalfEven (n d : Nat) : Nat :=
  if 2 * (n % d) > d || (2 * (n % d) == d && n / d % 2 == 1) then n / d + 1 else n / d

/-- The least exponent of a binary number. -/
def minExponent : Int := -1074

/-- The least significand of 53 bits. -/
def minSignificand : Nat := 0x10000000000000

/-- The binary number nearest to a positive fraction, its significand of 53 bits unless the exponent is least. -/
def Binary.ofFraction (n d : Nat) : Binary :=
  let guess : Int := n.log2 - d.log2 - 52
  let floorAt (q : Int) := let (n, d) := scale 2 (-q) n d; n / d
  let q := max (if floorAt guess < minSignificand then guess - 1 else guess) minExponent
  let (n, d) := scale 2 (-q) n d
  let m := roundHalfEven n d
  if m = 2 * minSignificand then ⟨minSignificand, q + 1⟩ else ⟨m, q⟩

/-- Whether `c · 10 ^ k` is nearer to the binary number than to its neighbours; a number halfway between two
belongs to the one with the even significand. -/
def isNearest (b : Binary) (c : Nat) (k : Int) : Bool :=
  let below := if b.significand = minSignificand && b.exponent > minExponent then 1 else 2
  -- Both sides are compared in units of a quarter of the binary number's last place.
  let (l, r) := scale 10 k c 1
  let (r, l) := scale 2 (b.exponent - 2) r l
  let (low, high) := (r * (4 * b.significand - below), r * (4 * b.significand + 2))
  if b.significand % 2 == 0 then low ≤ l && l ≤ high else low < l && l < high

/-- The largest power of ten that is not greater than a positive fraction, by a search upwards from `e`. -/
def powerBelow (n d : Nat) : (steps : Nat) → (e : Int) → Int
  | 0, e => e
  | steps + 1, e =>
    let (n', d') := scale 10 (-(e + 1)) n d
    if d' ≤ n' then powerBelow n d steps (e + 1) else e

/-- The digits and the power of ten of their last place: the first of the grids from `digits` digits on that
holds a number nearest to the binary one. -/
def shortestFrom (b : Binary) (n d : Nat) (power : Int) : (grids digits : Nat) → Nat × Int
  | 0, digits => (n / d, power - digits)
  | grids + 1, digits =>
    let k := power - digits + 1
    let (n', d') := scale 10 (-k) n d
    let c := n' / d'
    let nearer := if 2 * (n' % d') < d' || (2 * (n' % d') == d' && c % 2 == 0) then c else c + 1
    let further := if nearer = c then c + 1 else c
    if isNearest b nearer k then (nearer, k)
    else if isNearest b further k then (further, k)
    else shortestFrom b n d power grids (digits + 1)

/-- Drops the zeros at the end of a number's digits, which raises the power of ten of the last place. -/
def dropZeros : (steps : Nat) → Nat → Int → Nat × Int
  | 0, c, k => (c, k)
  | steps + 1, c, k => if c ≠ 0 && c % 10 == 0 then dropZeros steps (c / 10) (k + 1) else (c, k)

/-- The fewest digits of a binary number, and the power of ten of the last of them. -/
def shortestDigits (b : Binary) : Nat × Int :=
  let (n, d) := scale 2 b.exponent b.significand 1
  let guess : Int := ((n.log2 : Int) - d.log2 - 1) * 30103 / 100000 - 1
  let (c, k) := shortestFrom b n d (powerBelow n d 4 guess) 17 1
  dropZeros 17 c k

/-- Writes digits with the power of ten of the last one. Powers of the first digit from -4 to 15 are written
positionally, with a zero behind the point of a whole number; others with an exponent of two digits or more. -/
def layout (c : Nat) (k : Int) : Text :=
  let digits := Text.ofNat c
  let power : Int := k + digits.length - 1
  if -4 ≤ power && power < 16 then
    if power < 0 then "0." ++ List.replicate (-power - 1).toNat '0' ++ digits
    else if 0 ≤ k then digits ++ List.replicate k.toNat '0' ++ ".0"
    else digits.take (power + 1).toNat ++ "." ++ digits.drop (power + 1).toNat
  else
    let magnitude := Text.ofNat power.natAbs
    digits.take 1 ++ (if digits.length = 1 then [] else '.' :: digits.drop 1) ++
      (if power < 0 then "e-".toList else "e+".toList) ++
      (if magnitude.length = 1 then '0' :: magnitude else magnitude)

/-- The shortest text of the double-precision number nearest to a decimal. Powers of ten beyond the range of
these numbers are not computed. -/
def shortest (x : Decimal) : Text :=
  let sign : Text := if x.negative then ['-'] else []
  let power : Int := x.exponent + (Text.ofNat x.coefficient).length
  if x.coefficient = 0 || power < -330 then sign ++ "0.0"
  else if power > 310 then sign ++ "inf"
  else
    let (n, d) := scale 10 x.exponent x.coefficient 1
    let b := Binary.ofFraction n d
    if b.exponent > 971 then sign ++ "inf"
    else if b.significand = 0 then sign ++ "0.0"
    else
      let (c, k) := shortestDigits b
      sign ++ layout c k

end Decimal

end LuaTypings
