import DocPromotion.Text

/-!
Numbers of double precision, as exact fractions.

A double is a whole number of at most 53 bits times a power of two.  `Double.ofDecimal?` takes the
nearest one to a decimal number, and `Double.decimal` goes back: of the decimal numbers that are
nearer to a double than to any other it takes one with the fewest digits.  `Double.text` writes it
in a style that says where exponents begin.
-/

namespace DocPromotion

/-- The number `mantissa * 2 ^ exponent` with a sign.  Zero has a sign as well. -/
structure Double where
  negative : Bool
  mantissa : Nat
  exponent : Int
deriving Repr, DecidableEq

namespace Double

/-- The number of bits of a mantissa. -/
def precision : Nat := 53

/-- The least exponent. -/
def leastExponent : Int := -1074

/-- The largest exponent. -/
def largestExponent : Int := 971

/-- A quotient rounded to the nearest whole number; a half goes to the even one. -/
def roundDiv (n d : Nat) : Nat :=
  let q := n / d
  let r := n % d
  if 2 * r < d then q else if d < 2 * r then q + 1 else q + q % 2

/-- The fraction `n / d * b ^ e`. -/
def scale (b : Nat) (e : Int) (n d : Nat) : Nat × Nat :=
  if 0 ≤ e then (n * b.pow e.toNat, d) else (n, d * b.pow (-e).toNat)

/-- The exponent with which a positive fraction has a mantissa of full precision, if the exponent
is not below the least one. -/
def exponentOf (n d : Nat) : Int :=
  let guess : Int := max (n.log2 - d.log2 - precision) leastExponent
  let (n, d) := scale 2 (-guess) n d
  if n / d < 1 <<< precision then guess else guess + 1

/-- The double nearest to a fraction, if it is not too large. -/
def ofFraction? (negative : Bool) (n d : Nat) : Option Double :=
  if n = 0 then some ⟨negative, 0, 0⟩
  else
    let exponent := exponentOf n d
    let (n, d) := scale 2 (-exponent) n d
    let mantissa := roundDiv n d
    let x : Double :=
      if mantissa = 1 <<< precision then ⟨negative, 1 <<< (precision - 1), exponent + 1⟩
      else ⟨negative, mantissa, exponent⟩
    if x.exponent ≤ largestExponent then some x else none

/-- The double nearest to `m * 10 ^ e`, if it is not too large.  Where the size of the number alone
decides, its power of ten is not computed. -/
def ofDecimal? (negative : Bool) (m : Nat) (e : Int) : Option Double :=
  let magnitude : Int := (Nat.toDigits 10 m).length + e
  if m = 0 ∨ magnitude < -400 then some ⟨negative, 0, 0⟩
  else if 400 < magnitude then none
  else
    let (n, d) := scale 10 e m 1
    ofFraction? negative n d

/-- The double nearest to a whole number, if it is not too large. -/
def ofInt? (n : Int) : Option Double := ofFraction? (n < 0) n.natAbs 1

/-- Decimal digits behind a point that is moved by `point` places: the number is
`0.d₁d₂d₃… * 10 ^ point`. -/
structure Decimal where
  digits : List Char
  point : Int
deriving Repr, DecidableEq

/-- Digits without the zeros at their end. -/
def dropZeros (cs : List Char) : List Char := (cs.reverse.dropWhile (· == '0')).reverse

/-- The number of digits before the point of a positive fraction, which is negative where zeros
follow the point. -/
def pointOf (n d : Nat) : Int :=
  let guess := (((n.log2 : Int) - d.log2 - 1) * 30103).fdiv 100000
  let above (p : Int) : Bool :=
    let (n, d) := scale 10 (-p) n d
    n < d
  (([guess, guess + 1, guess + 2].find? above)).getD (guess + 3)

/-- A decimal number with `count` digits that is nearer to a positive double than to any other.
The doubles on both sides start `below` and two quarters of a unit away; a number halfway between
counts if the mantissa is even. -/
def decimalWith? (x : Double) (point : Int) (count : Nat) : Option Decimal :=
  let below := if x.mantissa = 1 <<< (precision - 1) ∧ leastExponent < x.exponent then 1 else 2
  let even := x.mantissa % 2 = 0
  let (s, t) := scale 2 (x.exponent - 2) 1 1
  let (s, t) := scale 10 (count - point) s t
  let value := 4 * x.mantissa * s
  let least := (4 * x.mantissa - below) * s
  let largest := (4 * x.mantissa + 2) * s
  let down := value / t
  let up := down + 1
  let downFits : Bool := if even then least ≤ down * t else least < down * t
  let upFits : Bool := if even then up * t ≤ largest else up * t < largest
  let chosen? :=
    if downFits && upFits then some (roundDiv value t)
    else if downFits then some down
    else if upFits then some up
    else none
  chosen?.map fun n =>
    let digits := Nat.toDigits 10 n
    ⟨dropZeros digits, point + digits.length - count⟩

/-- The shortest decimal number that stands for a double. -/
def decimal (x : Double) : Decimal :=
  if x.mantissa = 0 then ⟨['0'], 1⟩
  else
    let (n, d) := scale 2 x.exponent x.mantissa 1
    let point := pointOf n d
    ((List.range 17).findSome? fun k => decimalWith? x point (k + 1)).getD ⟨['0'], 1⟩

/-- How numbers are written: with which exponents without showing them, and with how many digits
an exponent is written at least. -/
structure Style where
  leastPlain : Int
  largestPlain : Int
  exponentWidth : Nat

namespace Decimal

/-- A number without an exponent. -/
def plain (x : Decimal) : List Char :=
  if x.point ≤ 0 then '0' :: '.' :: (List.replicate (-x.point).toNat '0' ++ x.digits)
  else
    let whole := x.point.toNat
    if x.digits.length ≤ whole then x.digits ++ List.replicate (whole - x.digits.length) '0'
    else x.digits.take whole ++ '.' :: x.digits.drop whole

/-- A number with an exponent, after its first digit. -/
def scientific (width : Nat) (x : Decimal) : List Char :=
  let exponent := x.point - 1
  let digits := Nat.toDigits 10 exponent.natAbs
  let fraction := if x.digits.length ≤ 1 then [] else '.' :: x.digits.drop 1
  x.digits.take 1 ++ fraction ++ 'e' :: (if exponent < 0 then '-' else '+')
    :: (List.replicate (width - digits.length) '0' ++ digits)

end Decimal

/-- A double as a text. -/
def text (style : Style) (x : Double) : Text :=
  let d := x.decimal
  let exponent := d.point - 1
  let shown :=
    if style.leastPlain ≤ exponent ∧ exponent ≤ style.largestPlain then d.plain
    else d.scientific style.exponentWidth
  Text.ofChars (if x.negative then '-' :: shown else shown)

end Double

end DocPromotion
