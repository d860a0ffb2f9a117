/-!
# Binary floating-point numbers

Double-precision numbers as exact values: a finite number is a natural mantissa below two to the
fifty-third times a power of two. Everything here is exact arithmetic on natural numbers.

* `Double.ofRatio` rounds a fraction to the nearest double, ties to the even mantissa.
* `Double.times` and `Double.dividedBy` are product and quotient with that rounding.
-/

namespace ContractGen
namespace Data

/-- A double-precision number. -/
inductive Double
  /-- The number `mantissa * 2 ^ exponent`, with a sign. -/
  | finite (negative : Bool) (mantissa : Nat) (exponent : Int)
  | infinite (negative : Bool)
  | nan
deriving DecidableEq, Repr, Inhabited

namespace Double

/-- A power of two. -/
def twoTo (n : Nat) : Nat := Nat.pow 2 n

/-- A power of ten. -/
def tenTo (n : Nat) : Nat := Nat.pow 10 n

/-- The least exponent of a double. -/
def minExponent : Int := -1074

/-- The greatest exponent of a double. -/
def maxExponent : Int := 971

/-- One more than the greatest mantissa. -/
def mantissaBound : Nat := twoTo 53

/-- A fraction divided by a power of two. -/
def scaleDown (num den : Nat) (exponent : Int) : Nat × Nat :=
  if 0 ≤ exponent then (num, den * twoTo exponent.toNat) else (num * twoTo (-exponent).toNat, den)

/-- The quotient of two naturals rounded to the nearest natural, ties to even. -/
def roundDiv (num den : Nat) : Nat :=
  let q := num / den
  let twice := 2 * (num % den)
  if twice > den ∨ (twice = den ∧ q % 2 = 1) then q + 1 else q

/-- The exponent at which the mantissa of a positive fraction has fifty-three bits, if it can. -/
def exponentFor (num den : Nat) : Int :=
  let e : Int := (num.log2 : Int) - den.log2 - 53
  let (n, d) := scaleDown num den e
  max minExponent (if n / d < mantissaBound then e else e + 1)

/-- The double nearest to a fraction, ties to the even mantissa. -/
def ofRatio (negative : Bool) (num den : Nat) : Double :=
  if num = 0 then
    finite negative 0 minExponent
  else
    let e := exponentFor num den
    let (n, d) := scaleDown num den e
    let m := roundDiv n d
    let (m, e) := if m = mantissaBound then (m / 2, e + 1) else (m, e)
    if e > maxExponent then infinite negative else finite negative m e

/-- The double nearest to a natural number. -/
def ofNat (n : Nat) : Double :=
  ofRatio false n 1

/-- The double nearest to an integer. -/
def ofInt (n : Int) : Double :=
  ofRatio (n < 0) n.natAbs 1

/-- The absolute value of a finite double as a fraction. -/
def ratio (mantissa : Nat) (exponent : Int) : Nat × Nat :=
  if 0 ≤ exponent then (mantissa * twoTo exponent.toNat, 1) else (mantissa, twoTo (-exponent).toNat)

/-- Whether a double is a zero of either sign. -/
def isZero : Double → Bool
  | finite _ m _ => m = 0
  | _ => false

/-- Whether a double is infinite. -/
def isInfinite : Double → Bool
  | infinite _ => true
  | _ => false

/-- The same number with a given sign. -/
def withSign (negative : Bool) : Double → Double
  | finite _ m e => finite negative m e
  | infinite _ => infinite negative
  | nan => nan

/-- The rounded product of the absolute values of two doubles. -/
def times : Double → Double → Double
  | finite _ m e, finite _ n f =>
    let (a, b) := ratio m e
    let (c, d) := ratio n f
    ofRatio false (a * c) (b * d)
  | nan, _ => nan
  | _, nan => nan
  | _, _ => infinite false

/-- The rounded quotient of the absolute values of two doubles. -/
def dividedBy : Double → Double → Double
  | finite _ m e, finite _ n f =>
    let (a, b) := ratio m e
    let (c, d) := ratio n f
    ofRatio false (a * d) (b * c)
  | infinite s, finite _ _ _ => infinite s
  | finite _ _ _, infinite _ => ofNat 0
  | _, _ => nan

/--
The double nearest to `digits * 10 ^ exponent`. Numbers far outside the range of doubles are
recognized by their exponent alone.
-/
def ofDecimal (negative : Bool) (digits : Nat) (exponent : Int) : Double :=
  if digits = 0 ∨ exponent + (Nat.toDigits 10 digits).length < -400 then
    ofRatio negative 0 1
  else if exponent > 400 then
    infinite negative
  else if 0 ≤ exponent then
    ofRatio negative (digits * tenTo exponent.toNat) 1
  else
    ofRatio negative digits (tenTo (-exponent).toNat)

end Double
end Data
end ContractGen
