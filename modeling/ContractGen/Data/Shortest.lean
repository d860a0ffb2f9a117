import ContractGen.Data.Double

/-!
# The shortest decimal of a double

Among the decimals that round to a given double, one with the fewest digits is written, and of
those the nearest; a tie goes up. The digits are always written positionally.
-/

namespace ContractGen
namespace Data
namespace Double

/-- The decimals that round to a double: those within `below` and `above` of `num`, over `den`. -/
structure RoundingInterval where
  num : Nat
  den : Nat
  below : Nat
  above : Nat
  /-- Whether the ends of the interval belong to it. -/
  closed : Bool

/-- The interval of the number `mantissa * 2 ^ exponent`. -/
def interval (mantissa : Nat) (exponent : Int) : RoundingInterval :=
  let (num, den) := ratio 1 (exponent - 2)
  { num := 4 * mantissa * num
    den
    -- The gap below a power of two is half as wide as the gap above it.
    below := if mantissa = twoTo 52 then num else 2 * num
    above := 2 * num
    closed := mantissa % 2 = 0 }

/-- Whether `digits * 10 ^ exponent` lies in an interval. -/
def RoundingInterval.contains (i : RoundingInterval) (digits : Nat) (exponent : Int) : Bool :=
  let scaled :=
    if 0 ≤ exponent then digits * tenTo exponent.toNat * i.den else digits * i.den
  let factor := if 0 ≤ exponent then 1 else tenTo (-exponent).toNat
  if i.closed then
    decide (i.num * factor ≤ scaled + i.below * factor) &&
      decide (scaled ≤ (i.num + i.above) * factor)
  else
    decide (i.num * factor < scaled + i.below * factor) &&
      decide (scaled < (i.num + i.above) * factor)

/-- How many decimal digits a number has before the point; negative if zeros follow the point. -/
def decimalExponent (num den : Nat) : Int :=
  (Nat.toDigits 10 (num * tenTo 400 / den)).length - 400

/-- A decimal with a given unit in the interval, next to the number and nearest to it. -/
def RoundingInterval.candidate? (i : RoundingInterval) (exponent : Int) : Option Nat :=
  let num := if 0 ≤ exponent then i.num else i.num * tenTo (-exponent).toNat
  let den := if 0 ≤ exponent then i.den * tenTo exponent.toNat else i.den
  let down := num / den
  let up := down + 1
  match i.contains down exponent, i.contains up exponent with
  | true, true => some (if 2 * (num % den) ≥ den then up else down)
  | true, false => some down
  | false, true => some up
  | false, false => none

/-- The first unit, from the coarsest to the finest, that has a candidate. -/
def RoundingInterval.search (i : RoundingInterval) (top : Int) : List Nat → Nat × Int
  | [] => (0, 0)
  | n :: ns =>
    match i.candidate? (top - n) with
    | some digits => (digits, top - n)
    | none => i.search top ns

/-- The digits and the exponent of the shortest decimal. -/
def shortest (mantissa : Nat) (exponent : Int) : Nat × Int :=
  let i := interval mantissa exponent
  i.search (decimalExponent i.num i.den) [1, 2, 3, 4, 5, 6, 7, 8, 9, 10, 11, 12, 13, 14, 15, 16, 17]

/-- A decimal number written positionally. -/
def positional (digits : Nat) (exponent : Int) : String :=
  let ds := Nat.toDigits 10 digits
  if 0 ≤ exponent then
    String.ofList (ds ++ List.replicate exponent.toNat '0')
  else
    let places := (-exponent).toNat
    let padded := List.replicate (places + 1 - ds.length) '0' ++ ds
    let whole := padded.take (padded.length - places)
    let fraction := padded.drop (padded.length - places)
    -- Zeros at the end of the fraction are not written.
    let fraction := (fraction.reverse.dropWhile (· == '0')).reverse
    String.ofList (if fraction.isEmpty then whole else whole ++ '.' :: fraction)

/-- The text of a double. -/
def text : Double → String
  | nan => "NaN"
  | infinite negative => if negative then "-inf" else "inf"
  | finite negative mantissa exponent =>
    (if negative then "-" else "") ++
      (if mantissa = 0 then
        "0"
      else
        let (digits, e) := shortest mantissa exponent
        positional digits e)

end Double
end Data
end ContractGen
