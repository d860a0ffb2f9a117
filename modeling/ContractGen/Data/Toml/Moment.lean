import ContractGen.Data.Json.Reader

/-!
# Dates and times of TOML

A moment is a date, a time of day, or both, then possibly with an offset from universal time. A
moment is kept to the nanosecond and has one written form, whatever the form in which it was read:
capital marks, seconds always given, and no zeros at the end of a fraction.
-/

namespace ContractGen
namespace Data
namespace Toml

open Text (isDigit)
open Json (natOfDigits)

/-- A day of the calendar. -/
structure Date where
  year : Nat
  month : Nat
  day : Nat
deriving DecidableEq, Repr, Inhabited

/-- A time of day. The second may be a leap second. -/
structure Time where
  hour : Nat
  minute : Nat
  second : Nat := 0
  nanosecond : Nat := 0
deriving DecidableEq, Repr, Inhabited

/-- How far a clock is from universal time. -/
inductive Offset
  /-- The clock shows universal time. -/
  | universal
  /-- The clock is ahead by some minutes. -/
  | ahead (minutes : Int)
deriving DecidableEq, Repr, Inhabited

/-- A date, a time of day, or both. -/
inductive Moment
  | date (d : Date)
  | time (t : Time)
  | dateTime (d : Date) (t : Time) (o : Option Offset)
deriving DecidableEq, Repr, Inhabited

/-! ## Reading -/

/-- A text before and after the first character of a class. -/
def splitAtFirst (p : Char → Bool) (text : List Char) : List Char × Option (List Char) :=
  (text.takeWhile fun c => !p c, (text.dropWhile fun c => !p c).tail?)

/-- A number with a fixed count of digits, no greater than a bound. -/
def fixedNumber? (count bound : Nat) (text : List Char) : Option Nat :=
  if text.length = count ∧ text.all isDigit ∧ natOfDigits text ≤ bound then
    some (natOfDigits text)
  else
    none

/-- The number of days of a month. -/
def daysIn (year month : Nat) : Nat :=
  if month = 2 then
    if year % 4 = 0 ∧ (year % 100 ≠ 0 ∨ year % 400 = 0) then 29 else 28
  else if month = 4 ∨ month = 6 ∨ month = 9 ∨ month = 11 then
    30
  else
    31

/-- Read a date. -/
def Date.read? (text : List Char) : Option Date :=
  match Text.splitAt '-' text with
  | [y, m, d] => do
    let year ← fixedNumber? 4 9999 y
    let month ← fixedNumber? 2 12 m
    let day ← fixedNumber? 2 31 d
    if 1 ≤ month ∧ 1 ≤ day ∧ day ≤ daysIn year month then some { year, month, day } else none
  | _ => none

/-- How many places a fraction of a second is kept to. -/
def fractionPlaces : Nat := 9

/-- The nanoseconds of a fraction of a second; further places are dropped. -/
def nanoseconds (fraction : List Char) : Nat :=
  let places := fraction.take fractionPlaces
  natOfDigits (places ++ List.replicate (fractionPlaces - places.length) '0')

/-- Read the seconds of a time, possibly with a fraction, and the nanoseconds. -/
def readSeconds? (text : List Char) : Option (Nat × Nat) := do
  let (whole, fraction) := splitAtFirst (· = '.') text
  let second ← fixedNumber? 2 60 whole
  match fraction with
  | none => some (second, 0)
  | some f => if !f.isEmpty && f.all isDigit then some (second, nanoseconds f) else none

/-- Read a time of day; the seconds may be left out. -/
def Time.read? (text : List Char) : Option Time :=
  match Text.splitAt ':' text with
  | [h, m] => do
    some { hour := ← fixedNumber? 2 23 h, minute := ← fixedNumber? 2 59 m }
  | [h, m, s] => do
    let hour ← fixedNumber? 2 23 h
    let minute ← fixedNumber? 2 59 m
    let (second, nanosecond) ← readSeconds? s
    some { hour, minute, second, nanosecond }
  | _ => none

/-- Read an offset in hours and minutes, after its sign. -/
def Offset.read? (behind : Bool) (text : List Char) : Option Offset :=
  match Text.splitAt ':' text with
  | [h, m] => do
    let hours ← fixedNumber? 2 23 h
    let minutes ← fixedNumber? 2 59 m
    let total : Int := Int.ofNat (60 * hours + minutes)
    some (.ahead (if behind then -total else total))
  | _ => none

/-- Read a time of day, possibly with an offset. -/
def readClock? (text : List Char) : Option (Time × Option Offset) :=
  let time := text.takeWhile fun c => c ≠ '+' && c ≠ '-'
  match text.drop time.length with
  | sign :: offset => do
    some (← Time.read? time, some (← Offset.read? (sign = '-') offset))
  | [] =>
    if time.getLast? = some 'Z' ∨ time.getLast? = some 'z' then do
      some (← Time.read? time.dropLast, some .universal)
    else do
      some (← Time.read? time, none)

/-- Read a moment. A date takes ten characters, and one more stands between it and a time. -/
def Moment.read? (text : List Char) : Option Moment :=
  match Date.read? text, Time.read? text with
  | some d, _ => some (.date d)
  | none, some t => some (.time t)
  | none, none =>
    match text.drop 10 with
    | c :: clock => do
      if c = 'T' ∨ c = 't' ∨ c = ' ' then
        let d ← Date.read? (text.take 10)
        let (t, o) ← readClock? clock
        some (.dateTime d t o)
      else
        none
    | [] => none

/-! ## Writing -/

/-- A number with zeros in front, up to a width. -/
def padded (width n : Nat) : String :=
  let digits := Nat.toDigits 10 n
  String.ofList (List.replicate (width - digits.length) '0' ++ digits)

/-- The written form of a date. -/
def Date.text (d : Date) : String :=
  padded 4 d.year ++ "-" ++ padded 2 d.month ++ "-" ++ padded 2 d.day

/-- The written form of a fraction of a second, without zeros at its end. -/
def fractionText (nanosecond : Nat) : String :=
  if nanosecond = 0 then
    ""
  else
    let places := (padded fractionPlaces nanosecond).toList
    "." ++ String.ofList (places.reverse.dropWhile (· = '0')).reverse

/-- The written form of a time of day. -/
def Time.text (t : Time) : String :=
  padded 2 t.hour ++ ":" ++ padded 2 t.minute ++ ":" ++ padded 2 t.second ++
    fractionText t.nanosecond

/-- The written form of an offset. -/
def Offset.text : Offset → String
  | universal => "Z"
  | ahead minutes =>
    let n := minutes.natAbs
    (if minutes < 0 then "-" else "+") ++ padded 2 (n / 60) ++ ":" ++ padded 2 (n % 60)

/-- The written form of a moment. -/
def Moment.text : Moment → String
  | date d => d.text
  | time t => t.text
  | dateTime d t o => d.text ++ "T" ++ t.text ++ (o.map Offset.text).getD ""

/-- The key under which a moment is found when it is read as a record. -/
def momentKey : String := "$__toml_private_datetime"

/-- The value of a moment: a record with one entry. -/
def Moment.toValue (m : Moment) : Value :=
  .record [(momentKey, .string m.text)]

end Toml
end Data
end ContractGen
