import ContractGen.Data.Value
import ContractGen.Text.Blank
import ContractGen.Text.Taken

/-!
# Reading JSON

A strict reader: one value, blanks around it, and nothing else. What is well formed but cannot be
kept becomes an unusable value: a text with half a surrogate pair, a number that is too large, and
what nests deeper than `nestingLimit`.

A number without fraction and exponent that fits into 64 bits is an integer, except for the
negative zero; all other numbers are floating-point. These are rounded twice: the leading digits
that fit into 64 bits are rounded to a double, which is then scaled by a power of ten.
-/

namespace ContractGen
namespace Data
namespace Json

open Text (isDigit)

/-- The blanks of JSON. -/
def isJsonBlank (c : Char) : Bool :=
  c = ' ' || c = '\n' || c = '\t' || c = '\r'

/-- How deep lists and records may nest. -/
def nestingLimit : Nat := 127

/-- The value of a hexadecimal digit. -/
def hexValue? (c : Char) : Option Nat :=
  if '0' ≤ c ∧ c ≤ '9' then some (c.toNat - 48)
  else if 'a' ≤ c ∧ c ≤ 'f' then some (c.toNat - 87)
  else if 'A' ≤ c ∧ c ≤ 'F' then some (c.toNat - 55)
  else none

/-- The value of hexadecimal digits. -/
def hexNumber? (digits : List Char) : Option Nat :=
  digits.foldl (fun n c => n.bind fun n => (hexValue? c).map (16 * n + ·)) (some 0)

/-- The second half of a surrogate pair, as an escape. -/
def readLowSurrogate : (input : List Char) → Option (Taken Nat input)
  | '\\' :: 'u' :: a :: b :: c :: d :: rest => do
    let n ← hexNumber? [a, b, c, d]
    if 0xdc00 ≤ n ∧ n < 0xe000 then
      some ⟨n - 0xdc00, rest, by simp; omega⟩
    else
      none
  | _ => none

/-- The character of an escape, after the backslash; none if it is half a surrogate pair. -/
def readEscape : (input : List Char) → Option (Taken (Option Char) input)
  | '"' :: rest => some ⟨some '"', rest, by simp⟩
  | '\\' :: rest => some ⟨some '\\', rest, by simp⟩
  | '/' :: rest => some ⟨some '/', rest, by simp⟩
  | 'b' :: rest => some ⟨some (Char.ofNat 8), rest, by simp⟩
  | 'f' :: rest => some ⟨some (Char.ofNat 12), rest, by simp⟩
  | 'n' :: rest => some ⟨some '\n', rest, by simp⟩
  | 'r' :: rest => some ⟨some '\r', rest, by simp⟩
  | 't' :: rest => some ⟨some '\t', rest, by simp⟩
  | 'u' :: a :: b :: c :: d :: rest => do
    let n ← hexNumber? [a, b, c, d]
    if 0xd800 ≤ n ∧ n < 0xdc00 then
      match readLowSurrogate rest with
      | some ⟨low, left, h⟩ =>
        some ⟨some (Char.ofNat (0x10000 + (n - 0xd800) * 0x400 + low)), left, by simp; omega⟩
      | none => some ⟨none, rest, by simp; omega⟩
    else if 0xdc00 ≤ n ∧ n < 0xe000 then
      some ⟨none, rest, by simp; omega⟩
    else
      some ⟨some (Char.ofNat n), rest, by simp; omega⟩
  | _ => none

/-- A character in front of the characters after it, if all of them can be kept. -/
def keepChar (c : Option Char) (cs : Option (List Char)) : Option (List Char) :=
  c.bind fun c => cs.map (c :: ·)

/-- The characters of a string, after the opening quote; none if they cannot be kept. -/
def readString (input : List Char) : Option (Taken (Option (List Char)) input) :=
  match input with
  | [] => none
  | c :: rest =>
    if c = '"' then
      some (.one (some []) c rest)
    else if c = '\\' then do
      let ⟨e, next, h⟩ ← readEscape rest
      let ⟨cs, left, h'⟩ ← readString next
      have hleft := Reading.lt_of_lt_lt h h'
      some ⟨keepChar e cs, left, Reading.lt_cons_of_lt hleft⟩
    else if c.toNat < 32 then
      none
    else do
      let ⟨cs, left, h⟩ ← readString rest
      some ⟨keepChar (some c) cs, left, Reading.lt_cons_of_lt h⟩
termination_by input.length
decreasing_by
  · exact Reading.lt_cons_of_lt h
  · exact Reading.rest_lt

/-- A number as written. -/
structure Numeral where
  negative : Bool
  /-- The digits before the point. -/
  whole : List Char
  /-- The digits after the point, if there is one. -/
  fraction : Option (List Char)
  exponent : Option Int

/-- The natural number that decimal digits denote. -/
def natOfDigits (digits : List Char) : Nat :=
  digits.foldl (fun n c => 10 * n + (c.toNat - 48)) 0

/-- One or more digits. -/
def readDigits (input : List Char) : Option (Taken (List Char) input) :=
  let digits := input.takeWhile isDigit
  if h : digits = [] then
    none
  else
    some ⟨digits, input.dropWhile isDigit, by
      have happ : (digits ++ input.dropWhile isDigit).length = input.length :=
        congrArg List.length List.takeWhile_append_dropWhile
      have := List.length_pos_iff.mpr h
      simp only [List.length_append] at happ
      omega⟩

/-- One given character. -/
def readChar (c : Char) : (input : List Char) → Option (Taken Unit input)
  | [] => none
  | d :: rest => if d = c then some ⟨(), rest, by simp⟩ else none

/-- The fraction of a number, if there is one. -/
def readFraction (input : List Char) : Option (Option (List Char) × Left input) :=
  match readChar '.' input with
  | none => some (none, ⟨input, by omega⟩)
  | some ⟨_, rest, h⟩ => do
    let ⟨digits, left, h'⟩ ← readDigits rest
    some (some digits, ⟨left, by omega⟩)

/-- The sign of an exponent: whether it is negative. -/
def readSign : (input : List Char) → Bool × Left input
  | [] => (false, ⟨[], by simp⟩)
  | c :: rest =>
    if c = '-' then (true, ⟨rest, by simp⟩)
    else if c = '+' then (false, ⟨rest, by simp⟩)
    else (false, ⟨c :: rest, by simp⟩)

/-- The exponent of a number, if there is one. -/
def readExponent : (input : List Char) → Option (Option Int × Left input)
  | [] => some (none, ⟨[], by simp⟩)
  | c :: rest =>
    if c = 'e' ∨ c = 'E' then do
      let (negative, ⟨next, h⟩) := readSign rest
      let ⟨digits, left, h'⟩ ← readDigits next
      let n : Int := natOfDigits digits
      some (some (if negative then -n else n), ⟨left, by simp; omega⟩)
    else
      some (none, ⟨c :: rest, by simp⟩)

/-- The digits before the point: a lone zero, or digits that do not start with zero. -/
def readWhole (input : List Char) : Option (Taken (List Char) input) :=
  match readChar '0' input with
  | some ⟨_, rest, h⟩ => some ⟨['0'], rest, h⟩
  | none => readDigits input

/-- An unsigned number. -/
def readUnsigned (negative : Bool) (input : List Char) : Option (Taken Numeral input) := do
  let ⟨whole, r₁, h₁⟩ ← readWhole input
  let (fraction, ⟨r₂, h₂⟩) ← readFraction r₁
  let (exponent, ⟨r₃, h₃⟩) ← readExponent r₂
  some ⟨{ negative, whole, fraction, exponent }, r₃, by omega⟩

/-- A number. -/
def readNumeral (input : List Char) : Option (Taken Numeral input) :=
  match readChar '-' input with
  | some ⟨_, rest, h⟩ => do
    let ⟨n, left, h'⟩ ← readUnsigned true rest
    some ⟨n, left, by omega⟩
  | none => readUnsigned false input

/--
The leading digits that fit into 64 bits, and how many digits were left out. `start` is the number
read so far.
-/
def leadingDigits (start : Nat) : List Char → Nat × Nat
  | [] => (start, 0)
  | c :: cs =>
    let next := 10 * start + (c.toNat - 48)
    if next < Double.twoTo 64 then leadingDigits next cs else (start, cs.length + 1)

/-- The double nearest to a power of ten. -/
def powerOfTen (n : Nat) : Double :=
  Double.ofNat (Double.tenTo n)

/-- Scale a double by a power of ten; nothing if the result is too large. -/
def scaled? (x : Double) (exponent : Int) : Option Double :=
  if 308 < exponent then
    if x.isZero then some x else none
  else if exponent < -308 then
    if x.isZero then some x else scaled? (x.dividedBy (powerOfTen 308)) (exponent + 308)
  else if 0 ≤ exponent then
    let y := x.times (powerOfTen exponent.toNat)
    if y.isInfinite then none else some y
  else
    some (x.dividedBy (powerOfTen (-exponent).toNat))
termination_by (-exponent).toNat
decreasing_by omega

/-- The number that a numeral denotes, unless it is too large. -/
def Numeral.number? (n : Numeral) : Option Number :=
  let (whole, dropped) := leadingDigits 0 n.whole
  if n.fraction = none ∧ n.exponent = none ∧ dropped = 0 then
    if !n.negative then
      some (.integer whole)
    else if 0 < whole ∧ whole ≤ Double.twoTo 63 then
      some (.integer (-(whole : Int)))
    else
      some (.float (Double.ofRatio true whole 1))
  else
    let fraction := n.fraction.getD []
    let (digits, unread) := leadingDigits whole fraction
    let exponent : Int := dropped - ((fraction.length - unread : Nat) : Int) + n.exponent.getD 0
    (scaled? (Double.ofNat digits) exponent).map fun x => .float (x.withSign n.negative)

/-- The value that was made, if it can be kept. -/
def kept {α : Type} (f : α → Value) : Option α → Value
  | some a => f a
  | none => .unusable

/-- One of the words for truth values and null. -/
def readWord (input : List Char) : Option (Taken Value input) :=
  match input with
  | 'n' :: 'u' :: 'l' :: 'l' :: rest => some ⟨.null, rest, by simp; omega⟩
  | 't' :: 'r' :: 'u' :: 'e' :: rest => some ⟨.bool true, rest, by simp; omega⟩
  | 'f' :: 'a' :: 'l' :: 's' :: 'e' :: rest => some ⟨.bool false, rest, by simp; omega⟩
  | _ => none

/-- A value that holds no others. -/
def readScalar (input : List Char) : Option (Taken Value input) :=
  match readChar '"' input with
  | some ⟨_, rest, h⟩ => do
    let ⟨s, left, h'⟩ ← readString rest
    some ⟨kept (fun cs => .string (String.ofList cs)) s, left, by omega⟩
  | none =>
    match readWord input with
    | some word => some word
    | none => do
      let ⟨n, left, h⟩ ← readNumeral input
      some ⟨kept .number n.number?, left, h⟩

/-- The key of an entry and the colon after it, up to the value. -/
def readKey (input : List Char) : Option (Taken (Option String) input) := do
  let ⟨_, r₁, h₁⟩ ← readChar '"' input
  let ⟨key, r₂, h₂⟩ ← readString r₁
  let ⟨r₃, h₃⟩ := skipWhile isJsonBlank r₂
  let ⟨_, r₄, h₄⟩ ← readChar ':' r₃
  let ⟨r₅, h₅⟩ := skipWhile isJsonBlank r₄
  some ⟨key.map String.ofList, r₅, by omega⟩

/-- A list or record, unless the limit for nesting is used up. -/
def nested (limit : Nat) (v : Value) : Value :=
  if limit = 0 then .unusable else v

/-- An entry in front of the entries after it, if all keys can be kept. -/
def keepEntry (key : Option String) (v : Value) (entries : Option (List (String × Value))) :
    Option (List (String × Value)) :=
  key.bind fun key => entries.map ((key, v) :: ·)

mutual

/-- A value; the input does not start with a blank. -/
def readValue (limit : Nat) (input : List Char) : Option (Taken Value input) :=
  match readChar '[' input, readChar '{' input with
  | some ⟨_, rest, h⟩, _ => do
    let ⟨next, h'⟩ := skipWhile isJsonBlank rest
    match readChar ']' next with
    | some ⟨_, left, h''⟩ => some ⟨nested limit (.list []), left, by omega⟩
    | none =>
      let ⟨items, left, h''⟩ ← readItems (limit - 1) next
      some ⟨nested limit (.list items), left, by omega⟩
  | none, some ⟨_, rest, h⟩ => do
    let ⟨next, h'⟩ := skipWhile isJsonBlank rest
    match readChar '}' next with
    | some ⟨_, left, h''⟩ => some ⟨nested limit (.record []), left, by omega⟩
    | none =>
      let ⟨entries, left, h''⟩ ← readEntries (limit - 1) next
      some ⟨nested limit (kept .record entries), left, by omega⟩
  | none, none => readScalar input
termination_by (input.length, 0)

/-- One or more items and the closing bracket; the input does not start with a blank. -/
def readItems (limit : Nat) (input : List Char) : Option (Taken (List Value) input) := do
  let ⟨item, r₁, h₁⟩ ← readValue limit input
  let ⟨r₂, h₂⟩ := skipWhile isJsonBlank r₁
  match readChar ',' r₂ with
  | some ⟨_, r₃, h₃⟩ =>
    let ⟨r₄, h₄⟩ := skipWhile isJsonBlank r₃
    let ⟨items, left, h₅⟩ ← readItems limit r₄
    some ⟨item :: items, left, by omega⟩
  | none =>
    let ⟨_, left, h₃⟩ ← readChar ']' r₂
    some ⟨[item], left, by omega⟩
termination_by (input.length, 1)

/-- One or more entries and the closing brace; the input does not start with a blank. -/
def readEntries (limit : Nat) (input : List Char) :
    Option (Taken (Option (List (String × Value))) input) := do
  let ⟨key, r₁, h₁⟩ ← readKey input
  let ⟨value, r₂, h₂⟩ ← readValue limit r₁
  let ⟨r₃, h₃⟩ := skipWhile isJsonBlank r₂
  match readChar ',' r₃ with
  | some ⟨_, r₄, h₄⟩ =>
    let ⟨r₅, h₅⟩ := skipWhile isJsonBlank r₄
    let ⟨entries, left, h₆⟩ ← readEntries limit r₅
    some ⟨keepEntry key value entries, left, by omega⟩
  | none =>
    let ⟨_, left, h₄⟩ ← readChar '}' r₃
    some ⟨keepEntry key value (some []), left, by omega⟩
termination_by (input.length, 1)

end

/-- The value of a JSON text. -/
def read (text : String) : Option Value := do
  let ⟨value, rest, _⟩ ← readValue nestingLimit (text.toList.dropWhile isJsonBlank)
  if rest.all isJsonBlank then some value else none

end Json
end Data
end ContractGen
