import ContractGen.Data.Toml.Moment

/-!
# Scalars of TOML

Strings in their four forms, and words: truth values, integers, floating-point numbers and moments.
A word that is taken for a number before its digits are looked at becomes an invalid number.
-/

namespace ContractGen
namespace Data
namespace Toml

open Text (isDigit)
open Json (hexValue? hexNumber? natOfDigits)

/-- The blanks inside a line. -/
def isInlineBlank (c : Char) : Bool :=
  c = ' ' || c = '\t'

/-- Whether a character may stand in a string or comment: tabs and everything that is no control. -/
def isPlain (c : Char) : Bool :=
  c = '\t' || (32 ≤ c.toNat && c.toNat ≠ 127)

/-- A line end. -/
def readNewline : (input : List Char) → Option (Taken (List Char) input)
  | '\n' :: rest => some (.one ['\n'] _ rest)
  | '\r' :: '\n' :: rest => some ((Taken.one ['\r', '\n'] _ rest).cons _)
  | _ => none

/-- What is left after blanks and line ends. -/
def skipLines (input : List Char) : Left input :=
  match input with
  | [] => ⟨[], by simp⟩
  | c :: rest =>
    if isInlineBlank c || c = '\n' || (c = '\r' && rest.head? = some '\n') then
      let ⟨left, h⟩ := skipLines rest
      ⟨left, by simp; omega⟩
    else
      ⟨c :: rest, by simp⟩

/-- What is left after blanks, line ends and comments. -/
def skipTrivia (inComment : Bool) (input : List Char) : Left input :=
  match input with
  | [] => ⟨[], by simp⟩
  | c :: rest =>
    if c = '\n' || (c = '\r' && rest.head? = some '\n') then
      let ⟨left, h⟩ := skipTrivia false rest
      ⟨left, by simp; omega⟩
    else if (inComment && isPlain c) || c = '#' then
      let ⟨left, h⟩ := skipTrivia true rest
      ⟨left, by simp; omega⟩
    else if !inComment && isInlineBlank c then
      let ⟨left, h⟩ := skipTrivia false rest
      ⟨left, by simp; omega⟩
    else
      ⟨c :: rest, by simp⟩

/-- The character with a given number, unless it is a surrogate. -/
def scalar? (n : Nat) : Option Char :=
  if n < 0xd800 ∨ (0xe000 ≤ n ∧ n < 0x110000) then some (Char.ofNat n) else none

/-- The character that an escape of one letter stands for. -/
def shortEscape? : Char → Option Char
  | 'b' => some (Char.ofNat 8)
  | 't' => some '\t'
  | 'n' => some '\n'
  | 'f' => some (Char.ofNat 12)
  | 'r' => some '\r'
  | 'e' => some (Char.ofNat 27)
  | '"' => some '"'
  | '\\' => some '\\'
  | _ => none

/-- How many hexadecimal digits follow the letter of an escape. -/
def escapeWidth? : Char → Option Nat
  | 'x' => some 2
  | 'u' => some 4
  | 'U' => some 8
  | _ => none

/-- The character of some hexadecimal digits. -/
def readCode (width : Nat) (input : List Char) : Option (Char × Left input) :=
  if input.length < width then
    none
  else
    ((hexNumber? (input.take width)).bind scalar?).map fun c => (c, .drop width input)

/-- The character of an escape, after the backslash. -/
def readEscape : (input : List Char) → Option (Taken Char input)
  | [] => none
  | c :: rest =>
    match shortEscape? c, escapeWidth? c with
    | some e, _ => some (.one e c rest)
    | none, some width => do
      let (e, ⟨left, h⟩) ← readCode width rest
      some ⟨e, left, Reading.lt_cons_of_le h⟩
    | none, none => none

/-- A string with escapes, after its opening quote. -/
def readBasic (input : List Char) : Option (Taken (List Char) input) :=
  match input with
  | [] => none
  | c :: rest =>
    if c = '"' then
      some (.one [] c rest)
    else if c = '\\' then do
      let ⟨e, next, h⟩ ← readEscape rest
      let ⟨cs, left, h'⟩ ← readBasic next
      have hleft := Reading.lt_of_lt_lt h h'
      some ⟨e :: cs, left, Reading.lt_cons_of_lt hleft⟩
    else if isPlain c then do
      let ⟨cs, left, h⟩ ← readBasic rest
      some ⟨c :: cs, left, Reading.lt_cons_of_lt h⟩
    else
      none
termination_by input.length
decreasing_by
  · exact Reading.lt_cons_of_lt h
  · exact Reading.rest_lt

/-- A string without escapes, after its opening quote. -/
def readLiteral (input : List Char) : Option (Taken (List Char) input) :=
  match input with
  | [] => none
  | c :: rest =>
    if c = '\'' then
      some ⟨[], rest, by simp⟩
    else if isPlain c then do
      let ⟨cs, left, h⟩ ← readLiteral rest
      some ⟨c :: cs, left, by simp; omega⟩
    else
      none

/-- The end of a string over several lines: up to two quotes of its text, and three that close it. -/
def readTripleEnd (quote : Char) : (input : List Char) → Option (Taken (List Char) input)
  | a :: b :: c :: rest =>
    if a = quote ∧ b = quote ∧ c = quote then
      let inner := (rest.takeWhile (· = quote)).take 2
      let ⟨left, h⟩ := Left.drop inner.length rest
      have hc : left.length < (c :: rest).length := Reading.lt_cons_of_le h
      have hb : left.length < (b :: c :: rest).length := Reading.lt_cons_of_lt hc
      some ⟨inner, left, Reading.lt_cons_of_lt hb⟩
    else
      none
  | _ => none

/-- Whether a backslash with this after it only continues the line. -/
def continuesLine (input : List Char) : Bool :=
  (readNewline (input.dropWhile isInlineBlank)).isSome

/-- A string with escapes over several lines, after its opening. -/
def readMultiBasic (input : List Char) : Option (Taken (List Char) input) :=
  match readTripleEnd '"' input with
  | some done => some done
  | none =>
    match input with
    | [] => none
    | c :: rest =>
      if c = '\\' then
        if continuesLine rest then do
          let ⟨next, h⟩ := skipLines rest
          let ⟨cs, left, h'⟩ ← readMultiBasic next
          some ⟨cs, left, by simp; omega⟩
        else do
          let ⟨e, next, h⟩ ← readEscape rest
          let ⟨cs, left, h'⟩ ← readMultiBasic next
          some ⟨e :: cs, left, by simp; omega⟩
      else if isPlain c || c = '\n' || (c = '\r' && rest.head? = some '\n') then do
        let ⟨cs, left, h⟩ ← readMultiBasic rest
        some ⟨c :: cs, left, by simp; omega⟩
      else
        none
termination_by input.length
decreasing_by all_goals (simp; try omega)

/-- A string without escapes over several lines, after its opening. -/
def readMultiLiteral (input : List Char) : Option (Taken (List Char) input) :=
  match readTripleEnd '\'' input with
  | some done => some done
  | none =>
    match input with
    | [] => none
    | c :: rest =>
      if isPlain c || c = '\n' || (c = '\r' && rest.head? = some '\n') then do
        let ⟨cs, left, h⟩ ← readMultiLiteral rest
        some ⟨c :: cs, left, by simp; omega⟩
      else
        none
termination_by input.length

/-- What is left after a line end, if one comes next. -/
def skipNewline (input : List Char) : Left input :=
  match readNewline input with
  | some ⟨_, rest, h⟩ => ⟨rest, Reading.le_of_lt h⟩
  | none => .whole input

/-- A string on one line. -/
def readLineString : (input : List Char) → Option (Taken (List Char) input)
  | [] => none
  | c :: rest =>
    if c = '"' then do
      let ⟨cs, left, h⟩ ← readBasic rest
      some ⟨cs, left, by simp; omega⟩
    else if c = '\'' then do
      let ⟨cs, left, h⟩ ← readLiteral rest
      some ⟨cs, left, by simp; omega⟩
    else
      none

/-- A string in any form. -/
def readAnyString : (input : List Char) → Option (Taken (List Char) input)
  | '"' :: '"' :: '"' :: rest => do
    let ⟨next, h⟩ := skipNewline rest
    let ⟨cs, left, h'⟩ ← readMultiBasic next
    some ⟨cs, left, by simp; omega⟩
  | '\'' :: '\'' :: '\'' :: rest => do
    let ⟨next, h⟩ := skipNewline rest
    let ⟨cs, left, h'⟩ ← readMultiLiteral next
    some ⟨cs, left, by simp; omega⟩
  | input => readLineString input

/-! ## Numbers -/

/-- The digits of a number with single underscores between some of them. -/
def digits? (isDigit : Char → Bool) (text : List Char) : Option (List Char) :=
  let parts := Text.splitAt '_' text
  if parts.all fun p => !p.isEmpty && p.all isDigit then some parts.flatten else none

/-- The digits of a decimal integer, which has no leading zeros. -/
def wholeDigits? (text : List Char) : Option (List Char) := do
  let ds ← digits? isDigit text
  if ds.head? = some '0' ∧ 1 < ds.length then none else some ds

/-- A number in another base. -/
def inBase? (base : Nat) (text : List Char) : Option Nat := do
  let ds ← digits? (fun c => (hexValue? c).any (· < base)) text
  some (ds.foldl (fun n c => base * n + (hexValue? c).getD 0) 0)

/-- The sign in front of a number, and the rest. -/
def splitSign : List Char → Bool × List Char
  | '-' :: rest => (true, rest)
  | '+' :: rest => (false, rest)
  | text => (false, text)

/-- An integer. -/
def integer? : List Char → Option Int
  | '0' :: 'x' :: text => (inBase? 16 text).map Int.ofNat
  | '0' :: 'o' :: text => (inBase? 8 text).map Int.ofNat
  | '0' :: 'b' :: text => (inBase? 2 text).map Int.ofNat
  | text => do
    let (negative, rest) := splitSign text
    let n : Int := natOfDigits (← wholeDigits? rest)
    some (if negative then -n else n)

/-- An exponent, after its mark. -/
def exponent? (text : List Char) : Option Int := do
  let (negative, rest) := splitSign text
  let n : Int := natOfDigits (← digits? isDigit rest)
  some (if negative then -n else n)

/-- A floating-point number. -/
def float? (text : List Char) : Option Value := do
  let (negative, rest) := splitSign text
  if rest = ['i', 'n', 'f'] then
    some (.number (.float (.infinite negative)))
  else if rest = ['n', 'a', 'n'] then
    some (.number (.float .nan))
  else
    let (mantissa, power) := splitAtFirst (fun c => c = 'e' || c = 'E') rest
    let (whole, fraction) := splitAtFirst (· = '.') mantissa
    if fraction.isNone ∧ power.isNone then
      none
    else
      let whole ← wholeDigits? whole
      let fraction ← match fraction with
        | none => some []
        | some text => digits? isDigit text
      let power ← match power with
        | none => some 0
        | some text => exponent? text
      let x := Double.ofDecimal negative (natOfDigits (whole ++ fraction)) (power - fraction.length)
      some (if x.isInfinite then .invalidNumber else .number (.float x))

/-- The value of an integer. -/
def ofInteger (n : Int) : Value :=
  if fitsSigned 64 n || fitsUnsigned 64 n then .int n
  else if fitsSigned 128 n || fitsUnsigned 128 n then .unusable
  else .invalidNumber

/-- Whether a part of a number after an underscore looks right at its ends. -/
def isPartLike (isLast : Bool) (part : List Char) : Bool :=
  let looksRight := fun c => (hexValue? c).isSome
  part.head?.any looksRight && (isLast || part.getLast?.any looksRight)

/-- Whether the parts of a number after its first underscore look right at their ends. -/
def arePartsLike : List (List Char) → Bool
  | [] => false
  | [part] => isPartLike true part
  | part :: parts => isPartLike false part && arePartsLike parts

/--
Whether a word is taken for an integer although it may be none: a base without digits, or a number
of which only the ends of the parts between underscores are looked at.
-/
def isIntegerLike (text : List Char) : Bool :=
  text = ['0', 'x'] || text = ['0', 'o'] || text = ['0', 'b'] ||
    (match Text.splitAt '_' (splitSign text).2 with
      | whole :: parts =>
        (wholeDigits? whole).isSome && whole ≠ ['0'] && arePartsLike parts &&
          parts.all fun part => part.all fun c => c ≠ ' ' && c ≠ '.' && c ≠ 'e' && c ≠ 'E'
      | [] => false)

/-- The value of one or more words. -/
def word? (text : List Char) : Option Value :=
  if text = ['t', 'r', 'u', 'e'] then
    some (.bool true)
  else if text = ['f', 'a', 'l', 's', 'e'] then
    some (.bool false)
  else
    match integer? text, float? text, Moment.read? text with
    | some n, _, _ => some (ofInteger n)
    | none, some x, _ => some x
    | none, none, some m => some m.toValue
    | none, none, none => if isIntegerLike text then some .invalidNumber else none

/-- The characters of numbers, dates and words: all that do not divide values. -/
def isWordPart (c : Char) : Bool :=
  !(isInlineBlank c || c = '\n' || c = '\r' || c = '=' || c = ',' || c = '[' || c = ']' ||
    c = '{' || c = '}' || c = '#')

/-- One or more characters of a class. -/
def readRun (p : Char → Bool) (input : List Char) : Option (Taken (List Char) input) :=
  let run := input.takeWhile p
  if h : run = [] then
    none
  else
    some ⟨run, input.dropWhile p, by
      have happ : (run ++ input.dropWhile p).length = input.length :=
        congrArg List.length List.takeWhile_append_dropWhile
      have := List.length_pos_iff.mpr h
      simp only [List.length_append] at happ
      omega⟩

/-- Whether a text starts in a way that continues a value after blanks. -/
def startsWord (input : List Char) : Bool :=
  input.head?.any fun c => isWordPart c && c ≠ '.' && c ≠ '"' && c ≠ '\''

/-- Words with blanks between them. They make up one value, such as a date and a time. -/
def readWords (input : List Char) : Option (Taken (List Char) input) := do
  let ⟨word, r₁, h₁⟩ ← readRun isWordPart input
  let ⟨r₂, h₂⟩ := skipWhile isInlineBlank r₁
  have hblanks := Reading.lt_of_lt_le h₁ h₂
  if startsWord r₂ then
    let ⟨words, r₃, h₃⟩ ← readWords r₂
    some ⟨word ++ r₁.takeWhile isInlineBlank ++ words, r₃, Reading.lt_of_lt_lt hblanks h₃⟩
  else
    some ⟨word, r₁, h₁⟩
termination_by input.length
decreasing_by exact hblanks

/-- A value that is no string and holds no others. -/
def readWord (input : List Char) : Option (Taken Value input) := do
  let ⟨text, rest, h⟩ ← readWords input
  let value ← word? text
  some ⟨value, rest, h⟩

end Toml
end Data
end ContractGen
