/-!
# Blank characters, trimming and lines

The characters with the Unicode property `White_Space`, and the three ways of cutting a text
that depend on them or on line ends: trimming, splitting into lines, and splitting at the first
occurrence of a separator.

All functions work on lists of characters; the versions on `String` only convert.
-/

namespace ContractGen
namespace Text

/-- The characters with the Unicode property `White_Space`. -/
def isBlank (c : Char) : Bool :=
  let n := c.toNat
  (0x09 ≤ n && n ≤ 0x0d) || n == 0x20 || n == 0x85 || n == 0xa0 || n == 0x1680 ||
    (0x2000 ≤ n && n ≤ 0x200a) || n == 0x2028 || n == 0x2029 || n == 0x202f || n == 0x205f ||
    n == 0x3000

/-- Whether a character is an ASCII letter. -/
def isLetter (c : Char) : Bool :=
  ('a' ≤ c && c ≤ 'z') || ('A' ≤ c && c ≤ 'Z')

/-- Whether a character is an ASCII digit. -/
def isDigit (c : Char) : Bool :=
  '0' ≤ c && c ≤ '9'

/-- Remove the blanks at the front. -/
def trimStart (cs : List Char) : List Char :=
  cs.dropWhile isBlank

/-- Remove the characters satisfying `p` at the back. -/
def dropEndWhile (p : Char → Bool) (cs : List Char) : List Char :=
  (cs.reverse.dropWhile p).reverse

/-- Remove the blanks at the back. -/
def trimEnd (cs : List Char) : List Char :=
  dropEndWhile isBlank cs

/-- Remove the blanks at both ends. -/
def trim (cs : List Char) : List Char :=
  trimEnd (trimStart cs)

/-- Remove the blanks at both ends of a string. -/
def trimmed (s : String) : String :=
  String.ofList (trim s.toList)

/-- What follows `start` in a text that begins with it. -/
def dropStart? {α : Type} [DecidableEq α] : (start text : List α) → Option (List α)
  | [], text => some text
  | _ :: _, [] => none
  | a :: start, b :: text => if a = b then dropStart? start text else none

/-- Whether a text begins with `start`. -/
def startsWith {α : Type} [DecidableEq α] (start text : List α) : Bool :=
  (dropStart? start text).isSome

/-- The text before and after the first occurrence of a separator. -/
def splitOnce? {α : Type} [DecidableEq α] (separator : List α) : List α → Option (List α × List α)
  | [] => if separator.isEmpty then some ([], []) else none
  | a :: text =>
    match dropStart? separator (a :: text) with
    | some rest => some ([], rest)
    | none => (splitOnce? separator text).map fun (before, after) => (a :: before, after)

/-- Whether `part` occurs in a text. -/
def occursIn (part text : String) : Bool :=
  (splitOnce? part.toList text.toList).isSome

/-- The text between consecutive separators; never empty as a list. -/
def splitAt (separator : Char) : List Char → List (List Char)
  | [] => [[]]
  | c :: cs =>
    if c = separator then
      [] :: splitAt separator cs
    else
      match splitAt separator cs with
      | [] => [[c]]
      | part :: parts => (c :: part) :: parts

/-- Remove one carriage return at the end. -/
def dropCarriageReturn (cs : List Char) : List Char :=
  if cs.getLast? = some '\r' then cs.dropLast else cs

/-- Remove the carriage return from every part but the last, and the last part if it is empty. -/
def finishLines : List (List Char) → List (List Char)
  | [] => []
  | [last] => if last.isEmpty then [] else [last]
  | line :: rest => dropCarriageReturn line :: finishLines rest

/--
The lines of a text. A line ends in a newline or in a carriage return and a newline; the last
line may lack its end, and then keeps a final carriage return.
-/
def lines (cs : List Char) : List (List Char) :=
  finishLines (splitAt '\n' cs)

end Text
end ContractGen
