import ContractGen.Data.Toml.Scalar
import ContractGen.Data.Toml.Table

/-!
# Reading TOML

A file is a sequence of lines: table headers and assignments. Arrays and inline tables may spread
over lines, hold comments and end in a comma; only the parts of one key stay on one line. A leading
byte order mark is skipped.
-/

namespace ContractGen
namespace Data
namespace Toml

open Text (isDigit isLetter)
open Json (readChar)

/-- How deep arrays and inline tables may nest, and how many parts a key may have. -/
def nestingLimit : Nat := 80

/-- The nesting that is left inside one more array or inline table. -/
def deeper? : Nat → Option Nat
  | 0 => none
  | limit + 1 => some limit

/-- The characters of a bare key. -/
def isBareKeyPart (c : Char) : Bool :=
  isLetter c || isDigit c || c = '_' || c = '-'

/-- A key without dots. -/
def readSimpleKey (input : List Char) : Option (Taken (List Char) input) :=
  match readLineString input with
  | some key => some key
  | none => readRun isBareKeyPart input

/-- Keys separated by dots on one line, and the blanks after them. -/
def readDottedKeys (input : List Char) : Option (Taken (List String) input) := do
  let ⟨key, r₁, h₁⟩ ← readSimpleKey input
  let ⟨r₂, h₂⟩ := skipWhile isInlineBlank r₁
  have hblank := Reading.lt_of_lt_le h₁ h₂
  match readChar '.' r₂ with
  | none => some ⟨[String.ofList key], r₂, hblank⟩
  | some ⟨_, r₃, h₃⟩ =>
    let ⟨r₄, h₄⟩ := skipWhile isInlineBlank r₃
    have hdot := Reading.lt_of_lt_lt hblank h₃
    have hnext := Reading.lt_of_lt_le hdot h₄
    let ⟨keys, r₅, h₅⟩ ← readDottedKeys r₄
    some ⟨String.ofList key :: keys, r₅, Reading.lt_of_lt_lt hnext h₅⟩
termination_by input.length
decreasing_by exact hnext

/-- The parts of a key, of which there must not be too many, and the blanks after it. -/
def readKeys (input : List Char) : Option (Taken (List String) input) :=
  (readDottedKeys input).filter fun keys => keys.value.length ≤ nestingLimit

/-- The path and the last key of a dotted key. -/
def splitKeys? (keys : List String) : Option (List String × String) :=
  keys.getLast?.map fun last => (keys.dropLast, last)

/-- Keys and the equals sign after them; `skip` takes what may stand around the sign. -/
def readAssignment (skip : (input : List Char) → Left input) (input : List Char) :
    Option (Taken (List String) input) := do
  let ⟨keys, r₁, h₁⟩ ← readKeys input
  let ⟨r₂, h₂⟩ := skip r₁
  have hkeys := Reading.lt_of_lt_le h₁ h₂
  let ⟨_, r₃, h₃⟩ ← readChar '=' r₂
  let ⟨r₄, h₄⟩ := skip r₃
  have hequals := Reading.lt_of_lt_lt hkeys h₃
  some ⟨keys, r₄, Reading.lt_of_lt_le hequals h₄⟩

/-- A value that holds no others. -/
def readScalar (input : List Char) : Option (Taken Value input) :=
  match input.head? with
  | some c =>
    if c = '"' ∨ c = '\'' then do
      let ⟨s, rest, h⟩ ← readAnyString input
      some ⟨.string (String.ofList s), rest, h⟩
    else
      readWord input
  | none => none

/-- The value of an inline table with the given assignments. -/
def inlineTable? (assignments : List (List String × Value)) : Option Value := do
  let table ← assignments.foldlM (fun (t : Table) (keys, v) => do
    let (path, key) ← splitKeys? keys
    t.addValue [] path key v) {}
  some table.toValue

mutual

/-- A value. -/
def readValue (limit : Nat) (input : List Char) : Option (Taken Value input) :=
  match readChar '[' input, readChar '{' input with
  | some ⟨_, rest, h⟩, _ => do
    let limit ← deeper? limit
    let ⟨items, left, h'⟩ ← readItems limit rest
    some ⟨.list items, left, by omega⟩
  | none, some ⟨_, rest, h⟩ => do
    let limit ← deeper? limit
    let ⟨assignments, left, h'⟩ ← readAssignments limit rest
    let value ← inlineTable? assignments
    some ⟨value, left, by omega⟩
  | none, none => readScalar input
termination_by 2 * input.length

/-- The items of an array, and its closing bracket. -/
def readItems (limit : Nat) (input : List Char) : Option (Taken (List Value) input) := do
  let ⟨r₁, h₁⟩ := skipTrivia false input
  match readChar ']' r₁ with
  | some ⟨_, left, h⟩ => some ⟨[], left, Reading.lt_of_le_lt h₁ h⟩
  | none =>
    let ⟨item, r₂, h₂⟩ ← readValue limit r₁
    let ⟨r₃, h₃⟩ := skipTrivia false r₂
    have hitem := Reading.lt_of_le_lt h₁ h₂
    have htrivia := Reading.lt_of_lt_le hitem h₃
    match readChar ',' r₃ with
    | some ⟨_, r₄, h₄⟩ =>
      have hcomma := Reading.lt_of_lt_lt htrivia h₄
      let ⟨items, left, h⟩ ← readItems limit r₄
      some ⟨item :: items, left, Reading.lt_of_lt_lt hcomma h⟩
    | none =>
      let ⟨_, left, h⟩ ← readChar ']' r₃
      some ⟨[item], left, Reading.lt_of_lt_lt htrivia h⟩
termination_by 2 * input.length + 1

/-- The assignments of an inline table, and its closing brace. -/
def readAssignments (limit : Nat) (input : List Char) :
    Option (Taken (List (List String × Value)) input) := do
  let ⟨r₁, h₁⟩ := skipTrivia false input
  match readChar '}' r₁ with
  | some ⟨_, left, h⟩ => some ⟨[], left, Reading.lt_of_le_lt h₁ h⟩
  | none =>
    let ⟨keys, r₂, h₂⟩ ← readAssignment (skipTrivia false) r₁
    have hkeys := Reading.lt_of_le_lt h₁ h₂
    let ⟨value, r₃, h₃⟩ ← readValue limit r₂
    let ⟨r₄, h₄⟩ := skipTrivia false r₃
    have hvalue := Reading.lt_of_lt_lt hkeys h₃
    have htrivia := Reading.lt_of_lt_le hvalue h₄
    match readChar ',' r₄ with
    | some ⟨_, r₅, h₅⟩ =>
      have hcomma := Reading.lt_of_lt_lt htrivia h₅
      let ⟨assignments, left, h⟩ ← readAssignments limit r₅
      some ⟨(keys, value) :: assignments, left, Reading.lt_of_lt_lt hcomma h⟩
    | none =>
      let ⟨_, left, h⟩ ← readChar '}' r₄
      some ⟨[(keys, value)], left, Reading.lt_of_lt_lt htrivia h⟩
termination_by 2 * input.length + 1

end

/-- One line of a file. -/
inductive Line
  /-- The header of a table. -/
  | table (keys : List String)
  /-- The header of one more table of an array. -/
  | arrayTable (keys : List String)
  | assignment (keys : List String) (v : Value)

/-- The keys of a header and the blanks around them. -/
def readHeaderKeys (input : List Char) : Option (Taken (List String) input) := do
  let ⟨r₁, h₁⟩ := skipWhile isInlineBlank input
  let ⟨keys, r₂, h₂⟩ ← readKeys r₁
  some ⟨keys, r₂, Reading.lt_of_le_lt h₁ h₂⟩

/-- A line without what follows it. -/
def readLineContent (input : List Char) : Option (Taken Line input) :=
  match readChar '[' input with
  | some ⟨_, r₁, h₁⟩ =>
    match readChar '[' r₁ with
    | some ⟨_, r₂, h₂⟩ => do
      let ⟨keys, r₃, h₃⟩ ← readHeaderKeys r₂
      let ⟨_, r₄, h₄⟩ ← readChar ']' r₃
      let ⟨_, r₅, h₅⟩ ← readChar ']' r₄
      have hbrackets := Reading.lt_of_lt_lt h₁ h₂
      have hkeys := Reading.lt_of_lt_lt hbrackets h₃
      have hclose := Reading.lt_of_lt_lt hkeys h₄
      some ⟨.arrayTable keys, r₅, Reading.lt_of_lt_lt hclose h₅⟩
    | none => do
      let ⟨keys, r₂, h₂⟩ ← readHeaderKeys r₁
      let ⟨_, r₃, h₃⟩ ← readChar ']' r₂
      have hkeys := Reading.lt_of_lt_lt h₁ h₂
      some ⟨.table keys, r₃, Reading.lt_of_lt_lt hkeys h₃⟩
  | none => do
    let ⟨keys, r₁, h₁⟩ ← readAssignment (skipWhile isInlineBlank) input
    let ⟨v, r₂, h₂⟩ ← readValue nestingLimit r₁
    some ⟨.assignment keys v, r₂, Reading.lt_of_lt_lt h₁ h₂⟩

/-- What is left after a comment, if one comes next. -/
def skipComment (input : List Char) : Left input :=
  match readChar '#' input with
  | none => .whole input
  | some ⟨_, rest, h⟩ =>
    let ⟨left, h'⟩ := skipWhile isPlain rest
    have hleft := Reading.lt_of_lt_le h h'
    ⟨left, Reading.le_of_lt hleft⟩

/-- The lines of a file. -/
def readLines (input : List Char) : Option (List Line) := do
  let ⟨r₁, _⟩ := skipTrivia false input
  match r₁ with
  | [] => some []
  | _ :: _ =>
    let ⟨line, r₂, _⟩ ← readLineContent r₁
    let ⟨r₃, _⟩ := skipWhile isInlineBlank r₂
    let ⟨r₄, _⟩ := skipComment r₃
    match r₄ with
    | [] => some [line]
    | _ :: _ =>
      let ⟨_, r₅, _⟩ ← readNewline r₄
      let lines ← readLines r₅
      some (line :: lines)
termination_by input.length

/-- A file under construction: the root table and the header that is in force. -/
structure Document where
  root : Table := {}
  header : List String := []

/-- Add a line to a file. -/
def Document.add? (d : Document) : Line → Option Document
  | .table keys => do
    let (path, key) ← splitKeys? keys
    let root ← d.root.openTable path key
    some { root, header := keys }
  | .arrayTable keys => do
    let (path, key) ← splitKeys? keys
    let root ← d.root.openArrayTable path key
    some { root, header := keys }
  | .assignment keys v => do
    let (path, key) ← splitKeys? keys
    let root ← d.root.addValue d.header path key v
    some { d with root }

/-- A text without its byte order mark. -/
def dropByteOrderMark : List Char → List Char
  | c :: rest => if c.toNat = 0xfeff then rest else c :: rest
  | [] => []

/-- The value of a TOML text. -/
def read (text : String) : Option Value := do
  let lines ← readLines (dropByteOrderMark text.toList)
  let document ← lines.foldlM Document.add? {}
  some document.root.toValue

end Toml
end Data
end ContractGen
