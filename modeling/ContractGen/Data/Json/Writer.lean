import ContractGen.Data.Value

/-!
# Writing JSON

Values as compact JSON text, or spread over lines with two spaces of indentation. Control
characters are escaped; everything else above the ASCII range is written as it is.
-/

namespace ContractGen
namespace Data
namespace Json

/-- A hexadecimal digit. -/
def hexDigit (n : Nat) : Char :=
  if n < 10 then Char.ofNat (n + 48) else Char.ofNat (n + 87)

/-- A character inside a string literal. -/
def escaped (c : Char) : List Char :=
  if c = '"' then ['\\', '"']
  else if c = '\\' then ['\\', '\\']
  else if c = '\n' then ['\\', 'n']
  else if c = '\r' then ['\\', 'r']
  else if c = '\t' then ['\\', 't']
  else if c.toNat = 8 then ['\\', 'b']
  else if c.toNat = 12 then ['\\', 'f']
  else if c.toNat < 32 then
    ['\\', 'u', '0', '0', hexDigit (c.toNat / 16), hexDigit (c.toNat % 16)]
  else [c]

/-- A string literal. -/
def literal (s : String) : List Char :=
  '"' :: s.toList.flatMap escaped ++ ['"']

/-- A number. JSON has no infinite numbers; like all that cannot be written they become null. -/
def numeral : Number → List Char
  | .integer n => (toString n).toList
  | .float (.finite s m e) => (Double.finite s m e).text.toList
  | .float _ => "null".toList

mutual

/-- The characters of a value, without blanks. -/
def chars : Value → List Char
  | .null => "null".toList
  | .bool b => (if b then "true" else "false").toList
  | .number n => numeral n
  | .string s => literal s
  | .unusable => "null".toList
  | .invalidNumber => "null".toList
  | .list items => '[' :: listChars items ++ [']']
  | .record entries => '{' :: recordChars entries ++ ['}']

/-- Items separated by commas. -/
def listChars : List Value → List Char
  | [] => []
  | [v] => chars v
  | v :: vs => chars v ++ ',' :: listChars vs

/-- Entries separated by commas. -/
def recordChars : List (String × Value) → List Char
  | [] => []
  | [(k, v)] => literal k ++ ':' :: chars v
  | (k, v) :: rest => literal k ++ ':' :: chars v ++ ',' :: recordChars rest

end

/-- The compact text of a value. -/
def compact (v : Value) : String :=
  String.ofList (chars v)

/-- A line break and the indentation of a level. -/
def newline (level : Nat) : List Char :=
  '\n' :: List.replicate (2 * level) ' '

mutual

/-- The characters of a value spread over lines. -/
def prettyChars (level : Nat) : Value → List Char
  | .list [] => ['[', ']']
  | .list items => '[' :: prettyList (level + 1) items ++ newline level ++ [']']
  | .record [] => ['{', '}']
  | .record entries => '{' :: prettyRecord (level + 1) entries ++ newline level ++ ['}']
  | .null => "null".toList
  | .bool b => (if b then "true" else "false").toList
  | .number n => numeral n
  | .string s => literal s
  | .unusable => "null".toList
  | .invalidNumber => "null".toList

/-- Items, each on its own line. -/
def prettyList (level : Nat) : List Value → List Char
  | [] => []
  | [v] => newline level ++ prettyChars level v
  | v :: vs => newline level ++ prettyChars level v ++ ',' :: prettyList level vs

/-- Entries, each on its own line. -/
def prettyRecord (level : Nat) : List (String × Value) → List Char
  | [] => []
  | [(k, v)] => newline level ++ literal k ++ ':' :: ' ' :: prettyChars level v
  | (k, v) :: rest =>
    newline level ++ literal k ++ ':' :: ' ' :: prettyChars level v ++ ',' :: prettyRecord level rest

end

/-- The text of a value spread over lines. -/
def pretty (v : Value) : String :=
  String.ofList (prettyChars 0 v)

end Json
end Data
end ContractGen
