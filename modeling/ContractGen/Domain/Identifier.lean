import ContractGen.Text.Blank

/-!
# Names that a model may declare

Every declared name ends up in the generated code, so it has to be an identifier of the target
language and none of its reserved words.
-/

namespace ContractGen
namespace Domain

open Text (isLetter isDigit)

/-- The words of the target language that cannot name a definition. -/
def reservedWords : List String :=
  ["abstract", "address", "anonymous", "as", "assembly", "bool", "break", "bytes", "calldata",
    "catch", "constant", "constructor", "continue", "contract", "delete", "do", "else", "emit",
    "enum", "error", "event", "external", "fallback", "false", "for", "function", "if",
    "immutable", "import", "indexed", "interface", "internal", "is", "library", "mapping",
    "memory", "modifier", "new", "override", "payable", "pragma", "private", "public", "pure",
    "receive", "return", "returns", "revert", "storage", "string", "struct", "true", "try",
    "type", "uint", "int", "unchecked", "using", "view", "virtual", "while"]

/-- Whether a name can start with a character. -/
def startsName (c : Char) : Bool :=
  isLetter c || c = '_' || c = '$'

/-- Whether a name can go on with a character. -/
def continuesName (c : Char) : Bool :=
  isLetter c || isDigit c || c = '_' || c = '$'

/-- Why a text cannot be the name of a definition. -/
inductive NameFault
  | empty
  | badStart
  | badCharacter
  | reserved
deriving DecidableEq, Repr, Inhabited

/-- The fault in words. -/
def NameFault.reason : NameFault → String
  | empty => "name cannot be empty"
  | badStart => "name must start with a letter or underscore"
  | badCharacter => "name must contain only letters, numbers, and underscores"
  | reserved => "name is a reserved word of the target language"

/-- What is wrong with a name, if anything. -/
def nameFault? (name : String) : Option NameFault :=
  match name.toList with
  | [] => some .empty
  | c :: cs =>
    if !startsName c then some .badStart
    else if !cs.all continuesName then some .badCharacter
    else if name ∈ reservedWords then some .reserved
    else none

end Domain
end ContractGen
