import ContractGen.Text.Blank

/-!
# Types of the target language

The types that occur in declarations: elementary and user-defined names, enums, mappings and
dynamic arrays. An enum is told apart from other user-defined names because its values are passed
by value and take no data location.
-/

namespace ContractGen
namespace Target

/-- A type as written in the target language. -/
inductive TypeExpr
  /-- An elementary or user-defined type name. -/
  | named (name : String)
  /-- The name of an enum. -/
  | enumeration (name : String)
  /-- A mapping from keys to values. -/
  | mapping (key value : TypeExpr)
  /-- A dynamic array. -/
  | array (element : TypeExpr)
deriving DecidableEq, Repr, Inhabited

namespace TypeExpr

/-- The name of a type that is just a name. -/
def name? : TypeExpr → Option String
  | named name => some name
  | enumeration name => some name
  | mapping _ _ => none
  | array _ => none

/-- The type as source text. -/
def text : TypeExpr → String
  | named name => name
  | enumeration name => name
  | mapping key value => "mapping(" ++ key.text ++ " => " ++ value.text ++ ")"
  | array element => element.text ++ "[]"

/-- Retype every name that is one of `enums` as an enum, inside mappings and arrays too. -/
def resolve (enums : List String) : TypeExpr → TypeExpr
  | named name => if name ∈ enums then enumeration name else named name
  | enumeration name => enumeration name
  | mapping key value => mapping (key.resolve enums) (value.resolve enums)
  | array element => array (element.resolve enums)

end TypeExpr

/-- Whether a name is `stem` followed by digits only, such as `uint256` or `uint`. -/
def isSized (stem name : String) : Bool :=
  (Text.dropStart? stem.toList name.toList).any fun rest => rest.all Text.isDigit

/-- The elementary types whose values are copied: `bool`, `address`, sized integers and bytes. -/
def isValueTypeName (name : String) : Bool :=
  if name = "bool" ∨ name = "address" ∨ name = "address payable" then
    true
  else if name = "bytes" ∨ name = "string" then
    false
  else
    isSized "uint" name || isSized "int" name || isSized "bytes" name

/-- Whether values of this type live in a data location when passed around. -/
def TypeExpr.isReference : TypeExpr → Bool
  | .mapping _ _ => true
  | .array _ => true
  | .named name => !isValueTypeName name
  | .enumeration _ => false

/--
The placeholder value of a type: `0` for unsigned integers, `-1` for signed integers and `false`
for booleans. Other types have none.
-/
def TypeExpr.placeholder? (type : TypeExpr) : Option String :=
  type.name?.bind fun name =>
    if isSized "uint" name then
      some "0"
    else if isSized "int" name then
      some "-1"
    else if name = "bool" then
      some "false"
    else
      none

end Target
end ContractGen
