import ContractGen.Data.Shortest

/-!
# Types and aspects of the domain language

A type of a domain model is one of a few primitives or the name of a type declared elsewhere. An
aspect is a qualified name with properties; it steers how the element that carries it becomes
contract code.
-/

namespace ContractGen
namespace Domain

/-- The primitive types of the domain language. -/
inductive Primitive
  | boolean
  | byte
  | char
  | date
  | double
  | float
  | int
  | long
  | short
  | string
  | unspecified
deriving DecidableEq, Repr, Inhabited

namespace Primitive

/-- Every primitive type. -/
def all : List Primitive :=
  [boolean, byte, char, date, double, float, int, long, short, string, unspecified]

/-- The name of a primitive type. -/
def name : Primitive → String
  | boolean => "boolean"
  | byte => "byte"
  | char => "char"
  | date => "date"
  | double => "double"
  | float => "float"
  | int => "int"
  | long => "long"
  | short => "short"
  | string => "string"
  | unspecified => "unspecified"

/-- The primitive type with a given name. -/
def ofName? (name : String) : Option Primitive :=
  all.find? fun p => p.name = name

end Primitive

/-- A reference to a primitive type or to a declared one. -/
inductive TypeRef
  | primitive (p : Primitive)
  | complex (name : String)
deriving DecidableEq, Repr, Inhabited

namespace TypeRef

/-- The type that a name refers to. -/
def ofName (name : String) : TypeRef :=
  match Primitive.ofName? name with
  | some p => primitive p
  | none => complex name

/-- The name of a type. -/
def name : TypeRef → String
  | primitive p => p.name
  | complex name => name

/-- Whether a type is primitive. -/
def isPrimitive : TypeRef → Bool
  | primitive _ => true
  | complex _ => false

end TypeRef

/-- The value of a property. -/
inductive PropertyValue
  | bool (b : Bool)
  | integer (n : Int)
  | float (x : Data.Double)
  | string (s : String)
deriving DecidableEq, Repr, Inhabited

/-- A character with an upper-case ASCII letter made lower case. -/
def lowerChar (c : Char) : Char :=
  if 'A' ≤ c ∧ c ≤ 'Z' then Char.ofNat (c.toNat + 32) else c

/-- A text with its ASCII letters in lower case. -/
def lowered (s : String) : String :=
  String.ofList (s.toList.map lowerChar)

namespace PropertyValue

/-- The kind of a property value. -/
def kind : PropertyValue → String
  | bool _ => "bool"
  | integer _ => "integer"
  | float _ => "float"
  | string _ => "string"

/-- The text of a value. -/
def text : PropertyValue → String
  | bool b => if b then "true" else "false"
  | integer n => toString n
  | float x => x.text
  | string s => s

/-- Whether a value means yes: the truth value, or the word in any case. -/
def isTrue : PropertyValue → Bool
  | bool b => b
  | string s => lowered s = "true"
  | integer _ => false
  | float _ => false

/-- Whether a value is a number with a fraction or a large one. -/
def isFloat : PropertyValue → Bool
  | float _ => true
  | _ => false

/-- The string that a value is. -/
def string? : PropertyValue → Option String
  | string s => some s
  | _ => none

end PropertyValue

/-- An aspect of a domain element. The keys of its properties are distinct. -/
structure Aspect where
  /-- The qualified name. -/
  name : String
  properties : List (String × PropertyValue) := []
deriving DecidableEq, Repr, Inhabited

/-- Give a key a value, where it already stands or else at the end. -/
def setProperty (key : String) (value : PropertyValue) :
    List (String × PropertyValue) → List (String × PropertyValue)
  | [] => [(key, value)]
  | p :: ps => if p.1 = key then (key, value) :: ps else p :: setProperty key value ps

namespace Aspect

/-- The aspect with one more property. -/
def withProperty (a : Aspect) (key : String) (value : PropertyValue) : Aspect :=
  { a with properties := setProperty key value a.properties }

/-- The value of a property. -/
def get? (a : Aspect) (key : String) : Option PropertyValue :=
  (a.properties.find? fun p => p.1 = key).map Prod.snd

/-- The text of a property, whatever its value is. -/
def getText? (a : Aspect) (key : String) : Option String :=
  (a.get? key).map PropertyValue.text

end Aspect

/-- The first aspect with a given name. -/
def findAspect? (aspects : List Aspect) (name : String) : Option Aspect :=
  aspects.find? fun a => a.name = name

/-- Whether there is an aspect with a given name. -/
def hasAspect (aspects : List Aspect) (name : String) : Bool :=
  (findAspect? aspects name).isSome

/-! ## The aspects that the generator understands -/

namespace Vocabulary

/-- Marks the structure that becomes a contract. -/
def contractType : String := "Solidity.ContractType"

/-- The property of `contractType` that says so. -/
def isContract : String := "isContract"

/-- Attaches a state diagram to a contract. -/
def stateBehavior : String := "Solidity.StateBehavior"

/-- The property of `stateBehavior` that holds the path of the diagram. -/
def diagram : String := "diagram"

/-- Marks a field that can receive funds. -/
def payable : String := "Solidity.Payable"

/-- Turns a structure into a custom error. -/
def error : String := "Solidity.Error"

/-- Turns an operation into a modifier. -/
def modifier : String := "Solidity.Modifier"

/-- Replaces the type of a field or parameter by a mapping. -/
def mapping : String := "Solidity.Mapping"

/-- The property of `mapping` that holds the key type. -/
def key : String := "key"

/-- The property of `mapping` that holds the value type. -/
def value : String := "value"

end Vocabulary

end Domain
end ContractGen
