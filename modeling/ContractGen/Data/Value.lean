import ContractGen.Data.Shortest

/-!
# Values of structured data files

The values that a data file can hold, whatever its format. Records keep their entries in order and
may name an entry twice; what that means is left to the reader of the record.
-/

namespace ContractGen
namespace Data

/-- A number of a data file. -/
inductive Number
  | integer (n : Int)
  | float (x : Double)
deriving DecidableEq, Repr, Inhabited

/-- Whether an integer fits into a signed word of `bits` bits. -/
def fitsSigned (bits : Nat) (n : Int) : Bool :=
  -(Double.twoTo (bits - 1) : Int) ≤ n && n < Double.twoTo (bits - 1)

/-- Whether an integer fits into an unsigned word of `bits` bits. -/
def fitsUnsigned (bits : Nat) (n : Int) : Bool :=
  0 ≤ n && n < Double.twoTo bits

/-- A value of a data file. -/
inductive Value
  | null
  | bool (b : Bool)
  | number (n : Number)
  | string (s : String)
  | list (items : List Value)
  | record (entries : List (String × Value))
  /--
  A well-formed value that can only be passed over: a number that is too large, a text with half a
  surrogate pair, or values that nest too deep.
  -/
  | unusable
  /--
  A word in the place of a number that is none, or is beyond all bounds. Whoever comes across it
  fails, even when passing it over.
  -/
  | invalidNumber

namespace Value

instance : Inhabited Value := ⟨null⟩

/-- An integer. -/
def int (n : Int) : Value := number (.integer n)

/-- A natural number. -/
def nat (n : Nat) : Value := int n

/-- A list of strings. -/
def strings (ss : List String) : Value := list (ss.map string)

/-- A value that may be absent. -/
def optional {α : Type} (f : α → Value) : Option α → Value
  | none => null
  | some a => f a

/-- The string that a value is. -/
def string? : Value → Option String
  | string s => some s
  | _ => none

/-- The boolean that a value is. -/
def bool? : Value → Option Bool
  | bool b => some b
  | _ => none

/-- The items of a list. -/
def list? : Value → Option (List Value)
  | list items => some items
  | _ => none

/-- Whether a value is null. -/
def isNull : Value → Bool
  | null => true
  | _ => false

/-- Whether a value can only be passed over. -/
def isUnusable : Value → Bool
  | unusable => true
  | _ => false

/-- Whether a value is in the place of a number and is none. -/
def isInvalidNumber : Value → Bool
  | invalidNumber => true
  | _ => false

/-- A list cut off after some items; other values stay as they are. -/
def take (count : Nat) : Value → Value
  | list items => list (items.take count)
  | v => v

/-- The last entry with a given key. -/
def get? (key : String) : Value → Option Value
  | record entries => (entries.reverse.find? fun e => e.1 = key).map Prod.snd
  | _ => none

end Value
end Data
end ContractGen
