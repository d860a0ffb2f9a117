import ContractGen.Target.TypeExpr
import ContractGen.Target.Statement

/-!
# Functions and modifiers

Callables of the target language with their visibility, state mutability and parameters. A
parameter may carry a data location; only parameters of reference type are printed with it.
-/

namespace ContractGen
namespace Target

/-- Who can call a function or read a state variable. -/
inductive Visibility
  | publicly
  | internally
  | privately
  | externally
deriving DecidableEq, Repr, Inhabited

namespace Visibility

/-- The keyword of a visibility. -/
def keyword : Visibility → String
  | publicly => "public"
  | internally => "internal"
  | privately => "private"
  | externally => "external"

/-- Every visibility. -/
def all : List Visibility :=
  [publicly, internally, privately, externally]

/-- The visibility that a keyword denotes. -/
def ofKeyword? (word : String) : Option Visibility :=
  all.find? fun v => v.keyword = word

/-- A keyword denotes what it is the keyword of. -/
theorem ofKeyword?_keyword
    (v : Visibility) :
    ofKeyword? v.keyword = some v := by
  cases v <;> rfl

/-- Public and external members are part of a contract's interface. -/
def isExposed : Visibility → Bool
  | publicly => true
  | externally => true
  | internally => false
  | privately => false

end Visibility

/-- How a function may touch the state. -/
inductive Mutability
  | pure
  | view
  | payable
deriving DecidableEq, Repr, Inhabited

namespace Mutability

/-- The keyword of a mutability. -/
def keyword : Mutability → String
  | pure => "pure"
  | view => "view"
  | payable => "payable"

/-- Every mutability. -/
def all : List Mutability :=
  [pure, view, payable]

/-- The mutability that a keyword denotes. -/
def ofKeyword? (word : String) : Option Mutability :=
  all.find? fun m => m.keyword = word

/-- A keyword denotes what it is the keyword of. -/
theorem ofKeyword?_keyword
    (m : Mutability) :
    ofKeyword? m.keyword = some m := by
  cases m <;> rfl

end Mutability

/-- Where a value of reference type is kept. -/
inductive DataLocation
  | memory
  | storage
  | calldata
deriving DecidableEq, Repr, Inhabited

namespace DataLocation

/-- The keyword of a data location. -/
def keyword : DataLocation → String
  | memory => "memory"
  | storage => "storage"
  | calldata => "calldata"

/-- Every data location. -/
def all : List DataLocation :=
  [memory, storage, calldata]

/-- The data location that a keyword denotes. -/
def ofKeyword? (word : String) : Option DataLocation :=
  all.find? fun l => l.keyword = word

/-- A keyword denotes what it is the keyword of. -/
theorem ofKeyword?_keyword
    (l : DataLocation) :
    ofKeyword? l.keyword = some l := by
  cases l <;> rfl

end DataLocation

/-- A parameter of a function or modifier; its name may be empty. -/
structure Parameter where
  name : String
  type : TypeExpr
  location : Option DataLocation := none
deriving DecidableEq, Repr, Inhabited

/-- A function declaration or definition. -/
structure Function where
  name : String
  visibility : Visibility := .publicly
  mutability : Option Mutability := none
  isVirtual : Bool := false
  isOverride : Bool := false
  parameters : List Parameter := []
  returns : List TypeExpr := []
  statements : List Statement := []
deriving DecidableEq, Inhabited

/-- Whether a function is part of its contract's interface. -/
def Function.isExposed (f : Function) : Bool :=
  f.visibility.isExposed

/-- A modifier. The placeholder for the modified body is added when it is printed. -/
structure Modifier where
  name : String
  isVirtual : Bool := false
  isOverride : Bool := false
  parameters : List Parameter := []
  statements : List Statement := []
deriving DecidableEq, Inhabited

/-- Apply a function to the type of a parameter. -/
def Parameter.mapType (f : TypeExpr → TypeExpr) (p : Parameter) : Parameter :=
  { p with type := f p.type }

/-- Apply a function to every parameter and return type of a function. -/
def Function.mapTypes (f : TypeExpr → TypeExpr) (g : Function) : Function :=
  { g with parameters := g.parameters.map (Parameter.mapType f), returns := g.returns.map f }

/-- Apply a function to every parameter type of a modifier. -/
def Modifier.mapTypes (f : TypeExpr → TypeExpr) (m : Modifier) : Modifier :=
  { m with parameters := m.parameters.map (Parameter.mapType f) }

end Target
end ContractGen
