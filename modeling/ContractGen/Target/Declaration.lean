import ContractGen.Target.Function

/-!
# Data declarations

State variables, structs, events, custom errors and enums. A `payable` flag marks an address that
can receive funds.
-/

namespace ContractGen
namespace Target

/-- A state variable. -/
structure Field where
  name : String
  type : TypeExpr
  visibility : Visibility := .publicly
  payable : Bool := false
  initializer : Option String := none
deriving DecidableEq, Repr, Inhabited

/-- A struct member, or an argument of an event or error. -/
structure LocalField where
  name : String
  type : TypeExpr
  payable : Bool := false
deriving DecidableEq, Repr, Inhabited

/-- A struct. -/
structure Structure where
  name : String
  fields : List LocalField := []
deriving DecidableEq, Repr, Inhabited

/-- An event. -/
structure Event where
  name : String
  parameters : List LocalField := []
deriving DecidableEq, Repr, Inhabited

/-- A custom error. -/
structure ErrorDefinition where
  name : String
  parameters : List LocalField := []
deriving DecidableEq, Repr, Inhabited

/-- An enum with its values in order. -/
structure Enumeration where
  name : String
  values : List String := []
deriving DecidableEq, Repr, Inhabited

/-- Apply a function to the type of a state variable. -/
def Field.mapType (f : TypeExpr → TypeExpr) (x : Field) : Field :=
  { x with type := f x.type }

/-- Apply a function to the type of a struct member or argument. -/
def LocalField.mapType (f : TypeExpr → TypeExpr) (x : LocalField) : LocalField :=
  { x with type := f x.type }

/-- Apply a function to every member type of a struct. -/
def Structure.mapTypes (f : TypeExpr → TypeExpr) (s : Structure) : Structure :=
  { s with fields := s.fields.map (LocalField.mapType f) }

/-- Apply a function to every argument type of an event. -/
def Event.mapTypes (f : TypeExpr → TypeExpr) (e : Event) : Event :=
  { e with parameters := e.parameters.map (LocalField.mapType f) }

/-- Apply a function to every argument type of a custom error. -/
def ErrorDefinition.mapTypes (f : TypeExpr → TypeExpr) (e : ErrorDefinition) : ErrorDefinition :=
  { e with parameters := e.parameters.map (LocalField.mapType f) }

end Target
end ContractGen
