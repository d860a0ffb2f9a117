import ContractGen.Domain.Aspect

/-!
# Domain models

A model declares structures and enumerations, in order. Structures have fields and operations;
structures and their members carry aspects.
-/

namespace ContractGen
namespace Domain

/-- What a structure is in terms of domain-driven design. -/
inductive Feature
  | aggregate
  | applicationService
  | domainEvent
  | domainService
  | entity
  | factory
  | infrastructureService
  | repository
  | service
  | specification
  | valueObject
deriving DecidableEq, Repr, Inhabited

namespace Feature

/-- Every feature. -/
def all : List Feature :=
  [aggregate, applicationService, domainEvent, domainService, entity, factory,
    infrastructureService, repository, service, specification, valueObject]

/-- The name of a feature in model files. -/
def name : Feature → String
  | aggregate => "AGGREGATE"
  | applicationService => "APPLICATION_SERVICE"
  | domainEvent => "DOMAIN_EVENT"
  | domainService => "DOMAIN_SERVICE"
  | entity => "ENTITY"
  | factory => "FACTORY"
  | infrastructureService => "INFRASTRUCTURE_SERVICE"
  | repository => "REPOSITORY"
  | service => "SERVICE"
  | specification => "SPECIFICATION"
  | valueObject => "VALUE_OBJECT"

/-- The feature with a given name. -/
def ofName? (name : String) : Option Feature :=
  all.find? fun f => f.name = name

end Feature

/-- A field of a structure. -/
structure Field where
  name : String
  type : TypeRef
  /-- Whether the field holds a list of values of its type. -/
  list : Bool := false
  hidden : Bool := false
  aspects : List Aspect := []
deriving DecidableEq, Repr, Inhabited

/-- A parameter of an operation. -/
structure Parameter where
  name : String
  type : TypeRef
  aspects : List Aspect := []
deriving DecidableEq, Repr, Inhabited

/-- An operation of a structure. -/
structure Operation where
  name : String
  parameters : List Parameter := []
  returns : Option TypeRef := none
  hidden : Bool := false
  aspects : List Aspect := []
deriving DecidableEq, Repr, Inhabited

/-- A structure with fields and operations. -/
structure Structure where
  name : String
  features : List Feature := []
  aspects : List Aspect := []
  fields : List Field := []
  operations : List Operation := []
deriving DecidableEq, Repr, Inhabited

/-- An enumeration with its values in order. -/
structure Enumeration where
  name : String
  values : List String := []
deriving DecidableEq, Repr, Inhabited

/-- A type that a model declares. -/
inductive ComplexType
  | struct (s : Structure)
  | enumeration (e : Enumeration)
deriving DecidableEq, Repr, Inhabited

namespace ComplexType

/-- The name of a declared type. -/
def name : ComplexType → String
  | struct s => s.name
  | enumeration e => e.name

/-- The structure that a declared type is. -/
def structure? : ComplexType → Option Structure
  | struct s => some s
  | enumeration _ => none

/-- The enumeration that a declared type is. -/
def enumeration? : ComplexType → Option Enumeration
  | struct _ => none
  | enumeration e => some e

end ComplexType

/-- A domain model. -/
structure Model where
  name : String
  /-- Other model files, relative to the file of this one. -/
  imports : List String := []
  types : List ComplexType := []
deriving DecidableEq, Repr, Inhabited

namespace Model

/-- The structures of a model, in order. -/
def structures (m : Model) : List Structure :=
  m.types.filterMap ComplexType.structure?

/-- The enumerations of a model, in order. -/
def enumerations (m : Model) : List Enumeration :=
  m.types.filterMap ComplexType.enumeration?

/-- Every aspect of the structures of a model and of their members. -/
def aspects (m : Model) : List Aspect :=
  m.structures.flatMap fun s =>
    s.aspects ++ s.fields.flatMap Field.aspects ++
      s.operations.flatMap fun o => o.aspects ++ o.parameters.flatMap Parameter.aspects

/-- The first declared type with a given name. -/
def find? (m : Model) (name : String) : Option ComplexType :=
  m.types.find? fun t => t.name = name

end Model

/-- A structure that becomes a contract. -/
def contractStructure (name : String) : Structure :=
  { name
    aspects :=
      [{ name := Vocabulary.contractType, properties := [(Vocabulary.isContract, .bool true)] }] }

/-- A model together with the file it was loaded from. -/
structure ModelSource where
  path : String
  model : Model
deriving DecidableEq, Repr, Inhabited

end Domain
end ContractGen
