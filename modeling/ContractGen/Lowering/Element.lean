import ContractGen.Domain.Model

/-!
# The elements of a model

A model is visited element by element: first the model itself, then each declared type in order,
a structure followed by its fields and its operations.
-/

namespace ContractGen
namespace Lowering

open Domain

/-- The kinds of elements. -/
inductive ElementKind
  | model
  | struct
  | enumeration
  | field
  | operation
deriving DecidableEq, Repr, Inhabited

namespace ElementKind

/-- Every kind of element. -/
def all : List ElementKind :=
  [model, struct, enumeration, field, operation]

/-- The word for a kind. -/
def text : ElementKind → String
  | model => "model"
  | struct => "structure"
  | enumeration => "enumeration"
  | field => "field"
  | operation => "operation"

end ElementKind

/-- An element of a model. -/
inductive Element
  | model (m : Model)
  | struct (s : Structure)
  | enumeration (e : Enumeration)
  | field (f : Field)
  | operation (o : Operation)
deriving DecidableEq, Repr, Inhabited

namespace Element

/-- The kind of an element. -/
def kind : Element → ElementKind
  | model _ => .model
  | struct _ => .struct
  | enumeration _ => .enumeration
  | field _ => .field
  | operation _ => .operation

/-- The name of an element. -/
def name : Element → String
  | model m => m.name
  | struct s => s.name
  | enumeration e => e.name
  | field f => f.name
  | operation o => o.name

/-- A declared type, followed by its members. -/
def ofType : ComplexType → List Element
  | .struct s => struct s :: (s.fields.map field ++ s.operations.map operation)
  | .enumeration e => [enumeration e]

/-- The elements of a model in the order in which they are visited. -/
def preOrder (m : Model) : List Element :=
  model m :: m.types.flatMap ofType

end Element
end Lowering
end ContractGen
