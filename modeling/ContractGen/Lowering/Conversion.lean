import ContractGen.Lowering.Classification
import ContractGen.Target.SourceUnit

/-!
# Converting domain elements

How the elements of a model turn into declarations of the target language, each by itself. A
mapping aspect replaces the type of the element that carries it.
-/

namespace ContractGen
namespace Lowering

open Domain (TypeRef Aspect)

/-- The target type of a domain type. -/
def plainType : TypeRef → Target.TypeExpr
  | .complex name => .named name
  | .primitive .date => .named "uint"
  | .primitive .boolean => .named "bool"
  | .primitive p => .named p.name

/-- The mapping that aspects ask for, if they give its key and its value type. -/
def mappingType? (aspects : List Aspect) : Option Target.TypeExpr := do
  let aspect ← Domain.findAspect? aspects Domain.Vocabulary.mapping
  let key ← aspect.getText? Domain.Vocabulary.key
  let value ← aspect.getText? Domain.Vocabulary.value
  some (.mapping (.named key) (.named value))

/-- The target type of a domain type under some aspects. -/
def mappedType (type : TypeRef) (aspects : List Aspect) : Target.TypeExpr :=
  (mappingType? aspects).getD (plainType type)

/-- The target type of a field. A mapping wins over the list flag. -/
def fieldType (f : Domain.Field) : Target.TypeExpr :=
  (mappingType? f.aspects).getD (if f.list then .array (plainType f.type) else plainType f.type)

/-- The visibility of a member. -/
def memberVisibility (hidden : Bool) : Target.Visibility :=
  if hidden then .internally else .publicly

/-- A field as a state variable. -/
def stateVariable (f : Domain.Field) : Target.Field :=
  { name := f.name
    type := fieldType f
    visibility := memberVisibility f.hidden
    payable := Domain.hasAspect f.aspects Domain.Vocabulary.payable }

/-- A field as a member of a struct or a parameter of an event or error. -/
def localField (f : Domain.Field) : Target.LocalField :=
  { name := f.name
    type := fieldType f
    payable := Domain.hasAspect f.aspects Domain.Vocabulary.payable }

/-- A parameter of an operation. -/
def parameter (p : Domain.Parameter) : Target.Parameter :=
  { name := p.name, type := mappedType p.type p.aspects, location := some .memory }

/-- What an operation becomes. -/
inductive Callable
  | function (f : Target.Function)
  | modifier (m : Target.Modifier)
deriving DecidableEq, Inhabited

/-- The function that a callable is. -/
def Callable.function? : Callable → Option Target.Function
  | function f => some f
  | modifier _ => none

/-- The modifier that a callable is. -/
def Callable.modifier? : Callable → Option Target.Modifier
  | function _ => none
  | modifier m => some m

/-- An operation as a modifier, if it is marked as one, or as a function. -/
def callable (o : Domain.Operation) : Callable :=
  if Domain.hasAspect o.aspects Domain.Vocabulary.modifier then
    .modifier { name := o.name, parameters := o.parameters.map parameter }
  else
    .function
      { name := o.name
        visibility := memberVisibility o.hidden
        parameters := o.parameters.map parameter
        returns := o.returns.toList.map plainType }

/-- A structure as a contract. -/
def contract (s : Domain.Structure) : Target.Contract :=
  { name := s.name
    fields := s.fields.map stateVariable
    definitions :=
      { functions := s.operations.filterMap fun o => (callable o).function?
        modifiers := s.operations.filterMap fun o => (callable o).modifier? } }

/-- A structure as a struct. -/
def struct (s : Domain.Structure) : Target.Structure :=
  { name := s.name, fields := s.fields.map localField }

/-- A structure as an event. -/
def event (s : Domain.Structure) : Target.Event :=
  { name := s.name, parameters := s.fields.map localField }

/-- A structure as a custom error. -/
def errorDefinition (s : Domain.Structure) : Target.ErrorDefinition :=
  { name := s.name, parameters := s.fields.map localField }

/-- An enumeration with its values in order. -/
def enumeration (e : Domain.Enumeration) : Target.Enumeration :=
  { name := e.name, values := e.values }

end Lowering
end ContractGen
