import ContractGen.Domain.Model
import ContractGen.Text.Blank

/-!
# What a structure becomes

Aspects and features of a structure decide whether it becomes a contract, an event, a custom error
or a plain struct.
-/

namespace ContractGen
namespace Lowering

open Domain

/-- What a structure becomes. -/
inductive Classification
  | contract
  | struct
  | event
  | error
deriving DecidableEq, Repr, Inhabited

/-- The word for a classification. -/
def Classification.text : Classification → String
  | contract => "contract"
  | struct => "struct"
  | event => "event"
  | error => "error"

/-- Whether a structure is marked as a contract. -/
def isContract (s : Structure) : Bool :=
  ((findAspect? s.aspects Vocabulary.contractType).bind
    fun a => a.get? Vocabulary.isContract).any PropertyValue.isTrue

/-- What a structure becomes: a marked one a contract, a domain event an event or error. -/
def classify (s : Structure) : Classification :=
  if isContract s then .contract
  else if Feature.domainEvent ∈ s.features then
    if hasAspect s.aspects Vocabulary.error then .error else .event
  else .struct

/-- The path of the state diagram of a structure. A blank path counts as none. -/
def diagram? (s : Structure) : Option String :=
  (((findAspect? s.aspects Vocabulary.stateBehavior).bind
    fun a => a.get? Vocabulary.diagram).bind PropertyValue.string?).filter
      fun path => !(Text.trimmed path).isEmpty

end Lowering
end ContractGen
