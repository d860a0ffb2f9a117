import ContractGen.Generation.Serializer

/-!
# The plain layout

Each contract goes to a file of its own, as it is. Definitions outside contracts go with the first
contract. No files of the user are looked at.
-/

namespace ContractGen
namespace Generation
namespace Plain

open Files Lowering Target

/-- The file of a contract; `shared` are the definitions to be put beside it. -/
def contractFile (unit : SourceUnit) (shared : Definitions) (c : Contract) : Entry :=
  .generated (ArtifactRole.generatedInterface.fileName c.name)
    { unit.sibling c.name with
      imports := unit.imports
      definitions := { shared with contracts := shared.contracts ++ [c] } }.print

/-- The files of contracts, in order. -/
def contractFiles (unit : SourceUnit) : List Contract → List Entry
  | [] => []
  | c :: cs => contractFile unit (fileLevel unit.definitions) c :: cs.map (contractFile unit {})

/-- The files of a unit. -/
def serialize (_ : Disk) (_ : String) (u : LoweredUnit) : Serialized :=
  if u.unit.definitions.contracts.isEmpty then
    { files := (standaloneFile? u).toList }
  else
    { files := contractFiles u.unit u.unit.definitions.contracts }

/-- The serializer for this layout. -/
def serializer : Serializer where
  name := "plain"
  serialize := serialize

end Plain
end Generation
end ContractGen
