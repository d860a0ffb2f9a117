import ContractGen.Generation.Placeholder
import ContractGen.Generation.Serializer
import ContractGen.Source.File

/-!
# The generation-gap layout

A contract `C` is spread over files with fixed roles.

* `C.sol` is generated: the interface of the exposed functions, and the structs.
* `CBaseImpl.sol` is generated: the contract, which implements that interface.
* `CBase.sol` belongs to the user: declarations that the generated interface extends.
* `CImpl.sol` belongs to the user: a contract that extends the base implementation.

The files of the user shape the generated ones and are never overwritten. If there are declarations
of the user but no implementation yet, an implementation is made for them to start from. A contract
whose user declarations cannot be read is skipped; the other contracts are not affected.
-/

namespace ContractGen
namespace Generation
namespace Gap

open Files Lowering Target

/-- What the output folder holds of the user's files for a contract. -/
structure UserFiles where
  /-- The first interface in the user's declarations. -/
  interface : Option Interface := none
  hasImpl : Bool := false
deriving DecidableEq, Inhabited

/-- The interface in the user's declarations; `enums` are enums that they may use. -/
def readInterface (d : Disk) (folder contract : String) (enums : List String) :
    Except Failure (Option Interface) :=
  let path := ArtifactRole.userInterface.pathIn folder contract
  if d.isFile path then
    match Source.parseFile d path with
    | .error f => .error (f.within ("Failed to read user interface of " ++ contract))
    | .ok unit => .ok (unit.resolveEnumerations enums).definitions.interfaces.head?
  else
    .ok none

/-- Look for the user's files for a contract. -/
def probe (d : Disk) (folder contract : String) (enums : List String) :
    Except Failure UserFiles := do
  let interface ← readInterface d folder contract enums
  return { interface, hasImpl := d.isFile (ArtifactRole.userImpl.pathIn folder contract) }

/-! ## The files of one contract -/

/-- A function as an interface declares it. -/
def declared (f : Function) : Function :=
  { f with visibility := .externally, isVirtual := false, isOverride := false, statements := [] }

/-- The unit with the generated interface. -/
def interfaceUnit (unit : SourceUnit) (c : Contract) (user : Option Interface)
    (shared : Option Definitions) : SourceUnit :=
  let name := ArtifactRole.generatedInterface.definitionName c.name
  let interface : Interface :=
    { name
      parents := user.toList.map Interface.name
      definitions :=
        { functions := (c.functions.filter Function.isExposed).map declared
          structures := c.definitions.structures } }
  let around := shared.getD {}
  { unit.sibling name with
    imports :=
      unit.imports ++ user.toList.map fun _ => ArtifactRole.userInterface.importPath c.name
    definitions := { around with interfaces := around.interfaces ++ [interface] } }

/-- A function of the base implementation. -/
def implemented (hasImpl : Bool) (f : Function) : Function :=
  { f with
    isVirtual := f.isVirtual || (hasImpl && f.visibility ≠ .privately)
    isOverride := f.isOverride || f.isExposed
    statements := bodyOrRevert f.statements }

/-- The unit with the base implementation. The structs are in the interface. -/
def baseUnit (unit : SourceUnit) (c : Contract) (hasImpl : Bool) : SourceUnit :=
  let name := ArtifactRole.generatedBaseImpl.definitionName c.name
  let base : Contract :=
    { c with
      name
      isAbstract := hasImpl
      implements := c.implements ++ [ArtifactRole.generatedInterface.definitionName c.name]
      definitions :=
        { c.definitions with
          structures := []
          functions := c.definitions.functions.map (implemented hasImpl)
          modifiers := c.definitions.modifiers.map fun m =>
            { m with statements := bodyOrRevert m.statements } } }
  { unit.sibling name with
    imports := [ArtifactRole.generatedInterface.importPath c.name]
    definitions := { contracts := [base] } }

/-- A function of the user's implementation to start from. -/
def overriding (f : Function) : Function :=
  { f with
    isVirtual := false
    isOverride := true
    statements := [placeholderReturn f.returns] }

/-- The unit with the user's implementation to start from. -/
def implUnit (unit : SourceUnit) (contract : String) (user : Interface) : SourceUnit :=
  let name := ArtifactRole.userImpl.definitionName contract
  let impl : Contract :=
    { name
      parents := [ArtifactRole.generatedBaseImpl.definitionName contract]
      definitions := { functions := user.definitions.functions.map overriding } }
  { unit.sibling name with
    imports := [ArtifactRole.generatedBaseImpl.importPath contract]
    definitions := { contracts := [impl] } }

/-- The file of the user's implementation, if it has to be made. -/
def implFile? (unit : SourceUnit) (contract : String) (user : UserFiles) : Option Entry :=
  match user.interface, user.hasImpl with
  | some interface, false =>
    some { Entry.artifact .userImpl contract (implUnit unit contract interface).print with
      rule := some .ifMissing }
  | _, _ => none

/-- The files of a contract; `shared` are definitions outside contracts to be put beside it. -/
def contractFiles (unit : SourceUnit) (c : Contract) (user : UserFiles)
    (shared : Option Definitions) : List Entry :=
  [.artifact .generatedInterface c.name (interfaceUnit unit c user.interface shared).print,
    .artifact .generatedBaseImpl c.name (baseUnit unit c user.hasImpl).print] ++
    (implFile? unit c.name user).toList

/-! ## The files of a unit -/

/-- Lay out contracts in order. The first that is not skipped takes the shared definitions. -/
def layOut (d : Disk) (folder : String) (unit : SourceUnit) (shared : Option Definitions) :
    List Contract → Serialized
  | [] => {}
  | c :: cs =>
    match probe d folder c.name unit.enumerationNames with
    | .error f =>
      let later := layOut d folder unit shared cs
      { later with skipped := ⟨c.name, f.text⟩ :: later.skipped }
    | .ok user =>
      let later := layOut d folder unit none cs
      { later with files := contractFiles unit c user shared ++ later.files }

/-- The definitions outside contracts, if there are any. -/
def sharedDefinitions? (unit : SourceUnit) : Option Definitions :=
  let d := fileLevel unit.definitions
  if d.isEmpty then none else some d

/-- The files of a unit. There are none if the folder does not exist. -/
def serialize (d : Disk) (folder : String) (u : LoweredUnit) : Serialized :=
  if !d.isFolder folder then
    {}
  else if u.unit.definitions.contracts.isEmpty then
    { files := (standaloneFile? u).toList }
  else
    layOut d folder u.unit (sharedDefinitions? u.unit) u.unit.definitions.contracts

/-- The serializer for this layout. -/
def serializer : Serializer where
  name := "extended-generation-gap"
  isDefault := true
  serialize := serialize

end Gap
end Generation
end ContractGen
