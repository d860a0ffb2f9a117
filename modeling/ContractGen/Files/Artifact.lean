import ContractGen.Files.Path

/-!
# The files of one contract

In the generation-gap layout a contract is spread over four files with fixed roles. Two of them
are generated anew on every run; the other two belong to the user. The role decides the suffix of
the file's name and of the definition in it.
-/

namespace ContractGen
namespace Files

/-- The role of a file in the layout of one contract. -/
inductive ArtifactRole
  /-- The interface, generated on every run. -/
  | generatedInterface
  /-- The contract that implements the interface, generated on every run. -/
  | generatedBaseImpl
  /-- Declarations of the user, only ever read. -/
  | userInterface
  /-- The user's implementation, created once. -/
  | userImpl
deriving DecidableEq, Repr, Inhabited

/-- The extension of source files. -/
def sourceExtension : String := "sol"

namespace ArtifactRole

/-- Every role, in layout order. -/
def all : List ArtifactRole :=
  [generatedInterface, generatedBaseImpl, userInterface, userImpl]

/-- The identifier of a role. -/
def key : ArtifactRole → String
  | generatedInterface => "generated-interface"
  | generatedBaseImpl => "generated-base-impl"
  | userInterface => "user-interface"
  | userImpl => "user-impl"

/-- The role with a given identifier. -/
def ofKey? (key : String) : Option ArtifactRole :=
  all.find? fun r => r.key = key

/-- The name of a role for people. -/
def describe : ArtifactRole → String
  | generatedInterface => "generated interface"
  | generatedBaseImpl => "generated base implementation"
  | userInterface => "user interface"
  | userImpl => "user implementation"

/-- What a role appends to the name of the contract. -/
def suffix : ArtifactRole → String
  | generatedInterface => ""
  | generatedBaseImpl => "BaseImpl"
  | userInterface => "Base"
  | userImpl => "Impl"

/-- Whether the file belongs to the user and must never be overwritten. -/
def isUserOwned : ArtifactRole → Bool
  | generatedInterface => false
  | generatedBaseImpl => false
  | userInterface => true
  | userImpl => true

/-- The name of the definition that the file declares. -/
def definitionName (r : ArtifactRole) (contract : String) : String :=
  contract ++ r.suffix

/-- The name of the file. -/
def fileName (r : ArtifactRole) (contract : String) : String :=
  r.definitionName contract ++ "." ++ sourceExtension

/-- The path by which files beside it import the file. -/
def importPath (r : ArtifactRole) (contract : String) : String :=
  "./" ++ r.fileName contract

/-- The path of the file in a folder. -/
def pathIn (r : ArtifactRole) (folder contract : String) : String :=
  Path.join folder (r.fileName contract)

end ArtifactRole
end Files
end ContractGen
