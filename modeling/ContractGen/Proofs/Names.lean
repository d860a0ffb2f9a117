import ContractGen.Domain.Identifier
import ContractGen.Files.Artifact
import ContractGen.Proofs.Disk
import ContractGen.Proofs.Glyphs

/-!
# Names of definitions and of files

A name that a model may declare is an identifier, with only letters, digits, underscores and dollar
signs, so the names of the files of a contract are single names of a path. Two such files have the
same name if and only if the names of their definitions agree, which happens across contracts as soon
as one of them is named like another with the suffix of a role.
-/

namespace ContractGen
namespace Domain

theorem startsName_eq :
    startsName = Source.isIdentifierStart :=
  rfl

theorem continuesName_eq :
    continuesName = Source.isIdentifierPart :=
  rfl

/-- A name passes the check exactly if it is an identifier and no reserved word. -/
theorem nameFault?_eq_none_iff_isIdentifier
    {name : String} :
    nameFault? name = none ↔
      Source.isIdentifier name = true ∧ name ∉ reservedWords := by
  unfold nameFault? Source.isIdentifier
  rw [startsName_eq, continuesName_eq]
  cases name.toList with
  | nil =>
      simp
  | cons c cs =>
      dsimp only
      cases hstart : Source.isIdentifierStart c with
      | false =>
          simp
      | true =>
          cases hrest : cs.all Source.isIdentifierPart with
          | false =>
              simp
          | true =>
              simp

theorem slash_notMem_of_nameFault?
    {name : String}
    (h : nameFault? name = none) :
    '/' ∉ name.toList :=
  Source.not_mem_of_isIdentifier (nameFault?_eq_none_iff_isIdentifier.mp h).1 (by decide)

end Domain

namespace Files
namespace ArtifactRole

open Domain (nameFault?)

@[simp] theorem mem_all
    (r : ArtifactRole) :
    r ∈ all := by
  cases r <;> decide

theorem toList_fileName
    (r : ArtifactRole)
    (contract : String) :
    (r.fileName contract).toList =
      contract.toList ++ r.suffix.toList ++ ".sol".toList := by
  simp [fileName, definitionName, sourceExtension]

/-- The name of a file is a single name of a path unless the contract has a slash in its name. -/
theorem isName_fileName_iff
    (r : ArtifactRole)
    (contract : String) :
    Disk.IsName (r.fileName contract) ↔ '/' ∉ contract.toList := by
  have hsuffix : '/' ∉ r.suffix.toList ++ ".sol".toList := by
    cases r <;> decide
  have hslash : '/' ∉ (r.fileName contract).toList ↔ '/' ∉ contract.toList := by
    rw [toList_fileName, List.append_assoc, List.mem_append, not_or]
    exact and_iff_left hsuffix
  have hlong : 4 ≤ (r.fileName contract).toList.length := by
    rw [toList_fileName]
    simp only [List.length_append]
    exact Nat.le_add_left 4 _
  have hother : r.fileName contract ∉ ["", ".", ".."] := by
    intro hmem
    have hshort : ∀ text ∈ ["", ".", ".."], text.toList.length < 4 := by
      decide
    exact absurd (hshort _ hmem) (by omega)
  rw [Disk.IsName, hslash]
  exact and_iff_left hother

theorem isName_fileName
    (r : ArtifactRole)
    {contract : String}
    (h : nameFault? contract = none) :
    Disk.IsName (r.fileName contract) :=
  (r.isName_fileName_iff contract).mpr (Domain.slash_notMem_of_nameFault? h)

/-- Two artifacts have one file exactly if they define one name. -/
theorem fileName_inj_iff
    (r r' : ArtifactRole)
    (contract contract' : String) :
    r.fileName contract = r'.fileName contract' ↔
      r.definitionName contract = r'.definitionName contract' := by
  simp [fileName]

/--
Whether a generated file of one contract has the name of a user's file of another: the other
contract is named like this one with the suffix of the role, or this one like the other with `Base`.
-/
def Clashes (generated : ArtifactRole) (other : String) (role : ArtifactRole) (contract : String) :
    Prop :=
  (generated = .generatedInterface ∧ other = contract ++ role.suffix) ∨
    (generated = .generatedBaseImpl ∧ role = .userImpl ∧ other ++ "Base" = contract)

theorem isUserOwned_eq_false_of_clashes
    {generated role : ArtifactRole} {other contract : String}
    (h : generated.Clashes other role contract) :
    generated.isUserOwned = false := by
  rcases h with ⟨rfl, -⟩ | ⟨rfl, -, -⟩ <;> rfl

/-- A generated file takes the place of a file of the user exactly if the two artifacts clash. -/
theorem fileName_eq_iff_clashes
    {generated role : ArtifactRole}
    (hgenerated : generated.isUserOwned = false)
    (hrole : role.isUserOwned = true)
    (other contract : String) :
    generated.fileName other = role.fileName contract ↔
      generated.Clashes other role contract := by
  rw [fileName_inj_iff]
  cases generated with
  | userInterface =>
      cases hgenerated
  | userImpl =>
      cases hgenerated
  | generatedInterface =>
      simp [Clashes, definitionName, suffix]
  | generatedBaseImpl =>
      cases role with
      | generatedInterface =>
          cases hrole
      | generatedBaseImpl =>
          cases hrole
      | userInterface =>
          -- The last letters of `BaseImpl` and of `Base` differ.
          simp only [Clashes, definitionName, suffix, reduceCtorEq, false_and, and_false, or_self,
            iff_false]
          intro h
          have hlast := congrArg (fun text => text.toList.getLast?) h
          simp at hlast
      | userImpl =>
          have hsplit : other ++ "BaseImpl" = other ++ "Base" ++ "Impl" := by
            rw [String.append_assoc]
            rfl
          simp only [Clashes, definitionName, suffix, reduceCtorEq, false_and, true_and, false_or,
            hsplit]
          simp

end ArtifactRole
end Files
end ContractGen
