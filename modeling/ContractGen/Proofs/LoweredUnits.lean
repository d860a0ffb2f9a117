import ContractGen.Proofs.EnumTypes
import ContractGen.Proofs.Placement

/-!
# The units of a run

A run lowers its models to one unit each and then resolves in all of them the enums of any of them.
Here the unit of a model is given by itself, as a function of the model and of the enums of the run.

* `lower_units`: the units of a run are those of its models, in order.
* `contracts_unitOf`: the contracts of a unit, one for each section of its model.
-/

namespace ContractGen
namespace Lowering

open Behavior Target
open Domain (ComplexType ModelSource)

section Run

variable (compiler : Option Compiler) (c : Pipeline.Context) (source : ModelSource)

/-- What the handlers see when they are given a model of a run. -/
def aroundSource : Surroundings :=
  { header := c.header, source, compiler }

/-- The names of all enums that the units of a run declare. -/
def runEnums : List String :=
  c.models.flatMap fun source =>
    (loweredSource (aroundSource compiler c source)).unit.enumerationNames

/-- The unit of a model of a run. -/
def unitOf : LoweredUnit :=
  { loweredSource (aroundSource compiler c source) with
    unit := (loweredSource (aroundSource compiler c source)).unit.resolveEnumerations
      (runEnums compiler c) }

theorem lower_units :
    (Pipeline.lower { handlers := Handler.builtin, compiler } c).units =
      c.models.map (unitOf compiler c) := by
  obtain ⟨current, hmodels⟩ := lowerModels_spec c.header compiler c.models
  rw [Pipeline.lower, hmodels]
  simp only [resolveUnits, List.map_map, List.flatMap_map]
  rfl

/-- Resolving enums does not change which are declared. -/
theorem flatMap_enumerationNames_units :
    ((Pipeline.lower { handlers := Handler.builtin, compiler } c).units.flatMap
      fun u => u.unit.enumerationNames) = runEnums compiler c := by
  rw [lower_units, List.flatMap_map]
  simp [unitOf, runEnums]

theorem contracts_unitOf :
    (unitOf compiler c source).unit.definitions.contracts =
      (sections source.model.types).map fun x =>
        (sectionContract (aroundSource compiler c source) x).mapTypes
          (.resolve (runEnums compiler c)) := by
  show Contract.listMapTypes _ _ = _
  rw [Contract.listMapTypes_eq, List.map_map]
  rfl

end Run

theorem name_sectionContract
    (around : Surroundings)
    (x : Domain.Structure × List ComplexType) :
    (sectionContract around x).name = x.1.name := by
  obtain ⟨-, fields, functions, hc⟩ := contractResponse_output around x.1
  rw [sectionContract, hc]
  rfl

theorem struct_mem_of_mem_sections
    {types : List ComplexType} {x : Domain.Structure × List ComplexType}
    (h : x ∈ sections types) :
    ComplexType.struct x.1 ∈ types := by
  rw [eq_leading_append_sections types]
  exact List.mem_append_right _ (List.mem_flatMap.mpr ⟨x, h, List.mem_cons_self⟩)

/-- There are as many sections as contracts. -/
theorem map_fst_sections
    (types : List ComplexType) :
    (sections types).map Prod.fst = structuresOf .contract types := by
  induction types with
  | nil =>
      rfl
  | cons t types ih =>
      cases t with
      | enumeration e =>
          simpa [sections, structuresOf, ComplexType.structure?, List.filterMap_cons] using ih
      | struct s =>
          by_cases hs : classify s = .contract
          · simpa [sections, structuresOf, ComplexType.structure?, hs] using ih
          · simpa [sections, structuresOf, ComplexType.structure?, hs] using ih

theorem sections_eq_nil_iff
    {types : List ComplexType} :
    sections types = [] ↔
      ∀ s ∈ types.filterMap ComplexType.structure?, classify s ≠ .contract := by
  rw [← List.map_eq_nil_iff (f := Prod.fst), map_fst_sections, structuresOf, List.filter_eq_nil_iff]
  simp

end Lowering
end ContractGen
