import ContractGen.Generation.Gap
import Mathlib.Data.List.Forall2

/-!
# The interface and the base implementation of a contract

In the generation-gap layout a contract is split in two. The interface declares the functions that
can be called from outside and takes the structs; the base implementation has all functions and
everything else. This module says how the members of the two are related to those of the contract,
and to each other: a function is marked as overriding if and only if the interface declares it.

* `Declares`, `Fulfils`, `Completes`: what becomes of one function or modifier.
* `IsSplit`: what becomes of a whole contract.
* `contractFiles_split`: the generated files hold such a split.
-/

namespace ContractGen
namespace Generation
namespace Gap

open Files Target

/-! ## Members -/

/-- The same function for a caller. -/
structure SameSignature (f g : Function) : Prop where
  name : g.name = f.name
  parameters : g.parameters = f.parameters
  returns : g.returns = f.returns
  mutability : g.mutability = f.mutability

/-- The second function is the declaration of the first one in an interface. -/
structure Declares (f g : Function) : Prop extends SameSignature f g where
  visibility : g.visibility = .externally
  isVirtual : g.isVirtual = false
  isOverride : g.isOverride = false
  statements : g.statements = []

/-- The second list of statements is the first one, or reverts if that is empty. -/
structure FillsBody (before after : List Statement) : Prop where
  kept : before ≠ [] → after = before
  reverting : before = [] → after = [.revert implementationRequired]

/-- The second function stands for the first one in a base implementation. -/
structure Fulfils (hasImpl : Bool) (f g : Function) : Prop extends SameSignature f g where
  visibility : g.visibility = f.visibility
  isVirtual : g.isVirtual = true ↔ hasImpl = true ∧ f.visibility ≠ .privately
  isOverride : g.isOverride = true ↔ f.isExposed = true
  statements : FillsBody f.statements g.statements

/-- The second modifier is the first one with a body. -/
structure Completes (m n : Modifier) : Prop where
  name : n.name = m.name
  isVirtual : n.isVirtual = m.isVirtual
  isOverride : n.isOverride = m.isOverride
  parameters : n.parameters = m.parameters
  statements : FillsBody m.statements n.statements

theorem FillsBody.ne_nil
    {before after : List Statement}
    (h : FillsBody before after) :
    after ≠ [] := by
  by_cases hbefore : before = []
  · simp [h.reverting hbefore]
  · rw [h.kept hbefore]
    exact hbefore

theorem fillsBody_bodyOrRevert
    (statements : List Statement) :
    FillsBody statements (bodyOrRevert statements) := by
  cases statements with
  | nil =>
      exact ⟨fun h => absurd rfl h, fun _ => rfl⟩
  | cons s ss =>
      exact ⟨fun _ => rfl, fun h => by cases h⟩

theorem declares_declared
    (f : Function) :
    Declares f (declared f) :=
  ⟨⟨rfl, rfl, rfl, rfl⟩, rfl, rfl, rfl, rfl⟩

theorem fulfils_implemented
    (hasImpl : Bool)
    {f : Function}
    (hvirtual : f.isVirtual = false)
    (hoverride : f.isOverride = false) :
    Fulfils hasImpl f (implemented hasImpl f) := by
  refine ⟨⟨rfl, rfl, rfl, rfl⟩, rfl, ?_, ?_, fillsBody_bodyOrRevert f.statements⟩
  · simp [implemented, hvirtual]
  · simp [implemented, hoverride]

theorem completes_bodyOrRevert
    (m : Modifier) :
    Completes m { m with statements := bodyOrRevert m.statements } :=
  ⟨rfl, rfl, rfl, rfl, fillsBody_bodyOrRevert m.statements⟩

/-! ## Whole contracts -/

/-- A contract none of whose functions is marked yet. -/
def IsUnmarked (c : Contract) : Prop :=
  ∀ f ∈ c.functions, f.isVirtual = false ∧ f.isOverride = false

instance (c : Contract) : Decidable (IsUnmarked c) :=
  inferInstanceAs (Decidable (∀ f ∈ c.functions, _))

/-- A contract split into an interface and a base implementation. -/
structure IsSplit (c : Contract) (user : UserFiles) (i : Interface) (b : Contract) : Prop where
  declared : List.Forall₂ Declares (c.functions.filter Function.isExposed) i.definitions.functions
  implemented : List.Forall₂ (Fulfils user.hasImpl) c.functions b.functions
  /-- The overriding functions are those of the interface. -/
  overriding : List.Forall₂ SameSignature
    i.definitions.functions (b.functions.filter Function.isOverride)
  completed : List.Forall₂ Completes c.definitions.modifiers b.definitions.modifiers
  bodies : (∀ f ∈ b.functions, f.statements ≠ []) ∧
    ∀ m ∈ b.definitions.modifiers, m.statements ≠ []
  /-- Apart from functions the interface has the structs and nothing else. -/
  interface : i.definitions =
    { functions := i.definitions.functions, structures := c.definitions.structures }
  /-- Apart from functions and modifiers the base implementation has the rest. -/
  base : b.definitions =
    { c.definitions with
      structures := []
      functions := b.functions
      modifiers := b.definitions.modifiers }
  fields : b.fields = c.fields
  interfaceName : i.name = ArtifactRole.generatedInterface.definitionName c.name
  interfaceParents : i.parents = user.interface.toList.map Interface.name
  baseName : b.name = ArtifactRole.generatedBaseImpl.definitionName c.name
  baseParents : b.parents = c.parents
  implements : b.implements = c.implements ++ [i.name]
  isAbstract : b.isAbstract = user.hasImpl

/-- Marking the exposed functions and then looking for the marks gives the exposed functions. -/
theorem filter_isOverride_implemented
    {functions : List Function}
    (h : ∀ f ∈ functions, f.isOverride = false)
    (hasImpl : Bool) :
    (functions.map (implemented hasImpl)).filter Function.isOverride =
      (functions.filter Function.isExposed).map (implemented hasImpl) := by
  rw [List.filter_map]
  congr 1
  refine List.filter_congr ?_
  intro f hf
  simp [implemented, h f hf]

/--
The generated files of a contract. One holds an interface beside the shared definitions, the other
one nothing but the base implementation, which imports it, and the two are a split of the contract.
-/
theorem contractFiles_split
    (unit : SourceUnit)
    {c : Contract}
    (hc : IsUnmarked c)
    (user : UserFiles)
    (shared : Option Definitions) :
    ∃ (interfaceFile baseFile : SourceUnit) (i : Interface) (b : Contract),
      contractFiles unit c user shared =
        .artifact .generatedInterface c.name interfaceFile.print ::
        .artifact .generatedBaseImpl c.name baseFile.print ::
        (implFile? unit c.name user).toList ∧
      interfaceFile.imports =
        unit.imports ++
          user.interface.toList.map (fun _ => ArtifactRole.userInterface.importPath c.name) ∧
      interfaceFile.definitions =
        { shared.getD {} with interfaces := (shared.getD {}).interfaces ++ [i] } ∧
      baseFile.imports = [ArtifactRole.generatedInterface.importPath c.name] ∧
      baseFile.definitions = { contracts := [b] } ∧
      IsSplit c user i b := by
  have hvirtual : ∀ f ∈ c.functions, f.isVirtual = false := fun f hf => (hc f hf).1
  have hoverride : ∀ f ∈ c.functions, f.isOverride = false := fun f hf => (hc f hf).2
  refine ⟨interfaceUnit unit c user.interface shared, baseUnit unit c user.hasImpl, _, _,
    rfl, rfl, rfl, rfl, rfl, ?_⟩
  refine
    { declared := ?_
      implemented := ?_
      overriding := ?_
      completed := ?_
      bodies := ⟨?_, ?_⟩
      interface := rfl
      base := rfl
      fields := rfl
      interfaceName := rfl
      interfaceParents := rfl
      baseName := rfl
      baseParents := rfl
      implements := rfl
      isAbstract := rfl }
  · rw [List.forall₂_map_right_iff, List.forall₂_same]
    intro f _
    exact declares_declared f
  · show List.Forall₂ _ c.functions (c.functions.map (implemented user.hasImpl))
    rw [List.forall₂_map_right_iff, List.forall₂_same]
    intro f hf
    exact fulfils_implemented user.hasImpl (hvirtual f hf) (hoverride f hf)
  · show List.Forall₂ _ _ ((c.functions.map (implemented user.hasImpl)).filter _)
    rw [filter_isOverride_implemented hoverride, List.forall₂_map_left_iff,
      List.forall₂_map_right_iff, List.forall₂_same]
    intro f _
    exact ⟨rfl, rfl, rfl, rfl⟩
  · rw [List.forall₂_map_right_iff, List.forall₂_same]
    intro m _
    exact completes_bodyOrRevert m
  · intro g hg
    obtain ⟨f, -, rfl⟩ := List.mem_map.mp hg
    exact (fillsBody_bodyOrRevert f.statements).ne_nil
  · intro n hn
    obtain ⟨m, -, rfl⟩ := List.mem_map.mp hn
    exact (fillsBody_bodyOrRevert m.statements).ne_nil

/-- A contract with functions of every visibility, and with empty and other bodies. -/
def vault : Contract :=
  { name := "Vault"
    fields := [{ name := "total", type := .named "uint" }]
    definitions :=
      { structures := [{ name := "Entry" }]
        functions :=
          [{ name := "deposit", mutability := some .payable, returns := [.named "bool"] },
            { name := "peek", visibility := .externally, statements := [.ret (some "total")] },
            { name := "audit", visibility := .internally },
            { name := "secret"
              visibility := .privately
              statements := [.expression "total = 0"] }]
        modifiers := [{ name := "onlyOwner" }] } }

theorem contractFiles_split_vault :
    IsUnmarked vault ∧
      ∃ (interfaceFile baseFile : SourceUnit) (i : Interface) (b : Contract),
        contractFiles default vault { interface := some default, hasImpl := true } none =
          [.artifact .generatedInterface "Vault" interfaceFile.print,
            .artifact .generatedBaseImpl "Vault" baseFile.print] ∧
        interfaceFile.definitions = { interfaces := [i] } ∧
        baseFile.definitions = { contracts := [b] } ∧
        IsSplit vault { interface := some default, hasImpl := true } i b := by
  have hunmarked : IsUnmarked vault := by
    decide
  obtain ⟨interfaceFile, baseFile, i, b, hfiles, -, hinterface, -, hbase, hsplit⟩ :=
    contractFiles_split default hunmarked { interface := some default, hasImpl := true } none
  exact ⟨hunmarked, interfaceFile, baseFile, i, b, hfiles, hinterface, hbase, hsplit⟩

end Gap
end Generation
end ContractGen
