import ContractGen.Behavior.Statechart
import ContractGen.Proofs.Forwarding
import ContractGen.Proofs.Placement

/-!
# What callers see of a contract with behaviour

Merging the behaviour of a diagram into a contract adds the functions of the diagram and then moves
statements between functions. For a caller no function that was there changes.

* `Behavior.map_head_forwardFunctions`: forwarding changes nothing but bodies.
* `Lowering.contractOf_adds`: a contract has the fields and functions of its structure, followed by
  those that its diagram is compiled to.
* `Lowering.map_head_contractOf`: what these functions are if the diagram is a state diagram.
-/

namespace ContractGen
namespace Behavior

open Target

/-- A function without its body. -/
def head (f : Function) : Function :=
  { f with statements := [] }

@[simp] theorem head_extended
    (statements : List Statement)
    (f : Function) :
    head (extended statements f) = head f := by
  rfl

theorem map_head_forwardBranches
    (operations : List Function)
    (index : Nat)
    (branches : List Branch) :
    (forwardBranches operations index branches).operations.map head = operations.map head := by
  rw [(forwardBranches_eq operations index branches).1]
  refine List.ext_getElem? ?_
  intro j
  simp [Function.comp_def]

theorem eq_append_of_splitAtDispatcher?
    {functions : List Function} {around : AroundDispatcher}
    (h : splitAtDispatcher? functions = some around) :
    functions = around.before ++ around.dispatcher :: around.after := by
  induction functions generalizing around with
  | nil =>
      cases h
  | cons f fs ih =>
      rw [splitAtDispatcher?] at h
      split at h
      · cases h
        rfl
      · obtain ⟨later, hlater, rfl⟩ := Option.map_eq_some_iff.mp h
        exact congrArg (f :: ·) (ih hlater)

/-- Forwarding changes nothing but bodies. -/
theorem map_head_forwardFunctions
    (functions : List Function) :
    (forwardFunctions functions).1.map head = functions.map head := by
  unfold forwardFunctions
  split
  · rfl
  · rename_i before dispatcher after hsplit
    split
    · rename_i branches otherwise hstatements
      -- The operations are those around the dispatcher, which goes back between them.
      have hoperations := map_head_forwardBranches (before ++ after) 0 branches
      have hbefore := congrArg (List.take before.length) hoperations
      have hafter := congrArg (List.drop before.length) hoperations
      simp only [← List.map_take, ← List.map_drop, List.take_left, List.drop_left] at hbefore hafter
      simp only [List.map_append, List.map_cons, hbefore, hafter]
      rw [eq_append_of_splitAtDispatcher? hsplit, List.map_append, List.map_cons]
      rfl
    · rfl

/-- The contract of a compiled diagram that goes into the contract of a given name. -/
def contractFor? (name : String) (compiled : Option Compiled) : Option Contract :=
  compiled.bind fun k => k.fragment.definitions.contracts.find? fun c => c.name = name

/-- A merge adds the fields and the functions of the diagram. -/
theorem mergeCompiled_adds
    (c : Contract)
    (compiled : Option Compiled) :
    (mergeCompiled c compiled).1.fields =
        c.fields ++ (contractFor? c.name compiled).toList.flatMap Contract.fields ∧
      (mergeCompiled c compiled).1.functions.map head =
        c.functions.map head ++
          ((contractFor? c.name compiled).toList.flatMap Contract.functions).map head := by
  cases compiled with
  | none =>
      simp [mergeCompiled, contractFor?]
  | some k =>
      cases hfind : k.fragment.definitions.contracts.find? fun s => s.name = c.name with
      | none =>
          simp [mergeCompiled, splice?, contractFor?, hfind]
      | some s =>
          have hfunctions := map_head_forwardFunctions
            (c.definitions.functions ++ s.definitions.functions)
          rw [List.map_append] at hfunctions
          simpa [mergeCompiled, splice?, contractFor?, hfind, forwardDispatch, Contract.functions]
            using hfunctions

theorem compileFile_cases
    {d : Files.Disk} {path contract : String} {compiled : Option Compiled}
    (h : compileFile d path contract = .ok compiled) :
    compiled = none ∨ ∃ chart : Statechart, compiled = some (chart.compile contract) := by
  unfold compileFile at h
  split at h
  · split at h
    · cases h
    · split at h
      · cases h
      · cases h
        exact Or.inr ⟨_, rfl⟩
  · cases h
    exact Or.inl rfl

end Behavior

namespace Lowering

open Behavior Target

/-- The contract that the diagram of a structure is compiled to, if there is one. -/
def diagramContract? (around : Surroundings) (s : Domain.Structure) : Option Contract := do
  let diagram ← diagram? s
  let compiler ← around.compiler
  let compiled ← (compiler.compile (Path.join around.source.folder diagram) s.name).toOption
  contractFor? s.name compiled

/-- A contract has what its structure has, followed by what its diagram has. -/
theorem contractOf_adds
    (around : Surroundings)
    (s : Domain.Structure) :
    (contractOf around s).fields =
        (contract s).fields ++ (diagramContract? around s).toList.flatMap Contract.fields ∧
      (contractOf around s).functions.map head =
        (contract s).functions.map head ++
          ((diagramContract? around s).toList.flatMap Contract.functions).map head := by
  cases hdiagram : diagram? s with
  | none =>
      simp [contractOf, contractResponse, diagramContract?, hdiagram]
  | some diagram =>
      cases hcompiler : around.compiler with
      | none =>
          simp [contractOf, contractResponse, addBehavior, diagramContract?, hdiagram, hcompiler]
      | some compiler =>
          cases hcompile : compiler.compile (Path.join around.source.folder diagram) s.name with
          | error f =>
              have hmerge : mergeBehavior compiler (contract s)
                  (Path.join around.source.folder diagram) = .error f := by
                rw [mergeBehavior, show (contract s).name = s.name from rfl, hcompile]
                rfl
              simp [contractOf, contractResponse, addBehavior, diagramContract?, hdiagram,
                hcompiler, hcompile, hmerge, Except.toOption]
          | ok compiled =>
              have hcontract : contractOf around s = (mergeCompiled (contract s) compiled).1 := by
                simp only [contractOf, contractResponse, hdiagram, addBehavior, hcompiler,
                  mergeBehavior, show (contract s).name = s.name from rfl, hcompile]
                rfl
              have hadded : diagramContract? around s = contractFor? s.name compiled := by
                simp [diagramContract?, hdiagram, hcompiler, hcompile, Except.toOption]
              rw [hcontract, hadded]
              exact mergeCompiled_adds (contract s) compiled

/-- What a state diagram adds to a contract. -/
def diagramHeads (chart? : Option Statechart) : List Function :=
  chart?.toList.flatMap fun chart => [head chart.dispatcher, head comparisonFunction]

theorem diagramContract?_cases
    {around : Surroundings} {diagrams : Option Files.Disk}
    (h : around.compiler = diagrams.map Compiler.onDisk)
    (s : Domain.Structure) :
    ∃ chart?,
      ((diagramContract? around s).toList.flatMap Contract.functions).map head =
        diagramHeads chart? := by
  cases hadded : diagramContract? around s with
  | none =>
      exact ⟨none, rfl⟩
  | some added =>
      obtain ⟨diagram, -, hadded⟩ := Option.bind_eq_some_iff.mp hadded
      obtain ⟨compiler, hcompiler, hadded⟩ := Option.bind_eq_some_iff.mp hadded
      obtain ⟨compiled, hcompiled, hadded⟩ := Option.bind_eq_some_iff.mp hadded
      rw [h] at hcompiler
      obtain ⟨disk, -, rfl⟩ := Option.map_eq_some_iff.mp hcompiler
      cases hfile : compileFile disk (Path.join around.source.folder diagram) s.name with
      | error f =>
          simp [Compiler.onDisk, hfile, Except.toOption] at hcompiled
      | ok result =>
          obtain rfl : result = compiled := by
            simpa [Compiler.onDisk, hfile, Except.toOption] using hcompiled
          rcases compileFile_cases hfile with rfl | ⟨chart, rfl⟩
          · cases hadded
          · simp only [contractFor?, Statechart.compile, Option.bind_some, List.find?_cons,
              decide_true] at hadded
            cases hadded
            exact ⟨some chart, rfl⟩

/-- The functions of a contract are those of its structure, and those of its diagram. -/
theorem map_head_contractOf
    {around : Surroundings} {diagrams : Option Files.Disk}
    (h : around.compiler = diagrams.map Compiler.onDisk)
    (s : Domain.Structure) :
    ∃ chart?,
      (contractOf around s).functions.map head =
        (contract s).functions.map head ++ diagramHeads chart? := by
  obtain ⟨chart?, hchart⟩ := diagramContract?_cases h s
  exact ⟨chart?, by rw [(contractOf_adds around s).2, hchart]⟩

end Lowering
end ContractGen
