import ContractGen.Lowering.Handler
import ContractGen.Proofs.ForwardedFunctions

/-!
# What a merge leaves and what it says

A merge of behaviour into a contract happens as a whole or not at all. If there is nothing to merge,
the contract stays as it is. The merge of a diagram adds one field and two functions, adds statements
to the ends of other functions, and changes nothing else; and since the condition of every transition
looks at the input, what is said about the branches covers every transition.

* `occursIn_inputMark`: the condition of a transition looks at the input, whatever it is.
* `mergeBehavior_chart`: the merge of a diagram, in terms of forwarding.
* `forwardFunctions_chart`: what becomes of the functions.
* `mergeBehavior_accounts`: merging, in all cases.
-/

namespace ContractGen
namespace Text

theorem isSome_dropStart?_append
    (start text : List Char) :
    (dropStart? start (start ++ text)).isSome = true := by
  induction start with
  | nil =>
      rfl
  | cons c start ih =>
      simpa [dropStart?] using ih

/-- A part of a text occurs in it. -/
theorem occursIn_of_infix
    {part text : String}
    (h : part.toList <:+: text.toList) :
    occursIn part text = true := by
  obtain ⟨before, after, htext⟩ := h
  rw [occursIn, ← htext, List.append_assoc]
  clear htext
  induction before with
  | nil =>
      have hstart := isSome_dropStart?_append part.toList after
      rw [List.nil_append]
      cases hall : part.toList ++ after with
      | nil =>
          rw [(List.append_eq_nil_iff.mp hall).1]
          rfl
      | cons c cs =>
          rw [hall] at hstart
          obtain ⟨rest, hrest⟩ := Option.isSome_iff_exists.mp hstart
          simp [splitOnce?, hrest]
  | cons c before ih =>
      rw [List.cons_append, splitOnce?]
      split
      · rfl
      · rw [Option.isSome_map]
        exact ih

end Text

namespace Behavior

open Lowering Target

/-! ## Transitions look at the input -/

/-- Whatever the trigger and the guard are, the condition of a transition looks at the input. -/
theorem occursIn_inputMark
    (t : Transition) :
    Text.occursIn inputMark t.condition = true := by
  obtain ⟨guard, hcondition⟩ : ∃ guard, t.condition =
      comparison stateField t.source ++ " && " ++ comparison "input" t.trigger ++ guard :=
    ⟨_, rfl⟩
  have hmark : inputMark = "isEqual" ++ "(" ++ "input" := by
    rfl
  have hinput : comparison "input" t.trigger = inputMark ++ (", " ++ quoted t.trigger ++ ")") := by
    simp only [comparison, comparisonName, hmark, String.append_assoc]
  refine Text.occursIn_of_infix ⟨(comparison stateField t.source ++ " && ").toList,
    (", " ++ quoted t.trigger ++ ")" ++ guard).toList, ?_⟩
  simp only [hcondition, hinput, String.toList_append, List.append_assoc]

theorem countP_branches
    (chart : Statechart) :
    chart.branches.countP (fun b => Text.occursIn inputMark b.condition) =
      chart.transitions.length := by
  rw [Statechart.branches, List.countP_map, List.countP_eq_length]
  intro t _
  exact occursIn_inputMark t

/-! ## The functions of a merged contract -/

/-- Whether a function is another one with statements added at its end. -/
def Lengthens (f g : Function) : Prop :=
  ∃ added, g = extended added f

/-- Every function keeps its name and statements and may get more of them at the end. -/
theorem forall₂_lengthens_mapIdx
    (added : Nat → List Statement)
    (functions : List Function) :
    List.Forall₂ Lengthens functions (functions.mapIdx fun j f => extended (added j) f) := by
  induction functions generalizing added with
  | nil =>
      exact .nil
  | cons f fs ih =>
      rw [List.mapIdx_cons]
      exact .cons ⟨added 0, rfl⟩ (ih fun j => added (j + 1))

/--
The functions of a contract after the merge of a diagram: its own, the dispatcher and the function
that compares strings. The dispatcher has a branch for each transition.
-/
def Merges (chart : Statechart) (before after : List Function) : Prop :=
  ∃ own dispatcher comparison branches,
    after = own ++ [dispatcher, comparison] ∧
    List.Forall₂ Lengthens before own ∧
    dispatcher =
      { chart.dispatcher with
        statements := [.conditional branches (some [.revert invalidTransition])] } ∧
    branches.map Branch.condition = chart.transitions.map Transition.condition ∧
    Lengthens comparisonFunction comparison

theorem condition_callingBranch
    (functions : List Function)
    (d : Nat)
    (b : Branch) :
    (callingBranch functions d b).condition = b.condition := by
  unfold callingBranch
  split <;> rfl

theorem Merges.map_name
    {chart : Statechart} {before after : List Function}
    (h : Merges chart before after) :
    after.map Function.name = before.map Function.name ++ ["handle", "isEqual"] := by
  obtain ⟨own, dispatcher, comparison, branches, rfl, hown, rfl, -, added, rfl⟩ := h
  have hnames : own.map Function.name = before.map Function.name := by
    induction hown with
    | nil =>
        rfl
    | cons hf _ ih =>
        obtain ⟨added', rfl⟩ := hf
        simp [ih]
  rw [List.map_append, hnames]
  rfl

/-- The dispatcher stands where it stood, and every other function has statements added. -/
theorem forwardedFunctions_append
    (before : List Function)
    (dispatcher : Function)
    (after : List Function)
    (branches : List Branch)
    (otherwise : Option (List Statement)) :
    ∃ added addedAfter : Nat → List Statement,
      forwardedFunctions (before ++ dispatcher :: after) before.length branches otherwise =
        before.mapIdx (fun j f => extended (added j) f) ++
          { dispatcher with
            statements :=
              [.conditional
                (branches.map (callingBranch (before ++ dispatcher :: after) before.length))
                otherwise] } ::
          after.mapIdx fun j f => extended (addedAfter j) f := by
  let added (j : Nat) : List Statement :=
    (branchesFor (before ++ dispatcher :: after) before.length branches j).flatMap
      Branch.statements
  refine ⟨added, fun j => added (j + 1 + before.length), ?_⟩
  rw [forwardedFunctions, List.mapIdx_append, List.mapIdx_cons]
  congr 1
  · refine List.ext_getElem? ?_
    intro j
    by_cases hj : j < before.length
    · simp [hj, Nat.ne_of_lt hj, added]
    · simp [List.getElem?_eq_none (Nat.le_of_not_lt hj)]
  · congr 1
    · simp
    · refine List.mapIdx_eq_mapIdx_iff.mpr ?_
      intro j _
      rw [if_neg (by omega)]

/-- What becomes of the functions of a contract, and what is said about the branches. -/
theorem forwardFunctions_chart
    (chart : Statechart)
    {own : List Function}
    (hown : ∀ f ∈ own, f.name ≠ dispatcherName) :
    ∃ functions report,
      forwardFunctions (own ++ [chart.dispatcher, comparisonFunction]) = (functions, report) ∧
      Merges chart own functions ∧
      report.dispatcherFound = true ∧
      report.forwarded.length + report.staying.length = chart.transitions.length := by
  have haround := forwardFunctions_around own chart.dispatcher [comparisonFunction] hown rfl
    (show chart.dispatcher.statements =
      [.conditional chart.branches (some [.revert invalidTransition])] from rfl)
  obtain ⟨added, addedAfter, hfunctions⟩ := forwardedFunctions_append own chart.dispatcher
    [comparisonFunction] chart.branches (some [.revert invalidTransition])
  refine ⟨_, _, haround, ?_, rfl, ?_⟩
  · refine ⟨_, _, _, _, hfunctions, forall₂_lengthens_mapIdx added own, rfl, ?_,
      addedAfter 0, rfl⟩
    simp [Statechart.branches, condition_callingBranch, Function.comp_def]
  · rw [← countP_branches chart]
    exact length_reports _ _ _

/-- The merge of a diagram adds its field and its functions, and then forwards. -/
theorem mergeCompiled_chart
    (chart : Statechart)
    {k : Contract} {functions : List Function} {report : DispatchReport}
    (h : forwardFunctions (k.definitions.functions ++ [chart.dispatcher, comparisonFunction]) =
      (functions, report)) :
    mergeCompiled k (some (chart.compile k.name)) =
      ({ k with
          fields := k.fields ++ [chart.field]
          definitions := { k.definitions with functions } },
        .merged chart.transitions report) := by
  simp [mergeCompiled, splice?, Statechart.compile, forwardDispatch, h]

theorem mergeBehavior_of_compile
    {compiler : Compiler} {k : Contract} {diagram : String} {compiled : Option Compiled}
    (h : compiler.compile diagram k.name = .ok compiled) :
    mergeBehavior compiler k diagram =
      .ok ((mergeCompiled k compiled).1,
        { contract := k.name, diagram, outcome := (mergeCompiled k compiled).2 }) :=
  bind_eq_ok_iff.mpr ⟨compiled, h, rfl⟩

theorem mergeBehavior_of_failure
    {compiler : Compiler} {k : Contract} {diagram : String} {f : Failure}
    (h : compiler.compile diagram k.name = .error f) :
    mergeBehavior compiler k diagram = .error f := by
  rw [mergeBehavior, h]
  rfl

/-- Where the fragment has no contract of that name, nothing is merged. -/
theorem mergeCompiled_of_absent
    {k : Contract} {compiled : Compiled}
    (h : ∀ s ∈ compiled.fragment.definitions.contracts, s.name ≠ k.name) :
    mergeCompiled k (some compiled) = (k, .noMatchingContract) := by
  have hfind : compiled.fragment.definitions.contracts.find? (fun s => s.name = k.name) = none := by
    simpa using h
  simp [mergeCompiled, splice?, hfind]

/-! ## Merging in all cases -/

/--
Merging is all or nothing. If the compiler fails, the merge fails with it and whoever asked for the
merge keeps the contract; if there is no diagram, or no contract of the name in the fragment, the
contract is handed back. The merge of a diagram into a contract without a dispatcher always succeeds:
one field and two functions are added, other functions receive statements at their ends, all else is
as it was, and the report covers every transition once.
-/
theorem mergeBehavior_accounts
    (compiler : Compiler)
    (k : Contract)
    (diagram : String) :
    (∀ f, compiler.compile diagram k.name = .error f →
      mergeBehavior compiler k diagram = .error f ∧
      ∀ (around : Surroundings) (file : String),
        around.compiler = some compiler → Path.join around.source.folder file = diagram →
        (addBehavior around k file).output = some { node := .contract k } ∧
        (addBehavior around k file).merges = []) ∧
    (compiler.compile diagram k.name = .ok none →
      mergeBehavior compiler k diagram =
        .ok (k, { contract := k.name, diagram, outcome := .diagramMissing })) ∧
    (∀ compiled, compiler.compile diagram k.name = .ok (some compiled) →
      (∀ s ∈ compiled.fragment.definitions.contracts, s.name ≠ k.name) →
      mergeBehavior compiler k diagram =
        .ok (k, { contract := k.name, diagram, outcome := .noMatchingContract })) ∧
    ∀ chart : Statechart,
      compiler.compile diagram k.name = .ok (some (chart.compile k.name)) →
      (∀ f ∈ k.definitions.functions, f.name ≠ "handle") →
      ∃ functions report,
        mergeBehavior compiler k diagram =
          .ok ({ k with
                  fields := k.fields ++ [chart.field]
                  definitions := { k.definitions with functions } },
            { contract := k.name, diagram, outcome := .merged chart.transitions report }) ∧
        chart.field.name = "currentState" ∧
        Merges chart k.definitions.functions functions ∧
        functions.map Function.name =
          k.definitions.functions.map Function.name ++ ["handle", "isEqual"] ∧
        report.dispatcherFound = true ∧
        report.forwarded.length + report.staying.length = chart.transitions.length := by
  refine ⟨?_, ?_, ?_, ?_⟩
  · intro f hfails
    have hmerge := mergeBehavior_of_failure hfails
    refine ⟨hmerge, ?_⟩
    rintro around file hcompiler rfl
    simp [addBehavior, hcompiler, hmerge]
  · intro hmissing
    exact mergeBehavior_of_compile hmissing
  · intro compiled hcompile habsent
    rw [mergeBehavior_of_compile hcompile, mergeCompiled_of_absent habsent]
  · intro chart hcompile hown
    obtain ⟨functions, report, hforward, hmerges, hfound, hcount⟩ :=
      forwardFunctions_chart chart hown
    refine ⟨functions, report, ?_, rfl, hmerges, hmerges.map_name, hfound, hcount⟩
    rw [mergeBehavior_of_compile hcompile, mergeCompiled_chart chart hforward]

/-- Transitions with a guard that looks like a trigger, with an unknown trigger, and with none. -/
def oddTriggers : Statechart :=
  { initial := some "A"
    transitions :=
      [{ source := "A", target := "B", trigger := "go", guard := some "isEqual(input, \"stop\")" },
        { source := "B", target := "A", trigger := "stop", action := some "count += 1" },
        { source := "B", target := "B", trigger := "no name" }] }

/-- A contract with an operation that has statements already. -/
def busyContract : Contract :=
  { name := "C"
    fields := [{ name := "count", type := .named "uint" }]
    definitions :=
      { functions := [{ name := "stop", statements := [.expression "old"] }, { name := "go" }]
        enumerations := [{ name := "Phase", values := ["Open"] }] } }

/-- A compiler that always gives the same answer. -/
def answering (answer : Except Failure (Option Compiled)) : Compiler where
  name := "fixed"
  compile := fun _ _ => answer

theorem mergeBehavior_accounts_oddTriggers :
    mergeBehavior (answering (.error (.because "bad"))) busyContract "c.puml" =
        .error (.because "bad") ∧
      mergeBehavior (answering (.ok none)) busyContract "c.puml" =
        .ok (busyContract, { contract := "C", diagram := "c.puml", outcome := .diagramMissing }) ∧
      mergeBehavior (answering (.ok (some (oddTriggers.compile "D")))) busyContract "c.puml" =
        .ok (busyContract,
          { contract := "C", diagram := "c.puml", outcome := .noMatchingContract }) ∧
      ∃ functions report,
        mergeBehavior oddTriggers.compiler busyContract "c.puml" =
          .ok ({ busyContract with
                  fields := busyContract.fields ++ [oddTriggers.field]
                  definitions := { busyContract.definitions with functions } },
            { contract := "C", diagram := "c.puml",
              outcome := .merged oddTriggers.transitions report }) ∧
        functions.map Function.name = ["stop", "go", "handle", "isEqual"] ∧
        report.forwarded.length + report.staying.length = 3 := by
  have hfails := (mergeBehavior_accounts (answering (.error (.because "bad"))) busyContract
    "c.puml").1 (.because "bad") rfl
  have hmissing := (mergeBehavior_accounts (answering (.ok none)) busyContract "c.puml").2.1 rfl
  have habsent := (mergeBehavior_accounts (answering (.ok (some (oddTriggers.compile "D"))))
    busyContract "c.puml").2.2.1 (oddTriggers.compile "D") rfl (by decide)
  obtain ⟨functions, report, hmerge, -, -, hnames, -, hcount⟩ :=
    (mergeBehavior_accounts oddTriggers.compiler busyContract "c.puml").2.2.2 oddTriggers rfl
      (by decide)
  exact ⟨hfails.1, hmissing, habsent, functions, report, hmerge, hnames, hcount⟩

end Behavior
end ContractGen
