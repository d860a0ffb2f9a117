import ContractGen.Behavior.Merge
import ContractGen.Behavior.Statechart
import ContractGen.Proofs.Forwarding

/-!
# What a transition does after a merge

Merging a diagram into a contract turns the branch of a transition into a call, and the body of the
transition becomes a part of the operation that is called. Replacing the call by the statements of
that operation shows what the branch does afterwards: whatever the operation did before, and then
the bodies of all transitions that go to it. This is the body of the transition alone exactly if no
other transition goes there and the operation was empty.
-/

namespace ContractGen
namespace Behavior

open Target

/-! ## Calls replaced by what they call -/

/-- Statements with each call replaced by the statements of the first function of that name. -/
def inlineCalls (functions : List Function) (statements : List Statement) : List Statement :=
  statements.flatMap fun s =>
    match s with
    | .call name arguments =>
      match functions.find? fun f => f.name = name with
      | some f => f.statements
      | none => [.call name arguments]
    | s => [s]

theorem inlineCalls_body
    (functions : List Function)
    (t : Transition) :
    inlineCalls functions t.body = t.body := by
  unfold inlineCalls Transition.body
  cases t.action <;> rfl

theorem inlineCalls_callWith
    {functions : List Function} {name : String} {f : Function}
    (h : functions.find? (fun f => f.name = name) = some f)
    (arguments : Option String) :
    inlineCalls functions [.callWith name arguments] = f.statements := by
  simp [inlineCalls, Statement.callWith, h]

theorem find?_eq_getElem?
    {operations : List Function} {name : String} {j : Nat}
    (h : position? operations name = some j) :
    operations.find? (fun f => f.name = name) = operations[j]? := by
  obtain ⟨hj, hname, hfirst⟩ := List.findIdx?_eq_some_iff_getElem.mp h
  rw [List.getElem?_eq_getElem hj, List.find?_eq_some_iff_getElem]
  exact ⟨hname, j, hj, rfl, fun i hi => by simpa using hfirst i hi⟩

/-! ## The functions of a merged contract -/

theorem splitAtDispatcher?_append
    {before : List Function}
    (hbefore : ∀ f ∈ before, f.name ≠ dispatcherName)
    {dispatcher : Function}
    (hname : dispatcher.name = dispatcherName)
    (after : List Function) :
    splitAtDispatcher? (before ++ dispatcher :: after) =
      some { before, dispatcher, after } := by
  induction before with
  | nil =>
      simp [splitAtDispatcher?, hname]
  | cons f fs ih =>
      have hf : f.name ≠ dispatcherName := hbefore f (by simp)
      have hfs := ih fun g hg => hbefore g (by simp [hg])
      simp [splitAtDispatcher?, hf, hfs]

/-- The operations that the dispatcher of a merged contract can forward to. -/
def forwardable (k : Contract) : List Function :=
  k.definitions.functions ++ [comparisonFunction]

/-- The branches of a diagram, one for each transition. -/
def Statechart.branches (chart : Statechart) : List Branch :=
  chart.transitions.map fun t => ⟨t.condition, t.body⟩

/-- The operations after a merge. -/
def operationsAfter (chart : Statechart) (k : Contract) : List Function :=
  (forwardable k).mapIdx fun j f => extended (delivered (forwardable k) chart.branches j) f

/-- The dispatcher after a merge. -/
def dispatcherAfter (chart : Statechart) (k : Contract) : Function :=
  { chart.dispatcher with
    statements :=
      [.conditional (chart.branches.map (redirected (forwardable k)))
        (some [.revert invalidTransition])] }

/-- The functions of a contract after a merge. -/
def functionsAfter (chart : Statechart) (k : Contract) : List Function :=
  (operationsAfter chart k).take k.definitions.functions.length ++
    dispatcherAfter chart k :: (operationsAfter chart k).drop k.definitions.functions.length

theorem mergeBehavior_compiled
    (chart : Statechart)
    {k : Contract}
    (hhandle : ∀ f ∈ k.definitions.functions, f.name ≠ dispatcherName)
    {compiler : Compiler} {diagram : String}
    (hcompile : compiler.compile diagram k.name = .ok (some (chart.compile k.name))) :
    ∃ k' report,
      mergeBehavior compiler k diagram = .ok (k', report) ∧
      k'.definitions.functions = functionsAfter chart k := by
  have hsplit := splitAtDispatcher?_append hhandle
    (show chart.dispatcher.name = dispatcherName from rfl) [comparisonFunction]
  obtain ⟨hops, hbranches⟩ := forwardBranches_eq (forwardable k) 0 chart.branches
  refine ⟨_, _, bind_eq_ok_iff.mpr ⟨_, hcompile, rfl⟩, ?_⟩
  have hfunctions :
      (forwardFunctions (k.definitions.functions ++ [chart.dispatcher, comparisonFunction])).1 =
        functionsAfter chart k := by
    unfold forwardFunctions
    rw [hsplit]
    simp only [functionsAfter, operationsAfter, dispatcherAfter, ← hops, ← hbranches]
    rfl
  simpa [mergeCompiled, splice?, Statechart.compile, forwardDispatch] using hfunctions

/-- The function that a call of an operation finds is the operation after the merge. -/
theorem find?_merged
    (chart : Statechart)
    {k : Contract}
    (hhandle : ∀ f ∈ k.definitions.functions, f.name ≠ dispatcherName)
    {name : String} {j : Nat}
    (hposition : position? (forwardable k) name = some j) :
    (functionsAfter chart k).find? (fun f => f.name = name) = (operationsAfter chart k)[j]? := by
  have hforwardable : ∀ f ∈ forwardable k, f.name ≠ dispatcherName := by
    intro f hf
    rcases List.mem_append.mp hf with hf | hf
    · exact hhandle f hf
    · rw [List.mem_singleton.mp hf]
      decide
  have hname : name ≠ dispatcherName := by
    obtain ⟨hj, hfound, -⟩ := List.findIdx?_eq_some_iff_getElem.mp hposition
    rw [← of_decide_eq_true hfound]
    exact hforwardable _ (List.getElem_mem hj)
  have hnames :
      (operationsAfter chart k).map Function.name = (forwardable k).map Function.name := by
    refine List.ext_getElem? ?_
    intro i
    simp [operationsAfter, Function.comp_def]
  -- The dispatcher has another name, so the search passes over it.
  have hdispatcher : (dispatcherAfter chart k).name ≠ name := by
    intro h
    exact hname h.symm
  rw [functionsAfter, List.find?_append, List.find?_cons, decide_eq_false hdispatcher,
    ← List.find?_append, List.take_append_drop]
  exact find?_eq_getElem? ((position?_congr hnames name).trans hposition)

/-- The dispatcher that the merge leaves is the first function of its name. -/
theorem find?_dispatcher
    (chart : Statechart)
    {k : Contract}
    (hhandle : ∀ f ∈ k.definitions.functions, f.name ≠ dispatcherName) :
    (functionsAfter chart k).find? (fun f => f.name = dispatcherName) =
      some (dispatcherAfter chart k) := by
  have htake :
      (operationsAfter chart k).take k.definitions.functions.length =
        k.definitions.functions.mapIdx fun j f =>
          extended (delivered (forwardable k) chart.branches j) f := by
    simp [operationsAfter, forwardable, List.mapIdx_append]
  have hnone :
      (k.definitions.functions.mapIdx fun j f =>
          extended (delivered (forwardable k) chart.branches j) f).find?
        (fun f => f.name = dispatcherName) = none := by
    rw [List.find?_eq_none]
    intro g hg
    obtain ⟨i, hi, rfl⟩ := List.mem_mapIdx.mp hg
    simpa using hhandle _ (List.getElem_mem hi)
  rw [functionsAfter, List.find?_append, htake, hnone, Option.none_or, List.find?_cons_of_pos]
  rfl

/-! ## What a branch does -/

theorem one_le_length_body
    (t : Transition) :
    1 ≤ t.body.length := by
  simp [Transition.body]

theorem flatMap_body_eq_nil_iff
    {ts : List Transition} :
    ts.flatMap Transition.body = [] ↔ ts = [] := by
  cases ts with
  | nil =>
      simp
  | cons t ts =>
      have hbody : t.body ≠ [] := List.length_pos_iff.mp (one_le_length_body t)
      simp [hbody]

/-- Own statements and selected bodies are one body if there are no other ones. -/
theorem append_flatMap_body_eq_iff
    {own : List Statement} {before after : List Transition} {t : Transition} :
    own ++ (before ++ t :: after).flatMap Transition.body = t.body ↔
      own = [] ∧ before = [] ∧ after = [] := by
  constructor
  · intro h
    have hlength := congrArg List.length h
    simp only [List.flatMap_append, List.flatMap_cons, List.length_append] at hlength
    refine ⟨List.length_eq_zero_iff.mp (by omega), ?_, ?_⟩
    · exact flatMap_body_eq_nil_iff.mp (List.length_eq_zero_iff.mp (by omega))
    · exact flatMap_body_eq_nil_iff.mp (List.length_eq_zero_iff.mp (by omega))
  · rintro ⟨rfl, rfl, rfl⟩
    simp

/-- Whether a selection from a list takes one position only. -/
theorem filter_split_iff
    {α : Type}
    (select : α → Bool)
    (xs : List α)
    (i : Nat) :
    ((xs.take i).filter select = [] ∧ (xs.drop (i + 1)).filter select = []) ↔
      ∀ i' x', xs[i']? = some x' → select x' = true → i' = i := by
  simp only [List.filter_eq_nil_iff]
  constructor
  · rintro ⟨hbefore, hafter⟩ i' x' hx' hselect
    rcases Nat.lt_trichotomy i' i with hlt | heq | hgt
    · have hmem : x' ∈ xs.take i := by
        rw [List.mem_iff_getElem?]
        exact ⟨i', by rw [List.getElem?_take_of_lt hlt, hx']⟩
      exact absurd hselect (hbefore x' hmem)
    · exact heq
    · have hmem : x' ∈ xs.drop (i + 1) := by
        rw [List.mem_iff_getElem?]
        refine ⟨i' - (i + 1), ?_⟩
        rw [List.getElem?_drop, show i + 1 + (i' - (i + 1)) = i' by omega, hx']
      exact absurd hselect (hafter x' hmem)
  · intro honly
    constructor
    · intro x' hmem hselect
      obtain ⟨i', hi'⟩ := List.mem_iff_getElem?.mp hmem
      by_cases hlt : i' < i
      · rw [List.getElem?_take_of_lt hlt] at hi'
        have heq := honly i' x' hi' hselect
        omega
      · rw [List.getElem?_take_eq_none (by omega)] at hi'
        cases hi'
    · intro x' hmem hselect
      obtain ⟨i', hi'⟩ := List.mem_iff_getElem?.mp hmem
      rw [List.getElem?_drop] at hi'
      have heq := honly _ x' hi' hselect
      omega

/-- The transitions of a diagram that go to an operation. -/
def Statechart.sentTo (chart : Statechart) (operations : List Function) (j : Nat) :
    List Transition :=
  chart.transitions.filter fun t => receiver? operations t.condition = some j

/-- What an operation gets are the bodies of the transitions sent to it, in order. -/
theorem delivered_branches
    (chart : Statechart)
    (operations : List Function)
    (j : Nat) :
    delivered operations chart.branches j =
      (chart.sentTo operations j).flatMap Transition.body := by
  simp [delivered, Statechart.branches, Statechart.sentTo, List.filter_map, List.flatMap_map,
    Function.comp_def]

/--
What the branch of a transition does after a merge: the body of the transition if it goes nowhere,
else what the operation that it goes to did before, followed by the bodies of all transitions that
go there.
-/
def Statechart.effect (chart : Statechart) (operations : List Function) (t : Transition) :
    List Statement :=
  match receiver? operations t.condition with
  | none => t.body
  | some j =>
    (operations[j]?.map Function.statements).getD [] ++
      (chart.sentTo operations j).flatMap Transition.body

theorem effect_eq_body_iff
    {chart : Statechart} {operations : List Function} {i : Nat} {t : Transition}
    (ht : chart.transitions[i]? = some t) :
    chart.effect operations t = t.body ↔
      ∀ j, receiver? operations t.condition = some j →
        (operations[j]?.map Function.statements).getD [] = [] ∧
        ∀ i' t', chart.transitions[i']? = some t' →
          receiver? operations t'.condition = some j → i' = i := by
  unfold Statechart.effect
  cases hreceiver : receiver? operations t.condition with
  | none =>
      simp
  | some j =>
      have hsplit :
          chart.sentTo operations j =
            (chart.transitions.take i).filter
                (fun t => receiver? operations t.condition = some j) ++
              t :: (chart.transitions.drop (i + 1)).filter
                (fun t => receiver? operations t.condition = some j) := by
        obtain ⟨hi, rfl⟩ := List.getElem?_eq_some_iff.mp ht
        have hlist := List.take_append_drop i chart.transitions
        rw [List.drop_eq_getElem_cons hi] at hlist
        have hfilter := congrArg
          (List.filter fun t => receiver? operations t.condition = some j) hlist
        rw [List.filter_append, List.filter_cons_of_pos (by simp [hreceiver])] at hfilter
        exact hfilter.symm
      have honly :=
        filter_split_iff (fun t => receiver? operations t.condition = some j) chart.transitions i
      simp only [hsplit, append_flatMap_body_eq_iff, honly, Option.some.injEq, decide_eq_true_eq,
        forall_eq']

theorem inlineCalls_redirected
    (chart : Statechart)
    {k : Contract}
    (hhandle : ∀ f ∈ k.definitions.functions, f.name ≠ dispatcherName)
    (t : Transition) :
    inlineCalls (functionsAfter chart k)
        (redirected (forwardable k) ⟨t.condition, t.body⟩).statements =
      chart.effect (forwardable k) t := by
  unfold redirected Statechart.effect receiver?
  cases hroute : routeOf t.condition with
  | unrelated =>
      exact inlineCalls_body _ t
  | nameless =>
      exact inlineCalls_body _ t
  | towards target =>
      cases hposition : position? (forwardable k) target.name with
      | none =>
          simpa [hposition] using inlineCalls_body (functionsAfter chart k) t
      | some j =>
          obtain ⟨hj, -, -⟩ := List.findIdx?_eq_some_iff_getElem.mp hposition
          have hafter :
              (operationsAfter chart k)[j]? =
                some
                  (extended (delivered (forwardable k) chart.branches j) (forwardable k)[j]) := by
            simp [operationsAfter, List.getElem?_eq_getElem hj]
          have hfound := find?_merged chart hhandle hposition
          rw [hafter] at hfound
          simp only [hposition, inlineCalls_callWith hfound, extended_statements,
            delivered_branches, List.getElem?_eq_getElem hj, Option.map_some, Option.getD_some]

/-- The operations of a contract come first, and the function after them is not empty. -/
theorem forwardable_empty_iff
    {k : Contract}
    (hempty : ∀ f ∈ k.definitions.functions, f.statements = [])
    {condition : String} {j : Nat}
    (h : receiver? (forwardable k) condition = some j) :
    ((forwardable k)[j]?.map Function.statements).getD [] = [] ↔
      j < k.definitions.functions.length := by
  have hj : j < (forwardable k).length := by
    unfold receiver? at h
    split at h
    · obtain ⟨hj, -, -⟩ := List.findIdx?_eq_some_iff_getElem.mp h
      exact hj
    · cases h
  by_cases hlt : j < k.definitions.functions.length
  · have hown := hempty _ (List.getElem_mem hlt)
    simp [forwardable, List.getElem?_append_left hlt, hlt, hown]
  · have heq : j = k.definitions.functions.length := by
      simp only [forwardable, List.length_append, List.length_singleton] at hj
      omega
    subst heq
    simp [forwardable, comparisonFunction]

/--
The dispatch rewrite. After a merge the dispatcher has one branch for each transition, in order.
With the call of an operation replaced by the statements of that operation, the branch has the
effect of its transition. This is the body of the transition alone exactly if the branch goes
nowhere, or if it goes to an operation of the contract and no other transition does.
-/
theorem merge_effect
    (chart : Statechart)
    {k : Contract}
    (hhandle : ∀ f ∈ k.definitions.functions, f.name ≠ dispatcherName)
    (hempty : ∀ f ∈ k.definitions.functions, f.statements = [])
    {compiler : Compiler} {diagram : String}
    (hcompile : compiler.compile diagram k.name = .ok (some (chart.compile k.name))) :
    ∃ k' report,
      mergeBehavior compiler k diagram = .ok (k', report) ∧
      ∃ dispatcher branches otherwise,
        k'.definitions.functions.find? (fun f => f.name = dispatcherName) = some dispatcher ∧
        dispatcher.statements = [.conditional branches otherwise] ∧
        branches.length = chart.transitions.length ∧
        ∀ (i : Nat) (t : Transition) (b : Branch),
          chart.transitions[i]? = some t → branches[i]? = some b →
          inlineCalls k'.definitions.functions b.statements = chart.effect (forwardable k) t ∧
          (inlineCalls k'.definitions.functions b.statements = t.body ↔
            ∀ j, receiver? (forwardable k) t.condition = some j →
              j < k.definitions.functions.length ∧
              ∀ (i' : Nat) (t' : Transition),
                chart.transitions[i']? = some t' →
                receiver? (forwardable k) t'.condition = some j → i' = i) := by
  obtain ⟨k', report, hmerge, hfunctions⟩ := mergeBehavior_compiled chart hhandle hcompile
  refine ⟨k', report, hmerge, dispatcherAfter chart k,
    chart.branches.map (redirected (forwardable k)), some [.revert invalidTransition],
    ?_, rfl, ?_, ?_⟩
  · rw [hfunctions]
    exact find?_dispatcher chart hhandle
  · simp [Statechart.branches]
  · intro i t b ht hb
    have hbranch : b = redirected (forwardable k) ⟨t.condition, t.body⟩ := by
      simpa [Statechart.branches, ht] using hb.symm
    have heffect :
        inlineCalls k'.definitions.functions b.statements = chart.effect (forwardable k) t := by
      rw [hfunctions, hbranch]
      exact inlineCalls_redirected chart hhandle t
    refine ⟨heffect, ?_⟩
    rw [heffect, effect_eq_body_iff ht]
    refine forall_congr' fun j => forall_congr' fun hj => ?_
    rw [forwardable_empty_iff hempty hj]

/-- A compiler that knows one diagram. -/
def Statechart.compiler (chart : Statechart) : Compiler where
  name := "chart"
  compile := fun _ contract => .ok (some (chart.compile contract))

/-- Two transitions with the same trigger. -/
def backAndForth : Statechart :=
  { transitions :=
      [{ source := "A", target := "B", trigger := "go" },
        { source := "B", target := "A", trigger := "go" }] }

/-- A contract with an operation for that trigger. -/
def oneOperation : Contract :=
  { name := "C", definitions := { functions := [{ name := "go" }] } }

theorem merge_effect_backAndForth :
    ∃ k' report,
      mergeBehavior backAndForth.compiler oneOperation "c.puml" = .ok (k', report) ∧
      ∃ dispatcher branches otherwise,
        k'.definitions.functions.find? (fun f => f.name = dispatcherName) = some dispatcher ∧
        dispatcher.statements = [.conditional branches otherwise] ∧
        branches.length = 2 ∧
        ∀ (i : Nat) (t : Transition) (b : Branch),
          backAndForth.transitions[i]? = some t → branches[i]? = some b →
          inlineCalls k'.definitions.functions b.statements =
            [.expression "currentState = \"B\"", .expression "currentState = \"A\""] := by
  obtain ⟨k', report, hmerge, dispatcher, branches, otherwise, hfind, hstatements, hlength,
      heffect⟩ :=
    merge_effect (k := oneOperation) backAndForth (by decide) (by decide)
      (show backAndForth.compiler.compile "c.puml" "C" = _ from rfl)
  refine ⟨k', report, hmerge, dispatcher, branches, otherwise, hfind, hstatements, hlength, ?_⟩
  have hboth :
      ∀ t ∈ backAndForth.transitions,
        backAndForth.effect (forwardable oneOperation) t =
          [.expression "currentState = \"B\"", .expression "currentState = \"A\""] := by
    decide +kernel
  intro i t b ht hb
  rw [(heffect i t b ht hb).1]
  exact hboth t (List.mem_of_getElem? ht)

/-- A transition can do more than its body after a merge. -/
theorem not_merge_preserves_bodies :
    ¬ ∀ (text : String) (chart : Statechart) (k k' : Contract) (compiler : Compiler)
        (diagram : String) (report : MergeReport) (dispatcher : Function) (branches : List Branch)
        (otherwise : Option (List Statement)),
      Statechart.parse text = .ok chart →
      (k.definitions.functions.map Function.name).Nodup →
      (∀ f ∈ k.definitions.functions,
        f.name ≠ dispatcherName ∧ f.name ≠ comparisonName ∧ f.statements = []) →
      compiler.compile diagram k.name = .ok (some (chart.compile k.name)) →
      mergeBehavior compiler k diagram = .ok (k', report) →
      k'.definitions.functions.find? (fun f => f.name = dispatcherName) = some dispatcher →
      dispatcher.statements = [.conditional branches otherwise] →
      ∀ (i : Nat) (t : Transition) (b : Branch),
        chart.transitions[i]? = some t → branches[i]? = some b →
        inlineCalls k'.definitions.functions b.statements = t.body := by
  intro h
  have hbody := h "@startuml\nA --> B : go\nB --> A : go\n@enduml\n" backAndForth oneOperation _
    backAndForth.compiler "c.puml" _ (dispatcherAfter backAndForth oneOperation) _ _
    (by decide +kernel) (by decide) (by decide) rfl rfl (by decide +kernel) rfl
    0 { source := "A", target := "B", trigger := "go" } _ rfl rfl
  exact absurd hbody (by decide +kernel)

end Behavior
end ContractGen
