import ContractGen.Proofs.MergedBehavior
import Mathlib.Data.List.Flatten
import Mathlib.Data.List.Perm.Basic

/-!
# The whole effect of forwarding

Forwarding takes the dispatcher out of the functions of a contract, moves the statements of its
branches to the others and puts it back. Here the result is given for the functions as they stand in
the contract, by their positions in it: what each function and each branch has afterwards, and what
is said about the branches.

* `operationAt?`, `goal?`: the function that a branch is meant for.
* `operationAt?_eq`: it is the one that forwarding finds among the functions besides the dispatcher.
* `forwardBranches_reports`: what is said about the branches.
* `perm_moved`: every moved statement arrives in exactly one function.
* `forwardDispatch_effect`: the effect on a contract, in all cases.
-/

namespace ContractGen
namespace Behavior

open Target

/-! ## Where branches are meant to go -/

/-- The least position other than `d` of a function with a given name. -/
def operationAt? (functions : List Function) (d : Nat) (name : String) : Option Nat :=
  (List.range functions.length).find? fun j =>
    j ≠ d ∧ functions[j]?.map Function.name = some name

/-- The operation that a branch of the dispatcher at `d` is meant for, and its position. -/
def goal? (functions : List Function) (d : Nat) (condition : String) :
    Option (DispatchTarget × Nat) :=
  if Text.occursIn inputMark condition then
    (dispatchTarget? condition).bind fun target =>
      (operationAt? functions d target.name).map fun j => (target, j)
  else
    none

/-- Why a branch that looks at the input is meant for no function. -/
def stayReason? (functions : List Function) (d : Nat) (condition : String) : Option StayReason :=
  if Text.occursIn inputMark condition then
    match dispatchTarget? condition with
    | none => some .patternMismatch
    | some target =>
      if operationAt? functions d target.name = none then some (.unknownOperation target.name)
      else none
  else
    none

/-- The branches that are meant for the function at a position. -/
def branchesFor (functions : List Function) (d : Nat) (branches : List Branch) (j : Nat) :
    List Branch :=
  branches.filter fun b => (goal? functions d b.condition).map Prod.snd = some j

/-- A branch that calls the function it is meant for, if there is one. -/
def callingBranch (functions : List Function) (d : Nat) (b : Branch) : Branch :=
  match goal? functions d b.condition with
  | some (target, _) => { b with statements := [.callWith target.name target.arguments] }
  | none => b

/-- What is said about branches that look at the input and are meant for no function. -/
def stayingBranches (functions : List Function) (d : Nat) (branches : List Branch) :
    List StayingBranch :=
  branches.zipIdx.filterMap fun (b, i) =>
    (stayReason? functions d b.condition).map fun reason => ⟨i, b.condition, reason⟩

/-! ## Branches and the functions besides the dispatcher -/

/-- The operation that a condition names, and its position among some operations. -/
def forwardTarget? (operations : List Function) (condition : String) :
    Option (DispatchTarget × Nat) :=
  match routeOf condition with
  | .towards target => (position? operations target.name).map fun i => (target, i)
  | _ => none

/-- Why a branch that looks at the input goes to none of some operations. -/
def stayReasonAmong? (operations : List Function) (condition : String) : Option StayReason :=
  match routeOf condition with
  | .unrelated => none
  | .nameless => some .patternMismatch
  | .towards target =>
    if position? operations target.name = none then some (.unknownOperation target.name)
    else none

theorem receiver?_eq
    (operations : List Function)
    (condition : String) :
    receiver? operations condition = (forwardTarget? operations condition).map Prod.snd := by
  unfold receiver? forwardTarget?
  cases routeOf condition <;> simp [Function.comp_def]

theorem redirected_eq_forwardTarget?
    (operations : List Function)
    (b : Branch) :
    redirected operations b =
      match forwardTarget? operations b.condition with
      | some (target, _) => { b with statements := [.callWith target.name target.arguments] }
      | none => b := by
  unfold redirected forwardTarget?
  cases routeOf b.condition with
  | unrelated =>
      rfl
  | nameless =>
      rfl
  | towards target =>
      cases hposition : position? operations target.name <;> simp [hposition]

section SameNames

variable {operations operations' : List Function}
  (h : operations'.map Function.name = operations.map Function.name)

include h

theorem forwardTarget?_congr
    (condition : String) :
    forwardTarget? operations' condition = forwardTarget? operations condition := by
  simp only [forwardTarget?, position?_congr h]

theorem stayReasonAmong?_congr
    (condition : String) :
    stayReasonAmong? operations' condition = stayReasonAmong? operations condition := by
  simp only [stayReasonAmong?, position?_congr h]

end SameNames

/-- What is said about branches, all at once. -/
theorem forwardBranches_reports
    (operations : List Function)
    (index : Nat)
    (branches : List Branch) :
    (forwardBranches operations index branches).forwarded =
        branches.filterMap (fun b =>
          (forwardTarget? operations b.condition).map fun x => x.1.name) ∧
      (forwardBranches operations index branches).staying =
        (branches.zipIdx index).filterMap fun (b, i) =>
          (stayReasonAmong? operations b.condition).map fun reason =>
            ⟨i, b.condition, reason⟩ := by
  induction branches generalizing operations index with
  | nil =>
      exact ⟨rfl, rfl⟩
  | cons b bs ih =>
      obtain ⟨hforwarded, hstaying⟩ := ih operations (index + 1)
      rw [forwardBranches, List.zipIdx_cons, List.filterMap_cons, List.filterMap_cons]
      cases hroute : routeOf b.condition with
      | unrelated =>
          simp [forwardTarget?, stayReasonAmong?, hroute, hforwarded, hstaying]
      | nameless =>
          simp [forwardTarget?, stayReasonAmong?, hroute, hforwarded, hstaying]
      | towards target =>
          simp only [appendTo?_eq]
          cases hposition : position? operations target.name with
          | none =>
              simp [forwardTarget?, stayReasonAmong?, hroute, hposition, hforwarded, hstaying]
          | some i =>
              -- The operations have other statements now, but the same names.
              have hnames := map_name_modify operations i b.statements
              obtain ⟨hforwarded', hstaying'⟩ :=
                ih (operations.modify i (extended b.statements)) (index + 1)
              simp only [forwardTarget?_congr hnames] at hforwarded'
              simp only [stayReasonAmong?_congr hnames] at hstaying'
              simp [forwardTarget?, stayReasonAmong?, hroute, hposition, hforwarded', hstaying']

/-! ## Positions with and without the dispatcher -/

/-- The position of an operation once the dispatcher is back at `d`. -/
def past (d i : Nat) : Nat :=
  if i < d then i else i + 1

theorem past_ne
    (d i : Nat) :
    past d i ≠ d := by
  unfold past
  split <;> omega

theorem past_inj
    {d i i' : Nat} :
    past d i = past d i' ↔ i = i' := by
  unfold past
  constructor
  · intro h
    split at h <;> split at h <;> omega
  · rintro rfl
    rfl

theorem past_lt_past
    {d i i' : Nat} :
    past d i < past d i' ↔ i < i' := by
  unfold past
  constructor
  · intro h
    split at h <;> split at h <;> omega
  · intro h
    split <;> split <;> omega

theorem exists_past
    {d j : Nat}
    (h : j ≠ d) :
    ∃ i, past d i = j := by
  by_cases hlt : j < d
  · exact ⟨j, if_pos hlt⟩
  · refine ⟨j - 1, ?_⟩
    rw [past, if_neg (by omega)]
    omega

/-- A function put between others moves those behind it by one. -/
theorem getElem?_putBack
    {operations : List Function} {d : Nat}
    (hd : d ≤ operations.length)
    (f : Function)
    (i : Nat) :
    (operations.take d ++ f :: operations.drop d)[past d i]? = operations[i]? := by
  have hlength : (operations.take d).length = d := by
    rw [List.length_take, Nat.min_eq_left hd]
  unfold past
  split
  · rename_i hlt
    rw [List.getElem?_append_left (by omega), List.getElem?_take_of_lt hlt]
  · rename_i hge
    rw [List.getElem?_append_right (by omega), hlength, show i + 1 - d = i - d + 1 by omega,
      List.getElem?_cons_succ, List.getElem?_drop, show d + (i - d) = i by omega]

section Around

variable (before : List Function) (dispatcher : Function) (after : List Function)

theorem getElem?_past
    (i : Nat) :
    (before ++ dispatcher :: after)[past before.length i]? = (before ++ after)[i]? := by
  have hle : before.length ≤ (before ++ after).length := by
    simp
  have hputBack := getElem?_putBack hle dispatcher i
  rwa [List.take_left, List.drop_left] at hputBack

/-- The dispatcher is passed over, so only the position has to be counted anew. -/
theorem operationAt?_eq
    (name : String) :
    operationAt? (before ++ dispatcher :: after) before.length name =
      (position? (before ++ after) name).map (past before.length) := by
  cases hposition : position? (before ++ after) name with
  | none =>
      have hother : ∀ f ∈ before ++ after, f.name ≠ name := by
        simpa [position?, or_imp, forall_and] using hposition
      rw [Option.map_none, operationAt?, List.find?_eq_none]
      intro j _ hj
      obtain ⟨hne, hname⟩ := of_decide_eq_true hj
      obtain ⟨i, rfl⟩ := exists_past hne
      rw [getElem?_past] at hname
      obtain ⟨f, hf, hfname⟩ := Option.map_eq_some_iff.mp hname
      exact hother f (List.mem_of_getElem? hf) hfname
  | some i =>
      obtain ⟨hi, hname, hfirst⟩ := List.findIdx?_eq_some_iff_getElem.mp hposition
      have hfound : (before ++ after)[i]?.map Function.name = some name := by
        rw [List.getElem?_eq_getElem hi]
        simpa using hname
      have hlt : past before.length i < (before ++ dispatcher :: after).length := by
        have hsome := getElem?_past before dispatcher after i
        rw [List.getElem?_eq_getElem hi] at hsome
        exact (List.getElem?_eq_some_iff.mp hsome).1
      rw [Option.map_some, operationAt?, List.find?_range_eq_some]
      refine ⟨decide_eq_true ⟨past_ne _ _, by rw [getElem?_past, hfound]⟩,
        List.mem_range.mpr hlt, ?_⟩
      intro j hj
      rw [Bool.not_eq_true', decide_eq_false_iff_not]
      rintro ⟨hne, hearlier⟩
      obtain ⟨i', rfl⟩ := exists_past hne
      have hi' : i' < i := past_lt_past.mp hj
      rw [getElem?_past, List.getElem?_eq_getElem (by omega), Option.map_some] at hearlier
      exact hfirst i' hi' (by simpa using hearlier)

/-- The operation that a branch goes to, in terms of the functions besides the dispatcher. -/
theorem goal?_eq
    (condition : String) :
    goal? (before ++ dispatcher :: after) before.length condition =
      (forwardTarget? (before ++ after) condition).map fun x => (x.1, past before.length x.2) := by
  unfold goal? forwardTarget? routeOf
  by_cases hmark : Text.occursIn inputMark condition = true
  · cases htarget : dispatchTarget? condition with
    | none =>
        simp [hmark]
    | some target =>
        simp [hmark, operationAt?_eq, Function.comp_def]
  · simp [hmark]

theorem stayReason?_eq
    (condition : String) :
    stayReason? (before ++ dispatcher :: after) before.length condition =
      stayReasonAmong? (before ++ after) condition := by
  unfold stayReason? stayReasonAmong? routeOf
  by_cases hmark : Text.occursIn inputMark condition = true
  · cases htarget : dispatchTarget? condition with
    | none =>
        simp [hmark]
    | some target =>
        simp [hmark, operationAt?_eq]
  · simp [hmark]

theorem delivered_eq
    (branches : List Branch)
    (i : Nat) :
    delivered (before ++ after) branches i =
      (branchesFor (before ++ dispatcher :: after) before.length branches
        (past before.length i)).flatMap Branch.statements := by
  unfold delivered branchesFor
  congr 2
  funext b
  rw [decide_eq_decide, goal?_eq, receiver?_eq]
  simp [Function.comp_def, past_inj]

theorem redirected_eq :
    redirected (before ++ after) =
      callingBranch (before ++ dispatcher :: after) before.length := by
  funext b
  rw [redirected_eq_forwardTarget?, callingBranch, goal?_eq]
  cases forwardTarget? (before ++ after) b.condition <;> rfl

/-- The functions of a contract after forwarding. -/
def forwardedFunctions (functions : List Function) (d : Nat) (branches : List Branch)
    (otherwise : Option (List Statement)) : List Function :=
  functions.mapIdx fun j f =>
    if j = d then
      { f with
        statements := [.conditional (branches.map (callingBranch functions d)) otherwise] }
    else
      extended ((branchesFor functions d branches j).flatMap Branch.statements) f

theorem forwardFunctions_around
    (hbefore : ∀ f ∈ before, f.name ≠ dispatcherName)
    (hname : dispatcher.name = dispatcherName)
    {branches : List Branch} {otherwise : Option (List Statement)}
    (hstatements : dispatcher.statements = [.conditional branches otherwise]) :
    forwardFunctions (before ++ dispatcher :: after) =
      (forwardedFunctions (before ++ dispatcher :: after) before.length branches otherwise,
        { dispatcherFound := true
          forwarded := branches.filterMap fun b =>
            (goal? (before ++ dispatcher :: after) before.length b.condition).map fun x => x.1.name
          staying :=
            stayingBranches (before ++ dispatcher :: after) before.length branches }) := by
  obtain ⟨hoperations, hbranches⟩ := forwardBranches_eq (before ++ after) 0 branches
  obtain ⟨hforwarded, hstaying⟩ := forwardBranches_reports (before ++ after) 0 branches
  simp only [forwardFunctions, splitAtDispatcher?_append hbefore hname, hstatements, hoperations,
    hbranches, hforwarded, hstaying]
  refine Prod.ext ?_ ?_
  · refine List.ext_getElem? ?_
    intro j
    by_cases hj : j = before.length
    · subst hj
      simp [forwardedFunctions, redirected_eq before dispatcher after]
    · -- Another function stands where it stood, and among the operations one place further left.
      obtain ⟨i, rfl⟩ := exists_past hj
      rw [forwardedFunctions, List.getElem?_mapIdx, getElem?_past]
      dsimp only
      rw [getElem?_putBack (by simp), List.getElem?_mapIdx]
      simp [past_ne, delivered_eq before dispatcher after]
  · simp [goal?_eq, stayingBranches, stayReason?_eq, Function.comp_def]

end Around

/-! ## What becomes of a contract -/

theorem splitAtDispatcher?_of_absent
    {functions : List Function}
    (h : ∀ f ∈ functions, f.name ≠ dispatcherName) :
    splitAtDispatcher? functions = none := by
  induction functions with
  | nil =>
      rfl
  | cons f fs ih =>
      have hf := h f List.mem_cons_self
      have hfs := ih fun g hg => h g (List.mem_cons_of_mem f hg)
      simp [splitAtDispatcher?, hf, hfs]

theorem forwardFunctions_of_absent
    {functions : List Function}
    (h : ∀ f ∈ functions, f.name ≠ dispatcherName) :
    forwardFunctions functions = (functions, {}) := by
  rw [forwardFunctions, splitAtDispatcher?_of_absent h]

theorem forwardFunctions_of_other
    {before : List Function} {dispatcher : Function}
    (hbefore : ∀ f ∈ before, f.name ≠ dispatcherName)
    (hname : dispatcher.name = dispatcherName)
    (hother : ∀ branches otherwise, dispatcher.statements ≠ [.conditional branches otherwise])
    (after : List Function) :
    forwardFunctions (before ++ dispatcher :: after) =
      (before ++ dispatcher :: after, { dispatcherFound := true }) := by
  rw [forwardFunctions, splitAtDispatcher?_append hbefore hname]
  dsimp only
  split
  · rename_i branches otherwise hstatements
    exact absurd hstatements (hother branches otherwise)
  · rfl

theorem forwardDispatch_eq
    {c : Contract} {functions : List Function} {report : DispatchReport}
    (h : forwardFunctions c.definitions.functions = (functions, report)) :
    forwardDispatch c = ({ c with definitions := { c.definitions with functions } }, report) := by
  rw [forwardDispatch, h]

theorem forwardDispatch_of_same
    {c : Contract} {report : DispatchReport}
    (h : forwardFunctions c.definitions.functions = (c.definitions.functions, report)) :
    forwardDispatch c = (c, report) := by
  rw [forwardDispatch_eq h]
  obtain ⟨name, isAbstract, parents, implements, fields, definitions⟩ := c
  cases definitions
  rfl

/-- The functions in front of the first dispatcher, the dispatcher, and those behind it. -/
theorem exists_around
    {functions : List Function} {d : Nat} {dispatcher : Function}
    (hfirst : functions.findIdx? (fun f => f.name = dispatcherName) = some d)
    (hd : functions[d]? = some dispatcher) :
    ∃ before after,
      functions = before ++ dispatcher :: after ∧
      d = before.length ∧
      dispatcher.name = dispatcherName ∧
      ∀ f ∈ before, f.name ≠ dispatcherName := by
  obtain ⟨hlt, hname, hearlier⟩ := List.findIdx?_eq_some_iff_getElem.mp hfirst
  obtain ⟨-, rfl⟩ := List.getElem?_eq_some_iff.mp hd
  refine ⟨functions.take d, functions.drop (d + 1), ?_, ?_, by simpa using hname, ?_⟩
  · rw [← List.drop_eq_getElem_cons hlt, List.take_append_drop]
  · rw [List.length_take, Nat.min_eq_left (Nat.le_of_lt hlt)]
  · intro f hf
    obtain ⟨i, hi, rfl⟩ := List.mem_iff_getElem.mp hf
    rw [List.getElem_take]
    have hid : i < d := by
      rw [List.length_take] at hi
      omega
    simpa using hearlier i hid

/-! ## Nothing is lost -/

section Accounts

variable {functions : List Function} {d : Nat}

theorem lt_length_of_goal?
    {condition : String} {target : DispatchTarget} {j : Nat}
    (h : goal? functions d condition = some (target, j)) :
    j < functions.length := by
  unfold goal? at h
  split at h
  · obtain ⟨target', -, hposition⟩ := Option.bind_eq_some_iff.mp h
    obtain ⟨j', hj', heq⟩ := Option.map_eq_some_iff.mp hposition
    cases heq
    exact List.mem_range.mp (List.mem_of_find?_eq_some hj')
  · cases h

/-- One position of a range gets something, the others nothing. -/
theorem flatMap_range_single
    {n i : Nat}
    (h : i < n)
    (statements : List Statement) :
    ((List.range n).flatMap fun j => if i = j then statements else []) = statements := by
  induction n with
  | zero =>
      omega
  | succ n ih =>
      rw [List.range_succ, List.flatMap_append]
      by_cases hi : i = n
      · have hnil : ((List.range n).flatMap fun j => if i = j then statements else []) = [] := by
          rw [List.flatMap_eq_nil_iff]
          intro j hj
          have hlt := List.mem_range.mp hj
          rw [if_neg (by omega)]
        rw [hnil]
        simp [hi]
      · simp [ih (by omega), hi]

/-- Every moved statement arrives in exactly one function. -/
theorem perm_moved
    (functions : List Function)
    (d : Nat)
    (branches : List Branch) :
    ((List.range functions.length).flatMap fun j =>
        (branchesFor functions d branches j).flatMap Branch.statements).Perm
      ((branches.filter fun b => (goal? functions d b.condition).isSome).flatMap
        Branch.statements) := by
  induction branches with
  | nil =>
      simp [branchesFor]
  | cons b bs ih =>
      cases hgoal : goal? functions d b.condition with
      | none =>
          simpa [branchesFor, hgoal] using ih
      | some x =>
          obtain ⟨target, i⟩ := x
          have hsplit : ∀ j,
              (branchesFor functions d (b :: bs) j).flatMap Branch.statements =
                (if i = j then b.statements else []) ++
                  (branchesFor functions d bs j).flatMap Branch.statements := by
            intro j
            by_cases hij : i = j <;> simp [branchesFor, hgoal, hij]
          simp only [hsplit]
          refine (List.flatMap_append_perm _ _ _).symm.trans ?_
          rw [flatMap_range_single (lt_length_of_goal? hgoal)]
          simpa [hgoal] using ih.append_left b.statements

/-- A branch that looks at the input is meant for a function, or there is a reason why not. -/
theorem isSome_stayReason?
    (functions : List Function)
    (d : Nat)
    (condition : String) :
    (stayReason? functions d condition).isSome =
      (Text.occursIn inputMark condition && (goal? functions d condition).isNone) := by
  unfold stayReason? goal?
  by_cases hmark : Text.occursIn inputMark condition = true
  · cases htarget : dispatchTarget? condition with
    | none =>
        simp [hmark]
    | some target =>
        cases hposition : operationAt? functions d target.name <;> simp [hmark, hposition]
  · simp [hmark]

theorem occursIn_of_goal?
    {condition : String}
    (h : (goal? functions d condition).isSome) :
    Text.occursIn inputMark condition = true := by
  by_contra hmark
  simp [goal?, hmark] at h

/-- Every branch that looks at the input is accounted for once. -/
theorem length_reports
    (functions : List Function)
    (d : Nat)
    (branches : List Branch) :
    (branches.filterMap fun b => (goal? functions d b.condition).map fun x => x.1.name).length +
        (stayingBranches functions d branches).length =
      branches.countP fun b => Text.occursIn inputMark b.condition := by
  have hstaying : (stayingBranches functions d branches).length =
      branches.countP fun b => (stayReason? functions d b.condition).isSome := by
    rw [stayingBranches, List.length_filterMap_eq_countP]
    have hfirst := List.countP_map
      (p := fun b : Branch => (stayReason? functions d b.condition).isSome) (f := Prod.fst)
      (l := branches.zipIdx)
    rw [List.zipIdx_map_fst] at hfirst
    rw [hfirst]
    simp [Function.comp_def]
  rw [hstaying, List.length_filterMap_eq_countP]
  clear hstaying
  simp only [Option.isSome_map, isSome_stayReason?]
  induction branches with
  | nil =>
      rfl
  | cons b bs ih =>
      cases hgoal : goal? functions d b.condition with
      | none =>
          simp only [List.countP_cons, hgoal, Option.isSome_none, Option.isNone_none, Bool.and_true,
            Bool.false_eq_true, if_false]
          omega
      | some x =>
          have hmark := occursIn_of_goal? (Option.isSome_iff_exists.mpr ⟨x, hgoal⟩)
          simp only [List.countP_cons, hgoal, hmark, Option.isSome_some, Option.isNone_some,
            Bool.and_false, Bool.false_eq_true, if_false, if_true]
          omega

end Accounts

/--
Forwarding in a contract. Without a dispatcher, or if the dispatcher is not a single conditional,
nothing changes. Otherwise a function besides the dispatcher at `d` has its statements and then those
of the branches that are meant for it, a branch that is meant for a function calls it, and all else is
as it was. The report names the functions in the order of the branches, and gives position, condition
and reason of each branch that looks at the input and is meant for none. No statement that moves is
lost or moves twice, and no branch that looks at the input is left out of the report.
-/
theorem forwardDispatch_effect
    (c : Contract) :
    let functions := c.definitions.functions
    ((∀ f ∈ functions, f.name ≠ dispatcherName) →
      forwardDispatch c = (c, { dispatcherFound := false, forwarded := [], staying := [] })) ∧
    ∀ (d : Nat) (dispatcher : Function),
      functions.findIdx? (fun f => f.name = dispatcherName) = some d →
      functions[d]? = some dispatcher →
      ((∀ branches otherwise, dispatcher.statements ≠ [.conditional branches otherwise]) →
        forwardDispatch c = (c, { dispatcherFound := true, forwarded := [], staying := [] })) ∧
      ∀ (branches : List Branch) (otherwise : Option (List Statement)),
        dispatcher.statements = [.conditional branches otherwise] →
        forwardDispatch c =
            ({ c with
                definitions :=
                  { c.definitions with
                    functions := forwardedFunctions functions d branches otherwise } },
              { dispatcherFound := true
                forwarded := branches.filterMap fun b =>
                  (goal? functions d b.condition).map fun x => x.1.name
                staying := stayingBranches functions d branches }) ∧
          ((List.range functions.length).flatMap fun j =>
              (branchesFor functions d branches j).flatMap Branch.statements).Perm
            ((branches.filter fun b => (goal? functions d b.condition).isSome).flatMap
              Branch.statements) ∧
          (forwardDispatch c).2.forwarded.length + (forwardDispatch c).2.staying.length =
            branches.countP fun b => Text.occursIn inputMark b.condition := by
  intro functions
  refine ⟨?_, ?_⟩
  · intro habsent
    exact forwardDispatch_of_same (forwardFunctions_of_absent habsent)
  · intro d dispatcher hfirst hd
    obtain ⟨before, after, hfunctions, rfl, hname, hbefore⟩ := exists_around hfirst hd
    rw [hfunctions]
    refine ⟨?_, ?_⟩
    · intro hother
      have hsame := forwardFunctions_of_other hbefore hname hother after
      rw [← hfunctions] at hsame
      exact forwardDispatch_of_same hsame
    · intro branches otherwise hstatements
      have hmoved := forwardFunctions_around before dispatcher after hbefore hname hstatements
      have heffect := forwardDispatch_eq (c := c) ((congrArg forwardFunctions hfunctions).trans hmoved)
      refine ⟨heffect, perm_moved _ _ _, ?_⟩
      rw [heffect]
      exact length_reports _ _ _

/-- Two operations of one name, two dispatchers, and branches of all kinds. -/
def sharedTarget : Contract :=
  { name := "Machine"
    definitions :=
      { functions :=
          [{ name := "go", statements := [.expression "old"] },
            { name := "handle"
              statements :=
                [.conditional
                  [⟨"isEqual(input, \"go(1)\")", [.expression "a", .expression "b"]⟩,
                    ⟨"msg.value > 0", [.expression "c"]⟩,
                    ⟨"isEqual(input, \"handle\")", [.expression "d"]⟩,
                    ⟨"isEqual(input, \"stop()\")", [.expression "e"]⟩,
                    ⟨"isEqual(input, \"go\")", [.expression "f"]⟩]
                  (some [.revert "INVALID"])] },
            { name := "handle" },
            { name := "go" }] } }

/-- Two branches go to the first operation of the name, and one to the second dispatcher. -/
theorem forwardDispatch_effect_sharedTarget :
    (forwardDispatch sharedTarget).1.definitions.functions.map Function.statements =
        [[.expression "old", .expression "a", .expression "b", .expression "f"],
          [.conditional
            [⟨"isEqual(input, \"go(1)\")", [.call "go" "(1)"]⟩,
              ⟨"msg.value > 0", [.expression "c"]⟩,
              ⟨"isEqual(input, \"handle\")", [.call "handle" "()"]⟩,
              ⟨"isEqual(input, \"stop()\")", [.expression "e"]⟩,
              ⟨"isEqual(input, \"go\")", [.call "go" "()"]⟩]
            (some [.revert "INVALID"])],
          [.expression "d"],
          []] ∧
      (forwardDispatch sharedTarget).2 =
        { dispatcherFound := true
          forwarded := ["go", "handle", "go"]
          staying := [⟨3, "isEqual(input, \"stop()\")", .unknownOperation "stop"⟩] } := by
  obtain ⟨heffect, -, -⟩ :=
    ((forwardDispatch_effect sharedTarget).2 1 _ (by decide) rfl).2 _ _ rfl
  rw [heffect]
  exact ⟨by decide +kernel, by decide +kernel⟩

end Behavior
end ContractGen
