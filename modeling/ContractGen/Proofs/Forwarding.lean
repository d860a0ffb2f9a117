import ContractGen.Behavior.Dispatch
import Mathlib.Data.List.Basic

/-!
# What forwarding does to operations and branches

Forwarding goes through the branches one by one and changes the operations on the way. Which
operation a branch goes to depends only on the names of the operations, and these do not change. So
the result can be said for all branches at once: an operation has its own statements and after them
those of the branches that go to it, and a branch that goes somewhere is a call.
-/

namespace ContractGen
namespace Behavior

open Target

/-- A function with statements added at its end. -/
def extended (statements : List Statement) (f : Function) : Function :=
  { f with statements := f.statements ++ statements }

@[simp] theorem extended_name
    (statements : List Statement)
    (f : Function) :
    (extended statements f).name = f.name := by
  rfl

@[simp] theorem extended_statements
    (statements : List Statement)
    (f : Function) :
    (extended statements f).statements = f.statements ++ statements := by
  rfl

theorem extended_extended
    (first second : List Statement)
    (f : Function) :
    extended second (extended first f) = extended (first ++ second) f := by
  simp [extended]

/-- The position of the first operation with a given name. -/
def position? (operations : List Function) (name : String) : Option Nat :=
  operations.findIdx? fun f => f.name = name

/-- The position of the operation that a condition sends its branch to. -/
def receiver? (operations : List Function) (condition : String) : Option Nat :=
  match routeOf condition with
  | .towards target => position? operations target.name
  | _ => none

/-- The statements of the branches that go to an operation. -/
def delivered (operations : List Function) (branches : List Branch) (j : Nat) : List Statement :=
  (branches.filter fun b => receiver? operations b.condition = some j).flatMap Branch.statements

/-- A branch after forwarding. -/
def redirected (operations : List Function) (b : Branch) : Branch :=
  match routeOf b.condition with
  | .towards target =>
    match position? operations target.name with
    | some _ => ⟨b.condition, [.callWith target.name target.arguments]⟩
    | none => b
  | _ => b

theorem position?_eq_map
    (operations : List Function)
    (name : String) :
    position? operations name = (operations.map Function.name).findIdx? fun n => n = name := by
  rw [List.findIdx?_map]
  rfl

section SameNames

variable {operations operations' : List Function}
  (h : operations'.map Function.name = operations.map Function.name)

include h

theorem position?_congr
    (name : String) :
    position? operations' name = position? operations name := by
  rw [position?_eq_map, position?_eq_map, h]

theorem receiver?_congr
    (condition : String) :
    receiver? operations' condition = receiver? operations condition := by
  unfold receiver?
  split
  · exact position?_congr h _
  · rfl

theorem delivered_congr
    (branches : List Branch)
    (j : Nat) :
    delivered operations' branches j = delivered operations branches j := by
  simp only [delivered, receiver?_congr h]

theorem redirected_congr :
    redirected operations' = redirected operations := by
  funext b
  simp only [redirected, position?_congr h]

end SameNames

/-- Appending to the first operation of a name is changing the operation at its position. -/
theorem appendTo?_eq
    (name : String)
    (statements : List Statement)
    (operations : List Function) :
    appendTo? name statements operations =
      (position? operations name).map fun j => operations.modify j (extended statements) := by
  induction operations with
  | nil =>
      rfl
  | cons f fs ih =>
      by_cases hname : f.name = name
      · simp [appendTo?, position?, hname, extended, List.findIdx?_cons]
      · rw [appendTo?, if_neg hname, ih]
        simp [position?, hname, List.findIdx?_cons, Function.comp_def]

theorem map_name_modify
    (operations : List Function)
    (j : Nat)
    (statements : List Statement) :
    (operations.modify j (extended statements)).map Function.name =
      operations.map Function.name := by
  refine List.ext_getElem? ?_
  intro i
  by_cases hi : j = i
  · simp [hi, Function.comp_def]
  · simp [hi]

/-- A branch that goes nowhere delivers nothing. -/
theorem delivered_cons_of_none
    {operations : List Function} {b : Branch}
    (h : receiver? operations b.condition = none)
    (branches : List Branch)
    (j : Nat) :
    delivered operations (b :: branches) j = delivered operations branches j := by
  simp [delivered, h]

/-- A branch that is sent to an operation is delivered there, before those of the later branches. -/
theorem delivered_cons_of_some
    {operations : List Function} {b : Branch} {i : Nat}
    (h : receiver? operations b.condition = some i)
    (branches : List Branch)
    (j : Nat) :
    delivered operations (b :: branches) j =
      (if i = j then b.statements else []) ++ delivered operations branches j := by
  by_cases hij : i = j
  · simp [delivered, h, hij]
  · simp [delivered, h, hij]

theorem mapIdx_extended_modify
    (operations : List Function)
    (i : Nat)
    (statements : List Statement)
    (later : Nat → List Statement) :
    (operations.modify i (extended statements)).mapIdx (fun j f => extended (later j) f) =
      operations.mapIdx fun j f =>
        extended ((if i = j then statements else []) ++ later j) f := by
  refine List.ext_getElem? ?_
  intro j
  by_cases hij : i = j
  · simp [List.getElem?_mapIdx, hij, Function.comp_def, extended_extended]
  · simp [List.getElem?_mapIdx, hij]

/-- Forwarding in one piece. -/
theorem forwardBranches_eq
    (operations : List Function)
    (index : Nat)
    (branches : List Branch) :
    (forwardBranches operations index branches).operations =
        operations.mapIdx (fun j f => extended (delivered operations branches j) f) ∧
      (forwardBranches operations index branches).branches =
        branches.map (redirected operations) := by
  induction branches generalizing operations index with
  | nil =>
      refine ⟨?_, rfl⟩
      refine List.ext_getElem? ?_
      intro j
      simp [forwardBranches, delivered, extended]
  | cons b bs ih =>
      obtain ⟨hops, hbranches⟩ := ih operations (index + 1)
      rw [forwardBranches]
      cases hroute : routeOf b.condition with
      | unrelated =>
          have hnone : receiver? operations b.condition = none := by
            simp [receiver?, hroute]
          simp only [delivered_cons_of_none hnone, List.map_cons, redirected, hroute]
          exact ⟨hops, by rw [hbranches]⟩
      | nameless =>
          have hnone : receiver? operations b.condition = none := by
            simp [receiver?, hroute]
          simp only [delivered_cons_of_none hnone, List.map_cons, redirected, hroute]
          exact ⟨hops, by rw [hbranches]⟩
      | towards target =>
          simp only [appendTo?_eq]
          cases hposition : position? operations target.name with
          | none =>
              have hnone : receiver? operations b.condition = none := by
                simp [receiver?, hroute, hposition]
              simp only [Option.map_none, delivered_cons_of_none hnone, List.map_cons, redirected,
                hroute, hposition]
              exact ⟨hops, by rw [hbranches]⟩
          | some i =>
              have hsome : receiver? operations b.condition = some i := by
                simp [receiver?, hroute, hposition]
              have hnames := map_name_modify operations i b.statements
              obtain ⟨hops', hbranches'⟩ :=
                ih (operations.modify i (extended b.statements)) (index + 1)
              simp only [Option.map_some, List.map_cons, redirected, hroute, hposition]
              constructor
              · rw [hops']
                simp only [delivered_congr hnames, delivered_cons_of_some hsome]
                exact mapIdx_extended_modify operations i b.statements _
              · rw [hbranches', redirected_congr hnames]

end Behavior
end ContractGen
