/-!
# Statements of the target language

The statements that a function or modifier body can hold. A conditional is a chain of branches
with an optional fallback, so statements nest.
-/

namespace ContractGen
namespace Target

mutual

/-- A statement inside a function or modifier body. -/
inductive Statement
  /-- An expression, printed as it is. -/
  | expression (text : String)
  /-- A call with a parenthesized argument list. -/
  | call (function arguments : String)
  /-- An `if`, `else if`, `else` chain. -/
  | conditional (branches : List Branch) (otherwise : Option (List Statement))
  /-- A return with or without a value. -/
  | ret (value : Option String)
  /-- A revert with a message. -/
  | revert (message : String)

/-- One arm of a conditional. -/
structure Branch where
  /-- The condition, as source text. -/
  condition : String
  /-- What the arm does. -/
  statements : List Statement

end

instance : Inhabited Statement := ⟨.ret none⟩
instance : Inhabited Branch := ⟨⟨"", []⟩⟩

/-- A call; without argument text the argument list is empty. -/
def Statement.callWith (function : String) (arguments : Option String) : Statement :=
  .call function (arguments.getD "()")

mutual

/-- Decides equality of statements. -/
def Statement.decEq : (a b : Statement) → Decidable (a = b)
  | .expression s, .expression t =>
    if h : s = t then .isTrue (by simp [h]) else .isFalse (by simp [h])
  | .call f s, .call g t =>
    if h : f = g ∧ s = t then .isTrue (by simp [h]) else .isFalse (by simpa using h)
  | .conditional bs o, .conditional cs p =>
    match Branch.listDecEq bs cs, Statement.optionDecEq o p with
    | .isTrue h, .isTrue k => .isTrue (by simp [h, k])
    | .isFalse h, _ => .isFalse (by simp [h])
    | _, .isFalse k => .isFalse (by simp [k])
  | .ret v, .ret w =>
    if h : v = w then .isTrue (by simp [h]) else .isFalse (by simp [h])
  | .revert s, .revert t =>
    if h : s = t then .isTrue (by simp [h]) else .isFalse (by simp [h])
  | .expression _, .call _ _ => .isFalse (by simp)
  | .expression _, .conditional _ _ => .isFalse (by simp)
  | .expression _, .ret _ => .isFalse (by simp)
  | .expression _, .revert _ => .isFalse (by simp)
  | .call _ _, .expression _ => .isFalse (by simp)
  | .call _ _, .conditional _ _ => .isFalse (by simp)
  | .call _ _, .ret _ => .isFalse (by simp)
  | .call _ _, .revert _ => .isFalse (by simp)
  | .conditional _ _, .expression _ => .isFalse (by simp)
  | .conditional _ _, .call _ _ => .isFalse (by simp)
  | .conditional _ _, .ret _ => .isFalse (by simp)
  | .conditional _ _, .revert _ => .isFalse (by simp)
  | .ret _, .expression _ => .isFalse (by simp)
  | .ret _, .call _ _ => .isFalse (by simp)
  | .ret _, .conditional _ _ => .isFalse (by simp)
  | .ret _, .revert _ => .isFalse (by simp)
  | .revert _, .expression _ => .isFalse (by simp)
  | .revert _, .call _ _ => .isFalse (by simp)
  | .revert _, .conditional _ _ => .isFalse (by simp)
  | .revert _, .ret _ => .isFalse (by simp)

/-- Decides equality of statement lists. -/
def Statement.listDecEq : (as bs : List Statement) → Decidable (as = bs)
  | [], [] => .isTrue rfl
  | [], _ :: _ => .isFalse (by simp)
  | _ :: _, [] => .isFalse (by simp)
  | a :: as, b :: bs =>
    match a.decEq b, Statement.listDecEq as bs with
    | .isTrue h, .isTrue k => .isTrue (by simp [h, k])
    | .isFalse h, _ => .isFalse (by simp [h])
    | _, .isFalse k => .isFalse (by simp [k])

/-- Decides equality of optional statement lists. -/
def Statement.optionDecEq : (a b : Option (List Statement)) → Decidable (a = b)
  | none, none => .isTrue rfl
  | none, some _ => .isFalse (by simp)
  | some _, none => .isFalse (by simp)
  | some as, some bs =>
    match Statement.listDecEq as bs with
    | .isTrue h => .isTrue (by simp [h])
    | .isFalse h => .isFalse (by simp [h])

/-- Decides equality of branches. -/
def Branch.decEq : (a b : Branch) → Decidable (a = b)
  | ⟨c, ss⟩, ⟨d, ts⟩ =>
    if h : c = d then
      match Statement.listDecEq ss ts with
      | .isTrue k => .isTrue (by simp [h, k])
      | .isFalse k => .isFalse (by simp [k])
    else
      .isFalse (by simp [h])

/-- Decides equality of branch lists. -/
def Branch.listDecEq : (as bs : List Branch) → Decidable (as = bs)
  | [], [] => .isTrue rfl
  | [], _ :: _ => .isFalse (by simp)
  | _ :: _, [] => .isFalse (by simp)
  | a :: as, b :: bs =>
    match a.decEq b, Branch.listDecEq as bs with
    | .isTrue h, .isTrue k => .isTrue (by simp [h, k])
    | .isFalse h, _ => .isFalse (by simp [h])
    | _, .isFalse k => .isFalse (by simp [k])

end

instance : DecidableEq Statement := Statement.decEq
instance : DecidableEq Branch := Branch.decEq

end Target
end ContractGen
