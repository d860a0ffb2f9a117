/-!
# Failures

A failure is a chain of messages: what was being done, outermost first, and at the end why it
could not be done.
-/

namespace ContractGen

/-- A chain of messages, outermost first. -/
structure Failure where
  messages : List String
deriving DecidableEq, Repr, Inhabited

namespace Failure

/-- A failure with one message. -/
def because (message : String) : Failure :=
  ⟨[message]⟩

/-- The failure of something that was done as a part of something else. -/
def within (context : String) (f : Failure) : Failure :=
  ⟨context :: f.messages⟩

/-- The whole chain in one line. -/
def text (f : Failure) : String :=
  String.intercalate ": " f.messages

end Failure

/-- A result, its failure put into a context. -/
def inContext {α : Type} (context : String) : Except Failure α → Except Failure α
  | .ok a => .ok a
  | .error f => .error (f.within context)

/-- A computation succeeds if its parts do, one after the other. -/
theorem bind_eq_ok_iff
    {ε α β : Type} {x : Except ε α} {f : α → Except ε β} {b : β} :
    (x >>= f) = .ok b ↔ ∃ a, x = .ok a ∧ f a = .ok b := by
  cases x <;> simp [bind, Except.bind]

end ContractGen
