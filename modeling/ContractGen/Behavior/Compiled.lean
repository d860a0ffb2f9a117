import ContractGen.Failure
import ContractGen.Target.SourceUnit

/-!
# Compiled behaviour

A state diagram is compiled into a fragment: a source unit with one contract that keeps the state
and has a dispatching function. Compilers are values, so the code that merges a fragment does not
depend on a notation for diagrams.
-/

namespace ContractGen
namespace Behavior

open Target

/-- A transition of a state diagram. -/
structure Transition where
  source : String
  target : String
  /-- The input that causes the transition, with its arguments if it has any. -/
  trigger : String
  guard : Option String := none
  action : Option String := none
deriving DecidableEq, Repr, Inhabited

/-- What a compiler makes of a diagram. -/
structure Compiled where
  fragment : SourceUnit
  transitions : List Transition := []
deriving DecidableEq, Inhabited

/-- A compiler for state diagrams. -/
structure Compiler where
  /-- The name of the notation. -/
  name : String
  /-- Compile the diagram at a path for a contract; nothing if there is no such diagram. -/
  compile : (diagram contract : String) → Except Failure (Option Compiled)

/-- The compiler that answers the same fragment for every diagram. -/
def Compiler.constant (fragment : Option SourceUnit) : Compiler where
  name := "static"
  compile := fun _ _ => .ok (fragment.map fun f => { fragment := f })

end Behavior
end ContractGen
