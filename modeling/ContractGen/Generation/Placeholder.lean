import ContractGen.Target.Statement
import ContractGen.Target.TypeExpr

/-!
# Bodies that stand in for code to be written

A function without a body reverts, and a function that the user is asked to write returns
placeholder values.
-/

namespace ContractGen
namespace Generation

open Target

/-- The reason with which unwritten code reverts. -/
def implementationRequired : String := "IMPLEMENTATION REQUIRED"

/-- The statements of a body, or a single one that reverts if there are none. -/
def bodyOrRevert : List Statement → List Statement
  | [] => [.revert implementationRequired]
  | statements => statements

/-- The expression for some return values: one alone, several in parentheses, none for none. -/
def returnExpression? : List String → Option String
  | [] => none
  | [value] => some value
  | values => some ("(" ++ String.intercalate "," values ++ ")")

/-- A return statement with placeholders; it is bare if some type has none. -/
def placeholderReturn (types : List TypeExpr) : Statement :=
  .ret ((types.mapM TypeExpr.placeholder?).bind returnExpression?)

end Generation
end ContractGen
