import ContractGen.Text.Blank

/-!
# Comparing texts line by line

What differs between an expected text and an actual one, as a message that names the lines.
-/

namespace ContractGen
namespace Text

/-- A line of a text, or a word for a line that is not there. -/
def lineText : Option (List Char) → String
  | some line => String.ofList line
  | none => "<missing>"

/-- The message about a line, counted from one. -/
def lineDifference (number : Nat) (expected actual : Option (List Char)) : String :=
  if lineText expected = lineText actual then
    ""
  else
    "Line " ++ toString number ++ ":\n  expected: " ++ lineText expected ++ "\n  actual:   " ++
      lineText actual ++ "\n"

/-- The messages about the lines of two texts, from a line on. -/
def lineDifferences (number : Nat) : (expected actual : List (List Char)) → String
  | [], [] => ""
  | e :: es, [] => lineDifference number (some e) none ++ lineDifferences (number + 1) es []
  | [], a :: as => lineDifference number none (some a) ++ lineDifferences (number + 1) [] as
  | e :: es, a :: as =>
    lineDifference number (some e) (some a) ++ lineDifferences (number + 1) es as

/-- The difference between two texts, unless they are equal. -/
def difference? (expected actual : String) : Option String :=
  if expected = actual then
    none
  else
    some ("Content mismatch:\n" ++ lineDifferences 1 (lines expected.toList) (lines actual.toList))

end Text
end ContractGen
