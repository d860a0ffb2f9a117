import ContractGen.Source.Cursor

/-!
# Bracketed stretches of tokens

Bodies, argument lists and unknown declarations are not understood, only skipped, by counting the
brackets that are open. Round, square and curly brackets count alike. A closing bracket without
an open one leaves the count at zero.
-/

namespace ContractGen
namespace Source

/-- The number of open brackets after one more token. -/
def depthAfter (depth : Nat) (token : Token) : Nat :=
  if token.isOpening then depth + 1 else if token.isClosing then depth - 1 else depth

/-- Skip to the bracket that brings the number of open brackets to zero. -/
def skipToClose (src : SourceText) (context : String) (depth : Nat) : Reader Unit
  | [] => .error (src.unexpectedEnd context)
  | t :: rest =>
    if t.token.isClosing && depthAfter depth t.token = 0 then
      .ok ⟨(), rest, Reading.rest_lt⟩
    else do
      let ⟨_, left, h⟩ ← skipToClose src context (depthAfter depth t.token) rest
      return ⟨(), left, Reading.lt_cons_of_lt h⟩

/-- Skip from an opening bracket through its matching close. -/
def skipBalanced (src : SourceText) (context : String) : Reader Unit :=
  skipToClose src context 0

/-- Skip a parenthesized list, if one comes next. -/
def skipArguments (src : SourceText) (context : String) (input : List Lexeme) :
    Except SyntaxError (Left input) :=
  if atSymbol "(" input then do
    let ⟨_, rest, h⟩ ← skipBalanced src context input
    return ⟨rest, by omega⟩
  else
    return ⟨input, by omega⟩

/--
Skip a declaration that is not understood: up to a semicolon, or through a braced body, whichever
ends it.
-/
def skipDeclaration (src : SourceText) (context : String) (depth : Nat) : Reader Unit
  | [] => .error (src.unexpectedEnd context)
  | t :: rest =>
    if t.token = .symbol ";" ∧ depth = 0 then
      .ok ⟨(), rest, Reading.rest_lt⟩
    else if t.token = .symbol "\x7b" ∧ depth = 0 then
      skipBalanced src context (t :: rest)
    else do
      let depth' :=
        if t.token = .symbol "\x7b" ∨ t.token = .symbol "\x7d" then depth
        else depthAfter depth t.token
      let ⟨_, left, h⟩ ← skipDeclaration src context depth' rest
      return ⟨(), left, Reading.lt_cons_of_lt h⟩

/--
Find the next `close` outside all brackets. The result is the offset where the text before it
ends; `stop` is that offset if `close` comes next.
-/
def findClose (src : SourceText) (close context : String) (depth stop : Nat) : Reader Nat
  | [] => .error (src.unexpectedEnd context)
  | t :: rest =>
    if t.token = .symbol close ∧ depth = 0 then
      .ok ⟨stop, rest, Reading.rest_lt⟩
    else do
      let ⟨stop', left, h⟩ ← findClose src close context (depthAfter depth t.token) t.stop rest
      return ⟨stop', left, Reading.lt_cons_of_lt h⟩

/-- The offset of the next token. -/
def SourceText.nextOffset (src : SourceText) : List Lexeme → Nat
  | [] => src.stop.offset
  | t :: _ => t.start.offset

/-- The trimmed source text up to the next `close` outside all brackets; `close` is consumed. -/
def readRawUntil (src : SourceText) (close context : String) : Reader String := fun input => do
  let start := src.nextOffset input
  let ⟨stop, rest, h⟩ ← findClose src close context 0 start input
  return ⟨String.ofList (Text.trim (src.slice start stop)), rest, h⟩

end Source
end ContractGen
