import ContractGen.Source.Lexer
import ContractGen.Text.Taken

/-!
# Reading from a list of tokens

The tokens still to be read are a list without comments and without the end of the input; the
place where the input ends is kept beside them, for messages. A reader returns what it read
together with the tokens that are left, and a proof that it consumed at least one token, so every
loop over readers ends.
-/

namespace ContractGen
namespace Source

/-- The whole text that is being read. -/
structure SourceText where
  chars : List Char
  /-- Where the text ends. -/
  stop : Position

/-- The characters between two offsets. -/
def SourceText.slice (src : SourceText) (start stop : Nat) : List Char :=
  (src.chars.drop start).take (stop - start)

/-- A reader of values of type `α`. -/
abbrev Reader (α : Type) : Type :=
  (input : List Lexeme) → Except SyntaxError (Taken α input)

/-- Something else was required where the tokens stand. -/
def SourceText.expected (src : SourceText) (what : String) : List Lexeme → SyntaxError
  | [] => .expected what .endOfInput src.stop
  | t :: _ => .expected what t.token t.start

/-- The text ends too early. -/
def SourceText.unexpectedEnd (src : SourceText) (context : String) : SyntaxError :=
  .unexpectedEnd context src.stop

/-- A symbol in quotes, as messages name it. -/
def quoted (word : String) : String :=
  "'" ++ word ++ "'"

/-- Read one given symbol. -/
def readSymbol (src : SourceText) (symbol : String) : Reader Unit
  | [] => .error (src.expected (quoted symbol) [])
  | t :: rest =>
    if t.token = .symbol symbol then
      .ok ⟨(), rest, by simp⟩
    else
      .error (src.expected (quoted symbol) (t :: rest))

/-- Read one given keyword. -/
def readKeyword (src : SourceText) (word : String) : Reader Unit
  | [] => .error (src.expected (quoted word) [])
  | t :: rest =>
    if t.token = .identifier word then
      .ok ⟨(), rest, by simp⟩
    else
      .error (src.expected (quoted word) (t :: rest))

/-- Read any identifier; `what` names it in messages. -/
def readIdentifier (src : SourceText) (what : String) : Reader String
  | [] => .error (src.expected what [])
  | t :: rest =>
    match t.token with
    | .identifier name => .ok ⟨name, rest, by simp⟩
    | _ => .error (src.expected what (t :: rest))

/-- Whether the next token is a given symbol. -/
def atSymbol (symbol : String) : List Lexeme → Bool
  | [] => false
  | t :: _ => t.token = .symbol symbol

/-- Whether the next token is a given keyword. -/
def atKeyword (word : String) : List Lexeme → Bool
  | [] => false
  | t :: _ => t.token = .identifier word

/-- The tokens after a keyword, if it comes next. -/
def skipKeyword (word : String) : (input : List Lexeme) → Left input
  | [] => .whole []
  | t :: rest => if t.token = .identifier word then .one t rest else .whole (t :: rest)

/-- An identifier, if one comes next. -/
def takeIdentifier? : (input : List Lexeme) → Option String × Left input
  | [] => (none, .whole [])
  | t :: rest =>
    match t.token with
    | .identifier name => (some name, .one t rest)
    | _ => (none, .whole (t :: rest))

/-- Identifiers joined by dots. -/
def readQualifiedName (src : SourceText) (what : String) : Reader String
  | [] => .error (src.expected what [])
  | [t] =>
    match t.token with
    | .identifier name => .ok ⟨name, [], by simp⟩
    | _ => .error (src.expected what [t])
  | t :: dot :: rest =>
    match t.token with
    | .identifier name =>
      if dot.token = .symbol "." then do
        let ⟨tail, left, h⟩ ← readQualifiedName src what rest
        return ⟨name ++ "." ++ tail, left, by simp only [List.length_cons]; omega⟩
      else
        .ok ⟨name, dot :: rest, by simp⟩
    | _ => .error (src.expected what (t :: dot :: rest))

end Source
end ContractGen
