/-!
# Tokens of the target language

Identifiers, numbers, string literals, comments and punctuation, each with the place where it
starts and the offset where it ends. Keywords are plain identifiers; the reader of declarations
decides what they mean.
-/

namespace ContractGen
namespace Source

/-- A token. -/
inductive Token
  | identifier (name : String)
  /-- A number as written. -/
  | number (text : String)
  /-- The contents of a string literal, escapes untouched. -/
  | stringLiteral (text : String)
  /-- The trimmed text of a comment, without its delimiters. -/
  | comment (text : String)
  | symbol (text : String)
  | endOfInput
deriving DecidableEq, Repr, Inhabited

namespace Token

/-- How a token is named in messages. -/
def describe : Token → String
  | identifier name => "'" ++ name ++ "'"
  | number text => "number " ++ text
  | stringLiteral text => "string \"" ++ text ++ "\""
  | comment _ => "comment"
  | symbol text => "'" ++ text ++ "'"
  | endOfInput => "end of input"

/-- The class of a token. -/
def kind : Token → String
  | identifier _ => "identifier"
  | number _ => "number"
  | stringLiteral _ => "string"
  | comment _ => "comment"
  | symbol _ => "symbol"
  | endOfInput => "eof"

/-- The text that a token carries. -/
def content : Token → String
  | identifier name => name
  | number text => text
  | stringLiteral text => text
  | comment text => text
  | symbol text => text
  | endOfInput => ""

/-- Whether a token is a comment. -/
def isComment : Token → Bool
  | comment _ => true
  | _ => false

/-- Whether a token opens a bracket. -/
def isOpening (t : Token) : Bool :=
  t = symbol "(" || t = symbol "[" || t = symbol "\x7b"

/-- Whether a token closes a bracket. -/
def isClosing (t : Token) : Bool :=
  t = symbol ")" || t = symbol "]" || t = symbol "\x7d"

end Token

/-- A place in a text: line and column from one, offset in characters from zero. -/
structure Position where
  line : Nat := 1
  column : Nat := 1
  offset : Nat := 0
deriving DecidableEq, Repr, Inhabited

namespace Position

/-- The place after one more character. -/
def advance (p : Position) (c : Char) : Position :=
  if c = '\n' then
    { line := p.line + 1, column := 1, offset := p.offset + 1 }
  else
    { p with column := p.column + 1, offset := p.offset + 1 }

/-- The place after some more text. -/
def after (p : Position) (text : List Char) : Position :=
  text.foldl advance p

/-- Line and column, as written in messages. -/
def text (p : Position) : String :=
  toString p.line ++ ":" ++ toString p.column

end Position

/-- A token with its place in the text. -/
structure Lexeme where
  token : Token
  /-- Where the token starts. -/
  start : Position
  /-- The offset one past the token. -/
  stop : Nat
deriving DecidableEq, Repr, Inhabited

/-- What can be wrong with a source text. -/
inductive SyntaxError
  /-- A character that starts no token. -/
  | unexpectedChar (c : Char) (at_ : Position)
  /-- A string literal without its closing quote. -/
  | unterminatedString (at_ : Position)
  /-- A block comment without its end. -/
  | unterminatedComment (at_ : Position)
  /-- Something else was required where a token stands. -/
  | expected (what : String) (found : Token) (at_ : Position)
  /-- The text ends inside a declaration. -/
  | unexpectedEnd (context : String) (at_ : Position)
deriving DecidableEq, Repr, Inhabited

namespace SyntaxError

/-- Where the text is wrong. -/
def position : SyntaxError → Position
  | unexpectedChar _ p => p
  | unterminatedString p => p
  | unterminatedComment p => p
  | expected _ _ p => p
  | unexpectedEnd _ p => p

/-- What is wrong, without the place. -/
def complaint : SyntaxError → String
  | unexpectedChar c _ => "unexpected character '" ++ c.toString ++ "'"
  | unterminatedString _ => "unterminated string literal"
  | unterminatedComment _ => "unterminated comment"
  | expected what found _ => "expected " ++ what ++ ", found " ++ found.describe
  | unexpectedEnd context _ => "unexpected end of input in " ++ context

/-- The name of the kind of error. -/
def kind : SyntaxError → String
  | unexpectedChar _ _ => "UnexpectedChar"
  | unterminatedString _ => "UnterminatedString"
  | unterminatedComment _ => "UnterminatedComment"
  | expected _ _ _ => "Expected"
  | unexpectedEnd _ _ => "UnexpectedEof"

/-- The message for the user. -/
def message (e : SyntaxError) : String :=
  e.position.text ++ ": " ++ e.complaint

end SyntaxError

end Source
end ContractGen
