import ContractGen.Source.Token
import ContractGen.Text.Blank

/-!
# Splitting a text into tokens

`takeToken` reads one token off the front of a text that does not begin with a blank. It returns
the token, the text it consumed and the text that is left; consumed text and rest together are
the whole input, and something is always consumed (`takeToken_spec`). `scan` repeats this,
skipping the blanks between tokens, and ends with the token for the end of the input.
-/

namespace ContractGen
namespace Source

open Text (isBlank isLetter isDigit)

/-- Whether a character can start an identifier. -/
def isIdentifierStart (c : Char) : Bool :=
  isLetter c || c = '_' || c = '$'

/-- Whether a character can continue an identifier. -/
def isIdentifierPart (c : Char) : Bool :=
  isLetter c || isDigit c || c = '_' || c = '$'

/-- Whether a character can continue a number. -/
def isNumberPart (c : Char) : Bool :=
  isLetter c || isDigit c || c = '.' || c = '_'

/-- Operators of several characters, longest first. -/
def operators : List String :=
  [">>>=", "<<=", ">>=", ">>>", "**", "=>", ">=", "<=", "==", "!=", "&&", "||", "++", "--", "+=",
    "-=", "*=", "/=", "%=", "|=", "&=", "^=", "<<", ">>", "->"]

/-- Characters that are a symbol on their own. -/
def singleSymbols : List Char :=
  "\x7b\x7d()[];,.=<>+-*/%!&|^~?:@".toList

/-- A token read off the front of a text. -/
structure Piece where
  token : Token
  /-- The characters of the token. -/
  text : List Char
  /-- The characters after the token. -/
  rest : List Char

/-- Why no token could be read. -/
inductive Fault
  | unexpectedChar (c : Char)
  | unterminatedString
  | unterminatedComment

/-- The error of a fault at a place. -/
def Fault.toError (at_ : Position) : Fault → SyntaxError
  | unexpectedChar c => .unexpectedChar c at_
  | unterminatedString => .unterminatedString at_
  | unterminatedComment => .unterminatedComment at_

/-- The text of a block comment up to its end, and what follows the end. -/
def takeBlockComment : List Char → Option (List Char × List Char)
  | [] => none
  | '*' :: '/' :: rest => some ([], rest)
  | c :: cs => (takeBlockComment cs).map fun (body, rest) => (c :: body, rest)

/--
The text of a string literal up to its closing quote, and what follows the quote. A backslash
keeps the next character from closing the literal; a bare newline leaves it unclosed.
-/
def takeString (quote : Char) : List Char → Option (List Char × List Char)
  | [] => none
  | '\\' :: c :: cs => (takeString quote cs).map fun (body, rest) => ('\\' :: c :: body, rest)
  | c :: cs =>
    if c = quote then
      some ([], cs)
    else if c = '\n' then
      none
    else
      (takeString quote cs).map fun (body, rest) => (c :: body, rest)

/-- The first operator of a list that the text begins with. -/
def takeOperator (text : List Char) : List String → Option (String × List Char)
  | [] => none
  | op :: ops =>
    match Text.dropStart? op.toList text with
    | some rest => some (op, rest)
    | none => takeOperator text ops

/-- The symbol that the text begins with: the longest operator, else a single character. -/
def takeSymbol (c : Char) (cs : List Char) : Except Fault Piece :=
  match takeOperator (c :: cs) operators with
  | some (op, rest) => .ok ⟨.symbol op, op.toList, rest⟩
  | none =>
    if c ∈ singleSymbols then
      .ok ⟨.symbol c.toString, [c], cs⟩
    else
      .error (.unexpectedChar c)

/-- A string literal, after its opening quote. -/
def takeQuoted (quote : Char) (cs : List Char) : Except Fault Piece :=
  match takeString quote cs with
  | some (body, rest) => .ok ⟨.stringLiteral (String.ofList body), quote :: body ++ [quote], rest⟩
  | none => .error .unterminatedString

/-- The longest run of characters of a class, as a token. -/
def takeRun (token : String → Token) (part : Char → Bool) (cs : List Char) : Piece :=
  let text := cs.takeWhile part
  ⟨token (String.ofList text), text, cs.dropWhile part⟩

/-- A line comment, after its opening slashes. -/
def takeLineComment (cs : List Char) : Piece :=
  let text := cs.takeWhile (· != '\n')
  ⟨.comment (String.ofList (Text.trim text)), '/' :: '/' :: text, cs.dropWhile (· != '\n')⟩

/-- A block comment, after its opening. -/
def takeBlock (cs : List Char) : Except Fault Piece :=
  match takeBlockComment cs with
  | some (body, rest) =>
    .ok ⟨.comment (String.ofList (Text.trim body)), '/' :: '*' :: body ++ ['*', '/'], rest⟩
  | none => .error .unterminatedComment

/-- One token off the front of a text that does not begin with a blank. -/
def takeToken : Char → List Char → Except Fault Piece
  | '/', '/' :: cs => .ok (takeLineComment cs)
  | '/', '*' :: cs => takeBlock cs
  | c, cs =>
    if c = '"' ∨ c = '\'' then
      takeQuoted c cs
    else if isDigit c then
      .ok (takeRun .number isNumberPart (c :: cs))
    else if isIdentifierStart c then
      .ok (takeRun .identifier isIdentifierPart (c :: cs))
    else
      takeSymbol c cs

/-- A comment's text, its end and the rest are what was read. -/
theorem takeBlockComment_append
    {cs body rest : List Char}
    (h : takeBlockComment cs = some (body, rest)) :
    body ++ '*' :: '/' :: rest = cs := by
  fun_induction takeBlockComment cs generalizing body with
  | case1 => simp at h
  | case2 => simp_all
  | case3 c cs _ ih =>
    obtain ⟨⟨b, r⟩, hb, he⟩ := Option.map_eq_some_iff.mp h
    simp only [Prod.mk.injEq] at he
    obtain ⟨rfl, rfl⟩ := he
    simp [ih hb]

/-- A literal's text, its closing quote and the rest are what was read. -/
theorem takeString_append
    {quote : Char} {cs body rest : List Char}
    (h : takeString quote cs = some (body, rest)) :
    body ++ quote :: rest = cs := by
  fun_induction takeString quote cs generalizing body with
  | case1 => simp at h
  | case2 c cs ih =>
    obtain ⟨⟨b, r⟩, hb, he⟩ := Option.map_eq_some_iff.mp h
    simp only [Prod.mk.injEq] at he
    obtain ⟨rfl, rfl⟩ := he
    simp [ih hb]
  | case3 => simp_all
  | case4 => simp at h
  | case5 c cs _ _ _ ih =>
    obtain ⟨⟨b, r⟩, hb, he⟩ := Option.map_eq_some_iff.mp h
    simp only [Prod.mk.injEq] at he
    obtain ⟨rfl, rfl⟩ := he
    simp [ih hb]

/-- A start and what follows it are the whole text. -/
theorem append_of_dropStart?
    {start text rest : List Char}
    (h : Text.dropStart? start text = some rest) :
    start ++ rest = text := by
  fun_induction Text.dropStart? start text with
  | case1 => simp_all
  | case2 => simp at h
  | case3 => simp_all
  | case4 => simp at h

/-- An operator read off a text is one of the list, and it and the rest are the whole text. -/
theorem takeOperator_spec
    {text rest : List Char} {ops : List String} {op : String}
    (h : takeOperator text ops = some (op, rest)) :
    op ∈ ops ∧ op.toList ++ rest = text := by
  fun_induction takeOperator text ops with
  | case1 => simp at h
  | case2 _ _ rest' hd =>
    simp only [Option.some.injEq, Prod.mk.injEq] at h
    obtain ⟨rfl, rfl⟩ := h
    exact ⟨by simp, append_of_dropStart? hd⟩
  | case3 _ _ _ ih => exact ⟨by simp [(ih h).1], (ih h).2⟩

/-- No operator is empty. -/
theorem toList_ne_nil_of_mem_operators
    {op : String}
    (h : op ∈ operators) :
    op.toList ≠ [] := by
  have : ∀ op ∈ operators, op.toList ≠ [] := by decide
  exact this op h

/-- A symbol consumes a non-empty part of the text. -/
theorem takeSymbol_spec
    {c : Char} {cs : List Char} {p : Piece}
    (h : takeSymbol c cs = .ok p) :
    p.text ++ p.rest = c :: cs ∧ p.text ≠ [] := by
  unfold takeSymbol at h
  split at h
  · rename_i op rest ho
    cases h
    exact ⟨(takeOperator_spec ho).2, toList_ne_nil_of_mem_operators (takeOperator_spec ho).1⟩
  · split at h
    · cases h
      simp
    · cases h

/-- A run and what follows it are the whole text. -/
theorem takeRun_append
    (token : String → Token)
    (part : Char → Bool)
    (cs : List Char) :
    (takeRun token part cs).text ++ (takeRun token part cs).rest = cs := by
  simp [takeRun]

/-- Every token consumes a non-empty part of the text, and loses nothing of it. -/
theorem takeToken_spec
    {c : Char} {cs : List Char} {p : Piece}
    (h : takeToken c cs = .ok p) :
    p.text ++ p.rest = c :: cs ∧ p.text ≠ [] := by
  unfold takeToken at h
  split at h
  · cases h
    simp [takeLineComment]
  · unfold takeBlock at h
    split at h
    · rename_i hb
      cases h
      simp [← takeBlockComment_append hb]
    · cases h
  · split at h
    · unfold takeQuoted at h
      split at h
      · rename_i hs
        cases h
        simp [← takeString_append hs]
      · cases h
    · split at h
      · rename_i hd
        cases h
        exact ⟨takeRun_append .., by simp [takeRun, isNumberPart, hd]⟩
      · split at h
        · rename_i hi
          cases h
          have : isIdentifierPart c = true := by
            simp only [isIdentifierStart, isIdentifierPart, Bool.or_eq_true] at hi ⊢
            rcases hi with (hi | hi) | hi <;> simp [hi]
          exact ⟨takeRun_append .., by simp [takeRun, this]⟩
        · exact takeSymbol_spec h

/-- What is left after a token is shorter. -/
theorem takeToken_rest_lt
    {c : Char} {cs : List Char} {p : Piece}
    (h : takeToken c cs = .ok p) :
    p.rest.length < (c :: cs).length := by
  obtain ⟨happ, hne⟩ := takeToken_spec h
  have hlen := congrArg List.length happ
  have := List.length_pos_iff.mpr hne
  simp only [List.length_append] at hlen
  omega

/-- The tokens of a text that starts at a given place. -/
def scanFrom (place : Position) (cs : List Char) : Except SyntaxError (List Lexeme) :=
  let start := place.after (cs.takeWhile isBlank)
  match hc : cs.dropWhile isBlank with
  | [] => .ok [⟨.endOfInput, start, start.offset⟩]
  | c :: tail =>
    match hp : takeToken c tail with
    | .error fault => .error (fault.toError start)
    | .ok piece =>
      have : piece.rest.length < cs.length := by
        have h₁ := takeToken_rest_lt hp
        have h₂ := (List.dropWhile_sublist isBlank (l := cs)).length_le
        rw [hc] at h₂
        omega
      let stop := start.after piece.text
      (scanFrom stop piece.rest).map (⟨piece.token, start, stop.offset⟩ :: ·)
termination_by cs.length

/-- The tokens of a text; the last one is the end of the input. -/
def scan (text : String) : Except SyntaxError (List Lexeme) :=
  scanFrom {} text.toList

end Source
end ContractGen
