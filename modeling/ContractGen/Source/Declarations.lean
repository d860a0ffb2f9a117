import ContractGen.Source.TypeReader

/-!
# Reading declarations

Only declarations are read. The bodies of functions, modifiers and constructors are skipped by
matching brackets, so any statement in them is accepted. `readUnit` reads a whole file.
-/

namespace ContractGen
namespace Source

open Target

/-- Bases after the keyword `is`; constructor arguments are dropped. -/
def readBaseList (src : SourceText) (input : List Lexeme) :
    Except SyntaxError (Taken (List String) input) := do
  let ⟨name, r₁, h₁⟩ ← readQualifiedName src "a base name" input
  let ⟨r₂, h₂⟩ ← skipArguments src "inheritance list" r₁
  have hbase := Reading.lt_of_lt_le h₁ h₂
  if atSymbol "," r₂ then do
    let ⟨names, r₃, h₃⟩ ← readBaseList src r₂.tail
    have hnames := Reading.lt_of_lt_tail h₃
    return ⟨name :: names, r₃, Reading.lt_of_lt_lt hbase hnames⟩
  else
    return ⟨[name], r₂, hbase⟩
termination_by input.length
decreasing_by exact Reading.lt_of_lt_le hbase Reading.tail_le

/-- The bases of a contract or interface, if it declares any. -/
def readBases (src : SourceText) (input : List Lexeme) :
    Except SyntaxError (List String × Left input) :=
  if atKeyword "is" input then do
    let ⟨names, rest, h⟩ ← readBaseList src input.tail
    have hrest := Reading.lt_of_lt_tail h
    return (names, ⟨rest, Reading.le_of_lt hrest⟩)
  else
    return ([], .whole input)

/-- Qualifiers, name and initializer of a state variable, after its type. -/
def readFieldTail (src : SourceText) (field : Field) (input : List Lexeme) :
    Except SyntaxError (Taken Field input) :=
  match input with
  | [] => .error (src.expected "a state variable name" [])
  | t :: rest =>
    match t.token with
    | .identifier word =>
      match Visibility.ofKeyword? word with
      | some visibility => do
        let ⟨field', left, h⟩ ← readFieldTail src { field with visibility } rest
        return ⟨field', left, by simp; omega⟩
      | none =>
        if word = "override" then do
          let ⟨next, h⟩ ← skipArguments src "override list" rest
          let ⟨field', left, h'⟩ ← readFieldTail src field next
          return ⟨field', left, by simp; omega⟩
        else if word = "constant" ∨ word = "immutable" ∨ word = "transient" then do
          let ⟨field', left, h⟩ ← readFieldTail src field rest
          return ⟨field', left, by simp; omega⟩
        else if atSymbol "=" rest then do
          let ⟨value, left, h⟩ ← readRawUntil src ";" "state variable initializer" rest.tail
          return ⟨{ field with name := word, initializer := some value }, left,
            by simp at *; omega⟩
        else do
          let ⟨_, left, h⟩ ← readSymbol src ";" rest
          return ⟨{ field with name := word }, left, by simp; omega⟩
    | _ => .error (src.expected "a state variable name" (t :: rest))
termination_by input.length
decreasing_by all_goals (simp; try omega)

/-- A state variable. Its visibility is internal unless it says otherwise. -/
def readField (src : SourceText) : Reader Field := fun input => do
  let ⟨type, rest, h⟩ ← readType src input
  let ⟨field, left, h'⟩ ←
    readFieldTail src
      { name := "", type := type.type, visibility := .internally, payable := type.payable } rest
  return ⟨field, left, Reading.lt_of_lt_lt h h'⟩

/-- What a qualifier says about a function; an unknown one invokes a modifier and says nothing. -/
def qualify (f : Function) (word : String) : Function :=
  if word = "pure" then
    { f with mutability := some .pure }
  else if word = "view" ∨ word = "constant" then
    { f with mutability := some .view }
  else if word = "payable" then
    { f with mutability := some .payable }
  else if word = "virtual" then
    { f with isVirtual := true }
  else if word = "override" then
    { f with isOverride := true }
  else
    { f with visibility := (Visibility.ofKeyword? word).getD f.visibility }

/-- The qualifiers that take no arguments. -/
def plainQualifiers : List String :=
  ["public", "private", "internal", "external", "pure", "view", "constant", "payable", "virtual"]

/-- Skip the arguments of a qualifier, if it takes any. -/
def skipQualifierArguments (src : SourceText) (context word : String) (rest : List Lexeme) :
    Except SyntaxError (Left rest) :=
  if word = "override" then
    skipArguments src "override list" rest
  else if word ∈ plainQualifiers then
    .ok (.whole rest)
  else
    skipArguments src context rest

/-- Qualifiers and end of a function, after its parameters. -/
def readFunctionTail (src : SourceText) (context : String) (f : Function) (input : List Lexeme) :
    Except SyntaxError (Taken Function input) :=
  match input with
  | [] => .error (src.unexpectedEnd context)
  | t :: rest =>
    match t.token with
    | .symbol ";" => .ok ⟨f, rest, by simp⟩
    | .symbol "\x7b" => do
      let ⟨_, left, h⟩ ← skipBalanced src context (t :: rest)
      return ⟨f, left, h⟩
    | .identifier "returns" => do
      let ⟨raw, next, h⟩ ← readParameterList src rest
      let ⟨f', left, h'⟩ ←
        readFunctionTail src context
          { f with returns := raw.map fun p => p.type.parameterType } next
      return ⟨f', left, by simp; omega⟩
    | .identifier word => do
      let ⟨next, h⟩ ← skipQualifierArguments src context word rest
      let ⟨f', left, h'⟩ ← readFunctionTail src context (qualify f word) next
      return ⟨f', left, by simp; omega⟩
    | _ => .error (src.expected "a function body or ';'" (t :: rest))
termination_by input.length
decreasing_by all_goals (simp; omega)

/-- A function, after its keyword. -/
def readFunction (src : SourceText) (visibility : Visibility) : Reader Function := fun input => do
  let ⟨name, r₁, h₁⟩ ← readIdentifier src "a function name" input
  let ⟨parameters, r₂, h₂⟩ ← readParameters src r₁
  let ⟨f, r₃, h₃⟩ ←
    readFunctionTail src ("function " ++ name) { name, visibility, parameters } r₂
  return ⟨f, r₃, by omega⟩

/-- Qualifiers and end of a modifier, after its parameters. -/
def readModifierTail (src : SourceText) (m : Modifier) (input : List Lexeme) :
    Except SyntaxError (Taken Modifier input) :=
  match input with
  | [] => .error (src.expected "a modifier body or ';'" [])
  | t :: rest =>
    match t.token with
    | .identifier "virtual" => do
      let ⟨m', left, h⟩ ← readModifierTail src { m with isVirtual := true } rest
      return ⟨m', left, by simp; omega⟩
    | .identifier "override" => do
      let ⟨next, h⟩ ← skipArguments src "override list" rest
      let ⟨m', left, h'⟩ ← readModifierTail src { m with isOverride := true } next
      return ⟨m', left, by simp; omega⟩
    | .symbol ";" => .ok ⟨m, rest, by simp⟩
    | .symbol "\x7b" => do
      let ⟨_, left, h⟩ ← skipBalanced src ("modifier " ++ m.name) (t :: rest)
      return ⟨m, left, h⟩
    | _ => .error (src.expected "a modifier body or ';'" (t :: rest))
termination_by input.length
decreasing_by all_goals (simp; try omega)

/-- A modifier, after its keyword. -/
def readModifier (src : SourceText) : Reader Modifier := fun input => do
  let ⟨name, r₁, h₁⟩ ← readIdentifier src "a modifier name" input
  if atSymbol "(" r₁ then do
    let ⟨parameters, r₂, h₂⟩ ← readParameters src r₁
    let ⟨m, r₃, h₃⟩ ← readModifierTail src { name, parameters } r₂
    have hparameters := Reading.lt_of_lt_lt h₁ h₂
    return ⟨m, r₃, Reading.lt_of_lt_lt hparameters h₃⟩
  else do
    let ⟨m, r₂, h₂⟩ ← readModifierTail src { name } r₁
    return ⟨m, r₂, Reading.lt_of_lt_lt h₁ h₂⟩

/-- The members of a struct, and its closing brace. -/
def readStructMembers (src : SourceText) (context : String) (input : List Lexeme) :
    Except SyntaxError (Taken (List LocalField) input) :=
  match input with
  | [] => .error (src.unexpectedEnd context)
  | t :: rest =>
    if t.token = .symbol "\x7d" then
      .ok ⟨[], rest, by simp⟩
    else do
      let ⟨type, r₁, h₁⟩ ← readType src (t :: rest)
      let ⟨name, r₂, h₂⟩ ← readIdentifier src "a struct member name" r₁
      let ⟨_, r₃, h₃⟩ ← readSymbol src ";" r₂
      let ⟨fields, r₄, h₄⟩ ← readStructMembers src context r₃
      return ⟨⟨name, type.type, type.payable⟩ :: fields, r₄, by omega⟩
termination_by input.length
decreasing_by simp at *; omega

/-- A struct, after its keyword. -/
def readStruct (src : SourceText) : Reader Structure := fun input => do
  let ⟨name, r₁, h₁⟩ ← readIdentifier src "a struct name" input
  let ⟨_, r₂, h₂⟩ ← readSymbol src "\x7b" r₁
  let ⟨fields, r₃, h₃⟩ ← readStructMembers src ("struct " ++ name) r₂
  return ⟨⟨name, fields⟩, r₃, by omega⟩

/-- A symbol can be passed over. -/
theorem tail_lt_of_atSymbol
    {symbol : String} {input : List Lexeme}
    (h : atSymbol symbol input = true) :
    input.tail.length < input.length := by
  cases input with
  | nil => cases h
  | cons t rest => exact Reading.rest_lt

/-- The values of an enum, and its closing brace; a comma may follow the last value. -/
def readEnumValues (src : SourceText) (input : List Lexeme) :
    Except SyntaxError (Taken (List String) input) :=
  if h : atSymbol "\x7d" input then
    return ⟨[], input.tail, tail_lt_of_atSymbol h⟩
  else do
    let ⟨value, r₁, h₁⟩ ← readIdentifier src "an enum value" input
    if atSymbol "," r₁ then do
      let ⟨values, r₂, h₂⟩ ← readEnumValues src r₁.tail
      have hvalues := Reading.lt_of_lt_tail h₂
      return ⟨value :: values, r₂, Reading.lt_of_lt_lt h₁ hvalues⟩
    else do
      let ⟨_, r₂, h₂⟩ ← readSymbol src "\x7d" r₁
      return ⟨[value], r₂, Reading.lt_of_lt_lt h₁ h₂⟩
termination_by input.length
decreasing_by exact Reading.lt_of_lt_le h₁ Reading.tail_le

/-- An enum, after its keyword. -/
def readEnum (src : SourceText) : Reader Enumeration := fun input => do
  let ⟨name, r₁, h₁⟩ ← readIdentifier src "an enum name" input
  let ⟨_, r₂, h₂⟩ ← readSymbol src "\x7b" r₁
  let ⟨values, r₃, h₃⟩ ← readEnumValues src r₂
  return ⟨⟨name, values⟩, r₃, by omega⟩

/-- An event, after its keyword. -/
def readEvent (src : SourceText) : Reader Event := fun input => do
  let ⟨name, r₁, h₁⟩ ← readIdentifier src "an event name" input
  let ⟨parameters, r₂, h₂⟩ ← readLocalFields src r₁
  let ⟨r₃, h₃⟩ := skipKeyword "anonymous" r₂
  let ⟨_, r₄, h₄⟩ ← readSymbol src ";" r₃
  return ⟨⟨name, parameters⟩, r₄, by omega⟩

/-- A custom error, after its keyword. -/
def readErrorDefinition (src : SourceText) : Reader ErrorDefinition := fun input => do
  let ⟨name, r₁, h₁⟩ ← readIdentifier src "an error name" input
  let ⟨parameters, r₂, h₂⟩ ← readLocalFields src r₁
  let ⟨_, r₃, h₃⟩ ← readSymbol src ";" r₂
  return ⟨⟨name, parameters⟩, r₃, by omega⟩

/-- One thing declared in a file, a contract or an interface. -/
inductive Item
  | pragma (text : String)
  | importing (path : String)
  | contract (c : Contract)
  | interface (i : Interface)
  | field (f : Field)
  | struct (s : Structure)
  | enumeration (e : Enumeration)
  | event (e : Event)
  | error (e : ErrorDefinition)
  | function (f : Function)
  | modifier (m : Modifier)
  /-- A declaration that was skipped. -/
  | skipped

/-- Append an item to the definitions it belongs to. -/
def Item.addTo (d : Definitions) : Item → Definitions
  | contract c => { d with contracts := d.contracts ++ [c] }
  | interface i => { d with interfaces := d.interfaces ++ [i] }
  | struct s => { d with structures := d.structures ++ [s] }
  | enumeration e => { d with enumerations := d.enumerations ++ [e] }
  | event e => { d with events := d.events ++ [e] }
  | error e => { d with errors := d.errors ++ [e] }
  | function f => { d with functions := d.functions ++ [f] }
  | modifier m => { d with modifiers := d.modifiers ++ [m] }
  | pragma _ => d
  | importing _ => d
  | field _ => d
  | skipped => d

/-- The state variable that an item is. -/
def Item.field? : Item → Option Field
  | field f => some f
  | _ => none

/-- Read the rest of an item after its keyword `t`. -/
def readAfter {α : Type} (t : Lexeme) (wrap : α → Item) (reader : Reader α) (rest : List Lexeme) :
    Except SyntaxError (Taken Item (t :: rest)) := do
  let ⟨value, left, h⟩ ← reader rest
  return ⟨wrap value, left, by simp; omega⟩

/-- Skip a declaration, as an item. -/
def readSkipped (src : SourceText) (context : String) : Reader Item := fun input => do
  let ⟨_, left, h⟩ ← skipDeclaration src context 0 input
  return ⟨.skipped, left, h⟩

/-- One member of a contract. -/
def readContractMember (src : SourceText) (context : String) : Reader Item
  | [] => .error (src.unexpectedEnd context)
  | t :: rest =>
    match t.token with
    | .identifier "function" => readAfter t .function (readFunction src .publicly) rest
    | .identifier "modifier" => readAfter t .modifier (readModifier src) rest
    | .identifier "struct" => readAfter t .struct (readStruct src) rest
    | .identifier "enum" => readAfter t .enumeration (readEnum src) rest
    | .identifier "event" => readAfter t .event (readEvent src) rest
    | .identifier "constructor" => readSkipped src context (t :: rest)
    | .identifier "fallback" => readSkipped src context (t :: rest)
    | .identifier "receive" => readSkipped src context (t :: rest)
    | .identifier "using" => readSkipped src context (t :: rest)
    | _ =>
      if t.token = .identifier "error" && atSymbol "(" rest.tail then
        readAfter t .error (readErrorDefinition src) rest
      else do
        let ⟨f, left, h⟩ ← readField src (t :: rest)
        return ⟨.field f, left, h⟩

/-- One member of an interface. -/
def readInterfaceMember (src : SourceText) (context : String) : Reader Item
  | [] => .error (src.unexpectedEnd context)
  | t :: rest =>
    match t.token with
    | .identifier "function" => readAfter t .function (readFunction src .externally) rest
    | .identifier "struct" => readAfter t .struct (readStruct src) rest
    | .identifier "enum" => readAfter t .enumeration (readEnum src) rest
    | .identifier "event" => readAfter t .event (readEvent src) rest
    | .identifier "error" => readAfter t .error (readErrorDefinition src) rest
    | _ => readSkipped src context (t :: rest)

/-- Members up to the closing brace. -/
def readMembers (src : SourceText) (context : String) (member : Reader Item)
    (input : List Lexeme) : Except SyntaxError (Taken (List Item) input) :=
  match input with
  | [] => .error (src.unexpectedEnd context)
  | t :: rest =>
    if t.token = .symbol "\x7d" then
      .ok ⟨[], rest, by simp⟩
    else do
      let ⟨item, r₁, h₁⟩ ← member (t :: rest)
      let ⟨items, r₂, h₂⟩ ← readMembers src context member r₁
      return ⟨item :: items, r₂, by omega⟩
termination_by input.length
decreasing_by
  simp only [List.length_cons] at *
  omega

/-- A contract, after its keyword. -/
def readContract (src : SourceText) (isAbstract : Bool) : Reader Contract := fun input => do
  let ⟨name, r₁, h₁⟩ ← readIdentifier src "a contract name" input
  let (parents, ⟨r₂, h₂⟩) ← readBases src r₁
  let ⟨_, r₃, h₃⟩ ← readSymbol src "\x7b" r₂
  let context := "contract " ++ name
  let ⟨items, r₄, h₄⟩ ← readMembers src context (readContractMember src context) r₃
  return ⟨{ name, isAbstract, parents, fields := items.filterMap Item.field?,
            definitions := items.foldl Item.addTo {} }, r₄, by omega⟩

/-- An interface, after its keyword. -/
def readInterface (src : SourceText) : Reader Interface := fun input => do
  let ⟨name, r₁, h₁⟩ ← readIdentifier src "an interface name" input
  let (parents, ⟨r₂, h₂⟩) ← readBases src r₁
  let ⟨_, r₃, h₃⟩ ← readSymbol src "\x7b" r₂
  let context := "interface " ++ name
  let ⟨items, r₄, h₄⟩ ← readMembers src context (readInterfaceMember src context) r₃
  return ⟨{ name, parents, definitions := items.foldl Item.addTo {} }, r₄, by omega⟩

/-- The first string literal up to a semicolon; `path` is one that was already seen. -/
def readImportPath (src : SourceText) (path : Option String) : Reader (Option String)
  | [] => .error (src.unexpectedEnd "import")
  | t :: rest =>
    match t.token with
    | .symbol ";" => .ok ⟨path, rest, by simp⟩
    | .stringLiteral text => do
      let ⟨found, left, h⟩ ← readImportPath src (path.or (some text)) rest
      return ⟨found, left, by simp; omega⟩
    | _ => do
      let ⟨found, left, h⟩ ← readImportPath src path rest
      return ⟨found, left, by simp; omega⟩

/-- An import, after its keyword. -/
def readImport (src : SourceText) : Reader String := fun input => do
  let ⟨path, rest, h⟩ ← readImportPath src none input
  match path with
  | some path => return ⟨path, rest, h⟩
  | none =>
    .error (.expected "an import path" (.symbol ";") ((input.head?.map Lexeme.start).getD src.stop))

/-- A pragma, after its keyword. Only version pragmas are kept. -/
def readPragma (src : SourceText) : Reader Item := fun input =>
  if atKeyword "solidity" input then do
    let ⟨text, rest, h⟩ ← readRawUntil src ";" "pragma" input.tail
    return ⟨.pragma text, rest, by simp at h; omega⟩
  else
    readSkipped src "pragma" input

/-- One top-level declaration of a file. -/
def readItem (src : SourceText) : Reader Item
  | [] => .error (src.expected "a declaration" [])
  | t :: rest =>
    match t.token with
    | .identifier "pragma" => readAfter t id (readPragma src) rest
    | .identifier "import" => readAfter t .importing (readImport src) rest
    | .identifier "abstract" => do
      let ⟨_, r₁, h₁⟩ ← readKeyword src "contract" rest
      let ⟨c, r₂, h₂⟩ ← readContract src true r₁
      return ⟨.contract c, r₂, by simp; omega⟩
    | .identifier "contract" => readAfter t .contract (readContract src false) rest
    | .identifier "interface" => readAfter t .interface (readInterface src) rest
    | .identifier "struct" => readAfter t .struct (readStruct src) rest
    | .identifier "enum" => readAfter t .enumeration (readEnum src) rest
    | .identifier "event" => readAfter t .event (readEvent src) rest
    | .identifier "error" => readAfter t .error (readErrorDefinition src) rest
    | .identifier "function" => readAfter t .function (readFunction src .internally) rest
    | .identifier word => readSkipped src word (t :: rest)
    | _ => .error (src.expected "a declaration" (t :: rest))

/-- All top-level declarations up to the end of the tokens. -/
def readItems (src : SourceText) (input : List Lexeme) : Except SyntaxError (List Item) :=
  match input with
  | [] => .ok []
  | t :: rest => do
    let ⟨item, left, _h⟩ ← readItem src (t :: rest)
    let items ← readItems src left
    return item :: items
termination_by input.length
decreasing_by
  simp only [List.length_cons] at *
  omega

/-- Add a top-level declaration to a unit. The last version pragma counts. -/
def Item.addToUnit (unit : SourceUnit) : Item → SourceUnit
  | pragma text => { unit with pragma := text }
  | importing path => { unit with imports := unit.imports ++ [path] }
  | item => { unit with definitions := item.addTo unit.definitions }

/-- The license that a comment names after the license tag. -/
def licenseIn? (comment : String) : Option String :=
  (Text.splitOnce? licenseTag.toList comment.toList).map fun (_, rest) =>
    String.ofList (Text.trim rest)

/-- The license that a token names. -/
def Lexeme.license? (t : Lexeme) : Option String :=
  match t.token with
  | .comment text => licenseIn? text
  | _ => none

/-- Whether a token is read as part of a declaration. -/
def Lexeme.isReadable (t : Lexeme) : Bool :=
  !t.token.isComment && t.token ≠ .endOfInput

/-- The unit that a list of tokens declares. -/
def readUnit (name : String) (chars : List Char) (lexemes : List Lexeme) :
    Except SyntaxError SourceUnit := do
  let stop := (lexemes.getLast?.map Lexeme.start).getD {}
  let license := (lexemes.findSome? Lexeme.license?).getD "UNLICENSED"
  let items ← readItems { chars, stop } (lexemes.filter Lexeme.isReadable)
  return items.foldl Item.addToUnit { name, license, pragma := "" }

/-- Read a source text as a unit with a given name, and resolve the enums it declares. -/
def parse (name text : String) : Except SyntaxError SourceUnit := do
  let lexemes ← scan text
  let unit ← readUnit name text.toList lexemes
  return unit.resolveOwnEnumerations

end Source
end ContractGen
