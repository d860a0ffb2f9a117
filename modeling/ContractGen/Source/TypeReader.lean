import ContractGen.Source.Nesting
import ContractGen.Target.SourceUnit

/-!
# Reading types and parameter lists

A type is a dotted name or a mapping, followed by array brackets. An array with a size becomes a
named type, its size being kept as text. The payable marker of an address is returned beside the
type; what becomes of it depends on where the type stands.
-/

namespace ContractGen
namespace Source

open Target

/-- A type together with the payable marker of an address. -/
structure TypeReading where
  type : TypeExpr
  payable : Bool := false

/-- Parameters have no payable flag, so the marker stays part of the type. -/
def TypeReading.parameterType (t : TypeReading) : TypeExpr :=
  if t.payable then .named (t.type.text ++ " payable") else t.type

/-- The array brackets after a type. -/
def readBrackets (src : SourceText) (type : TypeExpr) (input : List Lexeme) :
    Except SyntaxError (TypeExpr × Left input) :=
  match input with
  | [] => return (type, ⟨[], by simp⟩)
  | t :: rest =>
    if t.token = .symbol "[" then
      if atSymbol "]" rest then do
        let (type', ⟨left, h⟩) ← readBrackets src (.array type) rest.tail
        return (type', ⟨left, by simp at *; omega⟩)
      else do
        let ⟨size, next, h⟩ ← readRawUntil src "]" "array size" rest
        let (type', ⟨left, h'⟩) ←
          readBrackets src (.named (type.text ++ "[" ++ size ++ "]")) next
        return (type', ⟨left, by simp; omega⟩)
    else
      return (type, ⟨t :: rest, by simp⟩)
termination_by input.length
decreasing_by all_goals (simp; try omega)

/-- A type. -/
def readType (src : SourceText) (input : List Lexeme) : Except SyntaxError (Taken TypeReading input) :=
  match input with
  | [] => .error (src.expected "a type" [])
  | t :: rest =>
    if t.token = .identifier "mapping" then do
      let ⟨_, r₁, h₁⟩ ← readSymbol src "(" rest
      let ⟨key, r₂, h₂⟩ ← readType src r₁
      let (_, ⟨r₃, h₃⟩) := takeIdentifier? r₂
      let ⟨_, r₄, h₄⟩ ← readSymbol src "=>" r₃
      let ⟨value, r₅, h₅⟩ ← readType src r₄
      let (_, ⟨r₆, h₆⟩) := takeIdentifier? r₅
      let ⟨_, r₇, h₇⟩ ← readSymbol src ")" r₆
      let (type, ⟨r₈, h₈⟩) ← readBrackets src (.mapping key.type value.type) r₇
      have hkey := Reading.lt_of_lt_lt h₁ h₂
      have harrow := Reading.lt_of_lt_lt (Reading.lt_of_lt_le hkey h₃) h₄
      have hvalue := Reading.lt_of_lt_lt harrow h₅
      have hclose := Reading.lt_of_lt_lt (Reading.lt_of_lt_le hvalue h₆) h₇
      have hleft := Reading.lt_of_lt_le hclose h₈
      return ⟨{ type }, r₈, Reading.lt_cons_of_lt hleft⟩
    else do
      let ⟨base, r₁, h₁⟩ ← readQualifiedName src "a type" (t :: rest)
      let payable := base = "address" && atKeyword "payable" r₁
      let ⟨r₂, h₂⟩ : Left r₁ := if payable then .tail r₁ else .whole r₁
      let (type, ⟨r₃, h₃⟩) ← readBrackets src (.named base) r₂
      have hbase := Reading.lt_of_lt_le h₁ h₂
      return ⟨{ type, payable }, r₃, Reading.lt_of_lt_le hbase h₃⟩
termination_by input.length
decreasing_by
  · exact Reading.lt_cons_of_lt h₁
  · have hkey := Reading.lt_of_lt_lt h₁ h₂
    exact Reading.lt_cons_of_lt (Reading.lt_of_lt_lt (Reading.lt_of_lt_le hkey h₃) h₄)

/-- A parameter before its role is known. -/
structure RawParameter where
  type : TypeReading
  location : Option DataLocation
  name : String

/-- A data location, if one comes next. -/
def takeLocation? : (input : List Lexeme) → Option DataLocation × Left input
  | [] => (none, .whole [])
  | t :: rest =>
    match t.token with
    | .identifier word =>
      match DataLocation.ofKeyword? word with
      | some location => (some location, .one t rest)
      | none => (none, .whole (t :: rest))
    | _ => (none, .whole (t :: rest))

/-- One parameter: type, data location, index marker and name, all but the type optional. -/
def readParameter (src : SourceText) : Reader RawParameter := fun input => do
  let ⟨type, r₁, h₁⟩ ← readType src input
  let (location, ⟨r₂, h₂⟩) := takeLocation? r₁
  let ⟨r₃, h₃⟩ := skipKeyword "indexed" r₂
  let (name, ⟨r₄, h₄⟩) := takeIdentifier? r₃
  return ⟨{ type, location, name := name.getD "" }, r₄, by omega⟩

/-- One or more parameters, and the closing parenthesis. -/
def readParametersToClose (src : SourceText) (input : List Lexeme) :
    Except SyntaxError (Taken (List RawParameter) input) := do
  let ⟨parameter, rest, h⟩ ← readParameter src input
  if atSymbol "," rest then do
    let ⟨parameters, left, h'⟩ ← readParametersToClose src rest.tail
    return ⟨parameter :: parameters, left, by simp at h'; omega⟩
  else do
    let ⟨_, left, h'⟩ ← readSymbol src ")" rest
    return ⟨[parameter], left, by omega⟩
termination_by input.length
decreasing_by simp; omega

/-- A parenthesized list of parameters. -/
def readParameterList (src : SourceText) : Reader (List RawParameter) := fun input => do
  let ⟨_, rest, h⟩ ← readSymbol src "(" input
  if atSymbol ")" rest then
    return ⟨[], rest.tail, by simp; omega⟩
  else do
    let ⟨parameters, left, h'⟩ ← readParametersToClose src rest
    return ⟨parameters, left, by omega⟩

/-- The parameters of a function or modifier. -/
def readParameters (src : SourceText) : Reader (List Parameter) := fun input => do
  let ⟨raw, rest, h⟩ ← readParameterList src input
  return ⟨raw.map fun p => ⟨p.name, p.type.parameterType, p.location⟩, rest, h⟩

/-- The arguments of an event or error. -/
def readLocalFields (src : SourceText) : Reader (List LocalField) := fun input => do
  let ⟨raw, rest, h⟩ ← readParameterList src input
  return ⟨raw.map fun p => ⟨p.name, p.type.type, p.type.payable⟩, rest, h⟩

end Source
end ContractGen
