import ContractGen.Domain.Identifier
import ContractGen.Proofs.Glyphs
import ContractGen.Proofs.Layout
import ContractGen.Target.Printer
import Mathlib.Tactic.MkIffOfInductiveProp

/-!
# Printable units

Not every tree of declarations has a text that says the same: a name can be a keyword, a pragma can
hold a semicolon, a body can close a brace too many. A printable unit has none of these.

**Definitions.**
* `IsStretch`, `IsBody`: texts that a reader passes over as a whole.
* `TypeExpr.Printable`: types built from the names of a unit.
* `SourceUnit.Printable`: units whose text can be read back.
* `SourceUnit.outline`: what is read back, all declarations without their bodies.
-/

namespace ContractGen

open Domain (nameFault? reservedWords)
open Layout (layoutAll)

namespace Source

/-! ## Texts that are passed over -/

/-- The brackets that are open after some tokens; none if one is closed that was not open. -/
def openAfter? : Nat → List Token → Option Nat
  | depth, [] => some depth
  | depth, t :: ts =>
    if t.isOpening then
      openAfter? (depth + 1) ts
    else if t.isClosing then
      if depth = 0 then none else openAfter? (depth - 1) ts
    else
      openAfter? depth ts

/-- The brackets in some tokens nest. -/
def Nests (ts : List Token) : Prop :=
  openAfter? 0 ts = some 0

instance (ts : List Token) : Decidable (Nests ts) :=
  inferInstanceAs (Decidable (openAfter? 0 ts = some 0))

/-- A trimmed text without comments and semicolons whose brackets nest. -/
@[mk_iff]
structure IsStretch (text : String) : Prop where
  trimmed : Text.trimmed text = text
  scanned : (scan text).isOk = true
  plain : ∀ t ∈ tokensOf text, t.isComment = false ∧ t ≠ .symbol ";"
  nests : Nests (readableTokens text)

/-- A text of tokens whose brackets nest. -/
@[mk_iff]
structure IsBody (text : String) : Prop where
  scanned : (scan text).isOk = true
  nests : Nests (readableTokens text)

instance (text : String) : Decidable (IsStretch text) :=
  decidable_of_iff _ (isStretch_iff text).symm

instance (text : String) : Decidable (IsBody text) :=
  decidable_of_iff _ (isBody_iff text).symm

end Source

namespace Target

open Source

/-! ## Names and types -/

/-- A name that can be declared. -/
def IsDeclarable (name : String) : Prop :=
  nameFault? name = none ∧ name ≠ "transient"

/-- The names in a dotted name. -/
def nameParts (name : String) : List String :=
  (Text.splitAt '.' name.toList).map String.ofList

/-- Identifiers joined by dots. -/
def IsDotted (name : String) : Prop :=
  ∀ part ∈ nameParts name, isIdentifier part = true

/-- The reserved words that name a type. -/
def elementaryWords : List String :=
  ["address", "bool", "bytes", "int", "string", "uint"]

/-- A dotted name that can stand for a type. -/
def IsTypeName (name : String) : Prop :=
  IsDotted name ∧
    ∀ first ∈ (nameParts name).head?, first ∈ reservedWords → first ∈ elementaryWords

/-- A type whose names are those of a unit with some enums. -/
def TypeExpr.Printable (enums : List String) : TypeExpr → Prop
  | named name => IsTypeName name ∧ name ∉ enums
  | enumeration name => name ∈ enums
  | mapping key value => key.Printable enums ∧ value.Printable enums
  | array element => element.Printable enums

/-- The type of an address that can receive funds, as parameters have it. -/
def payableAddress : TypeExpr :=
  .named "address payable"

/-- A type of a parameter or return value. -/
def TypeExpr.Passable (enums : List String) (type : TypeExpr) : Prop :=
  type = payableAddress ∨ type.Printable enums

/-! ## Declarations -/

/-- A parameter; its name may be empty, and it has a data location only if it needs one. -/
@[mk_iff]
structure Parameter.Printable (enums : List String) (p : Parameter) : Prop where
  name : p.name = "" ∨ IsDeclarable p.name
  type : p.type.Passable enums
  location : p.location.isSome = true → p.type.isReference = true

/-- A type with a payable marker, which only an address can have. -/
@[mk_iff]
structure LocalField.Typed (enums : List String) (f : LocalField) : Prop where
  type : f.type.Printable enums
  payable : f.payable = true → f.type = .named "address"

/-- An argument of an event or error; its name may be empty. -/
@[mk_iff]
structure LocalField.PrintableArgument (enums : List String) (f : LocalField) : Prop where
  name : f.name = "" ∨ IsDeclarable f.name
  typed : f.Typed enums

/-- A struct member. -/
@[mk_iff]
structure LocalField.PrintableMember (enums : List String) (f : LocalField) : Prop where
  name : IsDeclarable f.name
  typed : f.Typed enums

/-- A state variable. -/
@[mk_iff]
structure Field.Printable (enums : List String) (f : Field) : Prop where
  name : IsDeclarable f.name
  type : f.type.Printable enums
  payable : f.payable = true → f.type = .named "address"
  initializer : ∀ value ∈ f.initializer, IsStretch value

/-- A struct. -/
@[mk_iff]
structure Structure.Printable (enums : List String) (s : Structure) : Prop where
  name : IsDeclarable s.name
  fields : ∀ f ∈ s.fields, f.PrintableMember enums

/-- An enum. -/
@[mk_iff]
structure Enumeration.Printable (e : Enumeration) : Prop where
  name : IsDeclarable e.name
  values : ∀ value ∈ e.values, IsDeclarable value

/-- An event. -/
@[mk_iff]
structure Event.Printable (enums : List String) (e : Event) : Prop where
  name : IsDeclarable e.name
  parameters : ∀ f ∈ e.parameters, f.PrintableArgument enums

/-- A custom error. -/
@[mk_iff]
structure ErrorDefinition.Printable (enums : List String) (e : ErrorDefinition) : Prop where
  name : IsDeclarable e.name
  parameters : ∀ f ∈ e.parameters, f.PrintableArgument enums

/-- The header of a function. -/
@[mk_iff]
structure Function.PrintableHeader (enums : List String) (f : Function) : Prop where
  name : IsDeclarable f.name
  parameters : ∀ p ∈ f.parameters, p.Printable enums
  returns : ∀ type ∈ f.returns, type.Passable enums

/-- The text of some statements, at a level. -/
def bodyText (level : Nat) (statements : List Statement) : String :=
  layoutAll .standard level (Statement.listFragments statements)

/-- A function whose body is laid out at a level. -/
@[mk_iff]
structure Function.Printable (enums : List String) (level : Nat) (f : Function) : Prop where
  header : f.PrintableHeader enums
  body : IsBody (bodyText level f.statements)

/-- A modifier whose body is laid out at a level. -/
@[mk_iff]
structure Modifier.Printable (enums : List String) (level : Nat) (m : Modifier) : Prop where
  name : IsDeclarable m.name
  parameters : ∀ p ∈ m.parameters, p.Printable enums
  body : IsBody (bodyText level m.statements)

/-- The data declared in a file, a contract or an interface. -/
@[mk_iff]
structure Definitions.PrintableData (enums : List String) (d : Definitions) : Prop where
  structures : ∀ s ∈ d.structures, s.Printable enums
  enumerations : ∀ e ∈ d.enumerations, e.Printable
  events : ∀ e ∈ d.events, e.Printable enums
  errors : ∀ e ∈ d.errors, e.Printable enums

/-- A contract. Contracts and interfaces inside it would not be printed. -/
@[mk_iff]
structure Contract.Printable (enums : List String) (c : Contract) : Prop where
  name : IsDeclarable c.name
  bases : ∀ base ∈ c.bases, IsDotted base
  fields : ∀ f ∈ c.fields, f.Printable enums
  data : c.definitions.PrintableData enums
  functions : ∀ f ∈ c.definitions.functions, f.Printable enums 2
  modifiers : ∀ m ∈ c.definitions.modifiers, m.Printable enums 2
  flat : c.definitions.contracts = [] ∧ c.definitions.interfaces = []

/-- An interface. Only the headers of its functions are printed, and no modifiers. -/
@[mk_iff]
structure Interface.Printable (enums : List String) (i : Interface) : Prop where
  name : IsDeclarable i.name
  parents : ∀ base ∈ i.parents, IsDotted base
  data : i.definitions.PrintableData enums
  functions : ∀ f ∈ i.definitions.functions, f.PrintableHeader enums
  modifiers : i.definitions.modifiers = []
  flat : i.definitions.contracts = [] ∧ i.definitions.interfaces = []

/-- A unit whose text can be read back. A modifier outside of contracts would be skipped. -/
@[mk_iff]
structure SourceUnit.Printable (u : SourceUnit) : Prop where
  license : Text.trimmed u.license = u.license ∧ '\n' ∉ u.license.toList
  pragma : IsStretch u.pragma
  imports : ∀ path ∈ u.imports, IsQuotable path
  data : u.definitions.PrintableData u.enumerationNames
  interfaces : ∀ i ∈ u.definitions.interfaces, i.Printable u.enumerationNames
  contracts : ∀ c ∈ u.definitions.contracts, c.Printable u.enumerationNames
  functions : ∀ f ∈ u.definitions.functions, f.Printable u.enumerationNames 1
  modifiers : u.definitions.modifiers = []

/-! ## Whether a unit is printable can be computed -/

section Decidable

variable (enums : List String)

instance (name : String) : Decidable (IsDeclarable name) :=
  inferInstanceAs (Decidable (_ ∧ _))

instance (name : String) : Decidable (IsDotted name) :=
  inferInstanceAs (Decidable (∀ part ∈ nameParts name, isIdentifier part = true))

instance (name : String) : Decidable (IsTypeName name) :=
  inferInstanceAs (Decidable (_ ∧ _))

instance TypeExpr.decidablePrintable : ∀ type : TypeExpr, Decidable (type.Printable enums)
  | named name => inferInstanceAs (Decidable (IsTypeName name ∧ name ∉ enums))
  | enumeration name => inferInstanceAs (Decidable (name ∈ enums))
  | mapping key value =>
    have := key.decidablePrintable
    have := value.decidablePrintable
    inferInstanceAs (Decidable (key.Printable enums ∧ value.Printable enums))
  | array element => element.decidablePrintable

instance (type : TypeExpr) : Decidable (type.Passable enums) :=
  inferInstanceAs (Decidable (_ ∨ _))

instance (p : Parameter) : Decidable (p.Printable enums) :=
  decidable_of_iff _ (Parameter.printable_iff enums p).symm

instance (f : LocalField) : Decidable (f.Typed enums) :=
  decidable_of_iff _ (LocalField.typed_iff enums f).symm

instance (f : LocalField) : Decidable (f.PrintableArgument enums) :=
  decidable_of_iff _ (LocalField.printableArgument_iff enums f).symm

instance (f : LocalField) : Decidable (f.PrintableMember enums) :=
  decidable_of_iff _ (LocalField.printableMember_iff enums f).symm

instance (f : Field) : Decidable (f.Printable enums) :=
  decidable_of_iff _ (Field.printable_iff enums f).symm

instance (s : Structure) : Decidable (s.Printable enums) :=
  decidable_of_iff _ (Structure.printable_iff enums s).symm

instance (e : Enumeration) : Decidable e.Printable :=
  decidable_of_iff _ (Enumeration.printable_iff e).symm

instance (e : Event) : Decidable (e.Printable enums) :=
  decidable_of_iff _ (Event.printable_iff enums e).symm

instance (e : ErrorDefinition) : Decidable (e.Printable enums) :=
  decidable_of_iff _ (ErrorDefinition.printable_iff enums e).symm

instance (f : Function) : Decidable (f.PrintableHeader enums) :=
  decidable_of_iff _ (Function.printableHeader_iff enums f).symm

instance (level : Nat) (f : Function) : Decidable (f.Printable enums level) :=
  decidable_of_iff _ (Function.printable_iff enums level f).symm

instance (level : Nat) (m : Modifier) : Decidable (m.Printable enums level) :=
  decidable_of_iff _ (Modifier.printable_iff enums level m).symm

instance (d : Definitions) : Decidable (d.PrintableData enums) :=
  decidable_of_iff _ (Definitions.printableData_iff enums d).symm

instance (c : Contract) : Decidable (c.Printable enums) :=
  decidable_of_iff _ (Contract.printable_iff enums c).symm

instance (i : Interface) : Decidable (i.Printable enums) :=
  decidable_of_iff _ (Interface.printable_iff enums i).symm

instance (u : SourceUnit) : Decidable u.Printable :=
  decidable_of_iff _ (SourceUnit.printable_iff u).symm

end Decidable

/-! ## Outlines -/

/-- A function without its statements. -/
def Function.outline (f : Function) : Function :=
  { f with statements := [] }

/-- A modifier without its statements. -/
def Modifier.outline (m : Modifier) : Modifier :=
  { m with statements := [] }

mutual

/-- Definitions without the statements of their functions and modifiers. -/
def Definitions.outline : Definitions → Definitions
  | { contracts, interfaces, structures, enumerations, events, errors, functions, modifiers } =>
    { contracts := Contract.listOutline contracts
      interfaces := Interface.listOutline interfaces
      structures, enumerations, events, errors
      functions := functions.map Function.outline
      modifiers := modifiers.map Modifier.outline }

/-- A contract without statements, whose bases are all of one kind. -/
def Contract.outline : Contract → Contract
  | { name, isAbstract, parents, implements, fields, definitions } =>
    { name, isAbstract, parents := parents ++ implements, implements := [], fields
      definitions := definitions.outline }

/-- Contracts without statements. -/
def Contract.listOutline : List Contract → List Contract
  | [] => []
  | c :: cs => c.outline :: Contract.listOutline cs

/-- An interface without statements. -/
def Interface.outline : Interface → Interface
  | { name, parents, definitions } => { name, parents, definitions := definitions.outline }

/-- Interfaces without statements. -/
def Interface.listOutline : List Interface → List Interface
  | [] => []
  | i :: is => i.outline :: Interface.listOutline is

end

/-- A unit without the statements of its functions and modifiers. -/
def SourceUnit.outline (u : SourceUnit) : SourceUnit :=
  { u with definitions := u.definitions.outline }

end Target
end ContractGen
