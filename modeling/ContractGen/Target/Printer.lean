import ContractGen.Layout.Builder
import ContractGen.Target.SourceUnit

/-!
# Printing source units

Every node of the tree becomes fragments, which are laid out with the standard indentation.

* `signature` is the header of a function, without body or terminator.
* `SourceUnit.print` is the text of a whole file.
-/

namespace ContractGen
namespace Target

open Layout (Fragment)

/-- Put a separator between the parts of a list. -/
def joined (separator : String) (parts : List String) : String :=
  separator.intercalate parts

/-- A type followed by the payable marker, if it has one. -/
def typeText (type : TypeExpr) (payable : Bool) : String :=
  if payable then type.text ++ " payable" else type.text

/-- A declaration head followed by the declared name, which may be empty. -/
def withName (head name : String) : String :=
  if name.isEmpty then head else head ++ " " ++ name

/-- A parameter. The data location is only printed for reference types. -/
def Parameter.text (p : Parameter) : String :=
  let head :=
    match p.location with
    | some location =>
      if p.type.isReference then p.type.text ++ " " ++ location.keyword else p.type.text
    | none => p.type.text
  withName head p.name

/-- A list of parameters, without the parentheses. -/
def parameterList (ps : List Parameter) : String :=
  joined ", " (ps.map Parameter.text)

/-- A struct member, or an argument of an event or error. -/
def LocalField.text (f : LocalField) : String :=
  withName (typeText f.type f.payable) f.name

/-- A list of arguments, without the parentheses. -/
def localFieldList (fs : List LocalField) : String :=
  joined ", " (fs.map LocalField.text)

/-- A return type; reference types are returned in memory. -/
def returnText (type : TypeExpr) : String :=
  if type.isReference then type.text ++ " memory" else type.text

/-- The return list of a header, empty if nothing is returned. -/
def returnsText : List TypeExpr → String
  | [] => ""
  | types => " returns (" ++ joined ", " (types.map returnText) ++ ")"

/-- The virtual and override markers of a header. -/
def overrideMarks (isVirtual isOverride : Bool) : String :=
  (if isVirtual then " virtual" else "") ++ (if isOverride then " override" else "")

/-- A function header without body or terminator. -/
def signature (f : Function) : String :=
  "function " ++ f.name ++ "(" ++ parameterList f.parameters ++ ") " ++ f.visibility.keyword ++
    (match f.mutability with
      | some mutability => " " ++ mutability.keyword
      | none => "") ++
    overrideMarks f.isVirtual f.isOverride ++ returnsText f.returns

/-- The list of bases of a header, empty if there are none. -/
def basesText : List String → String
  | [] => ""
  | names => " is " ++ joined ", " names

mutual

/-- The fragments of a statement. -/
def Statement.fragments : Statement → List Fragment
  | .expression text => [.line (text ++ ";")]
  | .call function arguments => [.line (function ++ arguments ++ ";")]
  | .ret none => [.line "return;"]
  | .ret (some value) => [.line ("return " ++ value ++ ";")]
  | .revert message => [.line ("revert(\"" ++ message ++ "\");")]
  | .conditional [] otherwise => Statement.fallbackFragments otherwise
  | .conditional (branch :: branches) otherwise =>
    branch.fragment "if (" ::
      (Branch.laterFragments branches ++
        (match otherwise with
          | none => []
          | some statements =>
            [.block "\x7d else \x7b" (Statement.listFragments statements) none]) ++
        [.line "\x7d"])

/-- The fragments of a fallback without branches. -/
def Statement.fallbackFragments : Option (List Statement) → List Fragment
  | none => []
  | some statements => Statement.listFragments statements

/-- The fragments of a list of statements. -/
def Statement.listFragments : List Statement → List Fragment
  | [] => []
  | s :: ss => s.fragments ++ Statement.listFragments ss

/-- One arm, opened by the given text. -/
def Branch.fragment (opening : String) : Branch → Fragment
  | ⟨condition, statements⟩ =>
    .block (opening ++ condition ++ ") \x7b") (Statement.listFragments statements) none

/-- The arms after the first. -/
def Branch.laterFragments : List Branch → List Fragment
  | [] => []
  | b :: bs => b.fragment "\x7d else if (" :: Branch.laterFragments bs

end

/-- The line of a state variable. -/
def Field.fragment (f : Field) : Fragment :=
  .line (typeText f.type f.payable ++ " " ++ f.visibility.keyword ++ " " ++ f.name ++
    (match f.initializer with
      | some value => " = " ++ value
      | none => "") ++ ";")

/-- The block of a struct. -/
def Structure.fragment (s : Structure) : Fragment :=
  .bracedOrEmpty ("struct " ++ s.name) (s.fields.map fun f => .line (f.text ++ ";"))

/-- The values of an enum, a comma after each but the last. -/
def valueLines : List String → List Fragment
  | [] => []
  | [value] => [.line value]
  | value :: values => .line (value ++ ",") :: valueLines values

/-- The block of an enum. -/
def Enumeration.fragment (e : Enumeration) : Fragment :=
  .bracedOrEmpty ("enum " ++ e.name) (valueLines e.values)

/-- The line of an event. -/
def Event.fragment (e : Event) : Fragment :=
  .line ("event " ++ e.name ++ "(" ++ localFieldList e.parameters ++ ");")

/-- The line of a custom error. -/
def ErrorDefinition.fragment (e : ErrorDefinition) : Fragment :=
  .line ("error " ++ e.name ++ "(" ++ localFieldList e.parameters ++ ");")

/-- The block of a modifier, closed by the placeholder for the modified body. -/
def Modifier.fragment (m : Modifier) : Fragment :=
  .braced
    ("modifier " ++ m.name ++ "(" ++ parameterList m.parameters ++ ")" ++
      overrideMarks m.isVirtual m.isOverride ++ " \x7b")
    (Statement.listFragments m.statements ++ [.line "_;"])

/-- The block of a function. -/
def Function.fragment (f : Function) : Fragment :=
  .bracedOrEmpty (signature f) (Statement.listFragments f.statements)

/-- Each item as a group of its own. -/
def eachAlone {α : Type} (fragment : α → Fragment) (items : List α) : List (List Fragment) :=
  items.map fun item => [fragment item]

/-- The block of a contract. Contracts and interfaces nested in it are not printed. -/
def Contract.fragment (c : Contract) : Fragment :=
  let d := c.definitions
  .bracedOrEmpty
    ((if c.isAbstract then "abstract contract " else "contract ") ++ c.name ++ basesText c.bases)
    (Fragment.separated
      ([c.fields.map Field.fragment] ++
        eachAlone Structure.fragment d.structures ++
        eachAlone Enumeration.fragment d.enumerations ++
        [d.events.map Event.fragment] ++
        [d.errors.map ErrorDefinition.fragment] ++
        eachAlone Modifier.fragment d.modifiers ++
        eachAlone Function.fragment d.functions))

/-- The block of an interface. Its modifiers and nested contracts are not printed. -/
def Interface.fragment (i : Interface) : Fragment :=
  let d := i.definitions
  .bracedOrEmpty
    ("interface " ++ i.name ++ basesText i.parents)
    (Fragment.separated
      (eachAlone Structure.fragment d.structures ++
        eachAlone Enumeration.fragment d.enumerations ++
        [d.events.map Event.fragment] ++
        [d.errors.map ErrorDefinition.fragment] ++
        [d.functions.map fun f => .line (signature f ++ ";")]))

/-- The groups of file-level definitions, in printing order. -/
def Definitions.groups (d : Definitions) : List (List Fragment) :=
  eachAlone Enumeration.fragment d.enumerations ++
    eachAlone Structure.fragment d.structures ++
    [d.events.map Event.fragment] ++
    [d.errors.map ErrorDefinition.fragment] ++
    eachAlone Interface.fragment d.interfaces ++
    eachAlone Contract.fragment d.contracts ++
    eachAlone Function.fragment d.functions ++
    eachAlone Modifier.fragment d.modifiers

/-- The fragments of a whole file. -/
def SourceUnit.fragments (unit : SourceUnit) : List Fragment :=
  Fragment.separated
    ([[.comment (licenseTag ++ " " ++ unit.license),
        .line ("pragma solidity " ++ unit.pragma ++ ";")],
      unit.imports.map fun path => .line ("import \"" ++ path ++ "\";")] ++
      unit.definitions.groups)

/-- The text of a whole file. -/
def SourceUnit.print (unit : SourceUnit) : String :=
  Layout.render .standard unit.fragments

end Target
end ContractGen
