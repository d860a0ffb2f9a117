import ContractGen.Lowering.Placement
import ContractGen.Target.Codec

/-!
# The data form of lowered units

How what handlers produce, what is said about it, and the units made of it are written as data, and
how the former is read back.
-/

namespace ContractGen

open Data

/-- The data form of a diagnostic. The location is left out if there is none. -/
def Diagnostic.toValue (d : Diagnostic) : Value :=
  .record ([("severity", .string d.severity.text), ("phase", .string d.phase),
    ("message", .string d.message)] ++ d.location.toList.map fun l => ("location", .string l))

/-- The data form of a transition. -/
def Behavior.Transition.toValue (t : Behavior.Transition) : Value :=
  .record [("source", .string t.source), ("target", .string t.target),
    ("trigger", .string t.trigger), ("guard", .optional .string t.guard),
    ("action", .optional .string t.action)]

namespace Lowering

open Target

/-- The data form of a declaration. -/
def Node.toValue : Node → Value
  | unit u => .record [("unit", u.toValue)]
  | contract c => .record [("contract", c.toValue)]
  | struct s => .record [("struct", s.toValue)]
  | event e => .record [("event", e.toValue)]
  | error e => .record [("error_definition", e.toValue)]
  | enumeration e => .record [("enum", e.toValue)]

/-- Read a declaration. -/
def Node.ofValue? (v : Value) : Option Node :=
  match v.variant? with
  | some ("unit", some x) => (SourceUnit.ofValue? x.val).map unit
  | some ("contract", some x) => (Contract.ofValue? x.val).map contract
  | some ("struct", some x) => (Structure.ofValue? x.val).map struct
  | some ("event", some x) => (Event.ofValue? x.val).map event
  | some ("error_definition", some x) => (ErrorDefinition.ofValue? x.val).map error
  | some ("enum", some x) => (Enumeration.ofValue? x.val).map enumeration
  | _ => none

/-- The data form of a lowered unit. -/
def LoweredUnit.toValue (u : LoweredUnit) : Value :=
  .record [("unit", u.unit.toValue), ("origin", .string u.origin),
    ("output_path", .optional .string u.outputPath)]

end Lowering
end ContractGen
