/-!
# Diagnostics

What a run has to tell about a model without stopping at once: errors, warnings and notes, each
from a phase and perhaps about a place.
-/

namespace ContractGen

/-- How serious a diagnostic is. -/
inductive Severity
  | error
  | warning
  | info
deriving DecidableEq, Repr, Inhabited

namespace Severity

/-- The word for a severity. -/
def text : Severity → String
  | error => "error"
  | warning => "warning"
  | info => "info"

/-- Every severity, the most serious one first. -/
def all : List Severity :=
  [error, warning, info]

/-- The severity with a given word. -/
def ofText? (text : String) : Option Severity :=
  all.find? fun s => s.text = text

/-- The position of a severity, the most serious one first. -/
def rank : Severity → Nat
  | error => 0
  | warning => 1
  | info => 2

end Severity

/-- A message about a model. -/
structure Diagnostic where
  severity : Severity
  /-- The phase that has found it. -/
  phase : String
  message : String
  /-- The element or file that it is about. -/
  location : Option String := none
deriving DecidableEq, Repr, Inhabited

namespace Diagnostic

/-- The diagnostic in one line. -/
def text (d : Diagnostic) : String :=
  d.severity.text ++ "[" ++ d.phase ++ "]: " ++ d.message ++
    (match d.location with
      | none => ""
      | some location => " (at " ++ location ++ ")")

/-- Whether a diagnostic is an error. -/
def isError (d : Diagnostic) : Bool :=
  d.severity = .error

/-- Whether a diagnostic is a warning. -/
def isWarning (d : Diagnostic) : Bool :=
  d.severity = .warning

end Diagnostic
end ContractGen
