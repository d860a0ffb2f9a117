import ContractGen.Data.Value
import ContractGen.Diagnostic

/-!
# Reports for the user

A report is a list of parts that say what is shown, not how. On a terminal, problems go to the
error stream and all else to the output stream.
-/

namespace ContractGen
namespace Command

/-- A part of a report. -/
inductive Part
  /-- The heading of what follows. -/
  | heading (name : String)
  | keyValue (key value : String)
  | listItem (text : String)
  /-- Something that was added, such as a file. -/
  | addedItem (text : String)
  /-- Something that was left alone. -/
  | keptItem (text : String)
  /-- An error or a warning. -/
  | problem (text : String)
  /-- A line that sets apart what follows. -/
  | divider (label : String)
  /-- Text that is shown as it is. -/
  | preformatted (text : String)
  /-- An empty line. -/
  | newline
deriving DecidableEq, Repr, Inhabited

/-- A report. -/
abbrev Report : Type := List Part

namespace Part

/-- The text of a part on a terminal. -/
def text : Part → String
  | heading name => name ++ ":"
  | keyValue key value => key ++ ": " ++ value
  | listItem text => "  - " ++ text
  | addedItem text => "  + " ++ text
  | keptItem text => "  = " ++ text
  | problem text => text
  | divider label => "── " ++ label ++ " ──"
  | preformatted text => text
  | newline => ""

/-- The data form of a part: its kind, and its texts. -/
def toValue : Part → Data.Value
  | heading name => .strings ["section", name]
  | keyValue key value => .strings ["key_value", key, value]
  | listItem text => .strings ["list_item", text]
  | addedItem text => .strings ["added_item", text]
  | keptItem text => .strings ["kept_item", text]
  | problem text => .strings ["problem", text]
  | divider label => .strings ["divider", label]
  | preformatted text => .strings ["preformatted", text]
  | newline => .strings ["newline"]

/-- Whether a part goes to the error stream. -/
def isProblem : Part → Bool
  | problem _ => true
  | _ => false

end Part

/-- Parts as lines. -/
def terminalText (parts : List Part) : String :=
  String.join (parts.map fun p => p.text ++ "\n")

namespace Report

/-- What a report writes to the output stream. -/
def output (r : Report) : String :=
  terminalText (r.filter fun p => !p.isProblem)

/-- What a report writes to the error stream. -/
def errors (r : Report) : String :=
  terminalText (r.filter Part.isProblem)

end Report

/-- A diagnostic in a report: errors and warnings are problems, notes are not. -/
def diagnosticPart (d : Diagnostic) : Part :=
  let text := d.severity.text ++ ": " ++ d.message ++
    (match d.location with
      | none => ""
      | some location => "\n  --> " ++ location)
  match d.severity with
  | .error => .problem text
  | .warning => .problem text
  | .info => .preformatted text

/-- A number and a word in the right form. -/
def counted (n : Nat) (word : String) : String :=
  toString n ++ " " ++ (if n = 1 then word else word ++ "s")

end Command
end ContractGen
