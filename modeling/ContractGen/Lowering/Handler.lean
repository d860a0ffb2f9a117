import ContractGen.Behavior.Merge
import ContractGen.Diagnostic
import ContractGen.Domain.Configuration
import ContractGen.Domain.Imports
import ContractGen.Files.Artifact
import ContractGen.Lowering.Conversion
import ContractGen.Lowering.Element

/-!
# Handlers

A handler turns the elements of one kind into declarations. It knows the file that the element
comes from, the head of the files to be generated, and the compiler for state diagrams, if any.
-/

namespace ContractGen
namespace Lowering

open Behavior Target

/-- A declaration that a handler produces. -/
inductive Node
  | unit (u : SourceUnit)
  | contract (c : Contract)
  | struct (s : Structure)
  | event (e : Event)
  | error (e : ErrorDefinition)
  | enumeration (e : Enumeration)
deriving DecidableEq, Inhabited

/-- A declaration and the file it should go to, if the handler has an opinion. -/
structure Output where
  node : Node
  path : Option String := none
deriving DecidableEq, Inhabited

/-- What stands in the head of every generated file. -/
structure Header where
  license : String
  pragma : String
deriving DecidableEq, Repr

/-- The head that a configuration asks for. -/
def Header.ofConfiguration (c : Domain.Configuration) : Header :=
  { license := c.license, pragma := c.pragma }

instance : Inhabited Header := ⟨.ofConfiguration {}⟩

/-- What a handler can look at besides the element. -/
structure Surroundings where
  header : Header := default
  /-- The file in which the element is declared. -/
  source : Domain.ModelSource
  compiler : Option Compiler := none

/-- What a handler has to say about an element. -/
structure Response where
  output : Option Output := none
  diagnostics : List Diagnostic := []
  merges : List MergeReport := []
deriving DecidableEq, Inhabited

/-- A handler for the elements of one kind. -/
structure Handler where
  name : String
  kind : ElementKind
  run : Surroundings → Element → Response

/-- The name of the phase in which handlers run. -/
def phaseName : String := "lower"

/-- A warning about an element. -/
def warning (message location : String) : Diagnostic :=
  { severity := .warning, phase := phaseName, message, location := some location }

/-! ## The handlers for models, structures and enumerations -/

/-- Open a source unit for a model. -/
def Handler.model : Handler where
  name := "model"
  kind := .model
  run := fun around element =>
    match element with
    | .model m =>
      { output := some
          { node := .unit
              { name := m.name, license := around.header.license, pragma := around.header.pragma }
            path := some (Files.ArtifactRole.generatedInterface.fileName m.name) } }
    | _ => {}

/-- The note about a branch of the dispatcher of a contract that stays as it is. -/
def stayingNote (contract : String) (b : StayingBranch) : Diagnostic :=
  { severity := .info
    phase := phaseName
    message := "dispatch branch '" ++ b.condition ++ "' left unchanged: " ++ b.reason.text
    location := some (contract ++ "." ++ dispatcherName) }

/-- What there is to say about a merge. -/
def mergeNotes (r : MergeReport) : List Diagnostic :=
  match r.outcome with
  | .diagramMissing => [warning ("state diagram " ++ r.diagram ++ " not found") r.contract]
  | .noMatchingContract =>
    [warning ("diagram " ++ r.diagram ++ " compiled without a contract named '" ++ r.contract ++
      "'") r.contract]
  | .merged _ dispatch => dispatch.staying.map (stayingNote r.contract)

/-- A contract with the behaviour of a diagram, given by a path relative to the model. -/
def addBehavior (around : Surroundings) (c : Contract) (diagram : String) : Response :=
  let path := Path.join around.source.folder diagram
  match around.compiler with
  | none =>
    { output := some { node := .contract c }
      diagnostics :=
        [warning ("state behavior '" ++ diagram ++ "' ignored: no diagram compiler configured")
          c.name] }
  | some compiler =>
    match mergeBehavior compiler c path with
    | .error f =>
      { output := some { node := .contract c }
        diagnostics :=
          [warning ("could not compile diagram " ++ path ++ ": " ++ f.text) c.name] }
    | .ok (c', report) =>
      { output := some { node := .contract c' }
        diagnostics := mergeNotes report
        merges := [report] }

/-- Turn a structure into what it is classified as. -/
def Handler.struct : Handler where
  name := "structure"
  kind := .struct
  run := fun around element =>
    match element with
    | .struct s =>
      match classify s with
      | .contract =>
        match diagram? s with
        | some diagram => addBehavior around (contract s) diagram
        | none => { output := some { node := .contract (contract s) } }
      | .struct => { output := some { node := .struct (Lowering.struct s) } }
      | .event => { output := some { node := .event (event s) } }
      | .error => { output := some { node := .error (errorDefinition s) } }
    | _ => {}

/-- Turn an enumeration into one of the target language. -/
def Handler.enumeration : Handler where
  name := "enumeration"
  kind := .enumeration
  run := fun _ element =>
    match element with
    | .enumeration e => { output := some { node := .enumeration (Lowering.enumeration e) } }
    | _ => {}

/-- The handlers in use unless others are given. -/
def Handler.builtin : List Handler :=
  [.model, .struct, .enumeration]

/-- The handlers for a kind of element, in order. -/
def handlersFor (handlers : List Handler) (kind : ElementKind) : List Handler :=
  handlers.filter fun h => h.kind = kind

end Lowering
end ContractGen
