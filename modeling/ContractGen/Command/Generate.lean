import ContractGen.Command.Check
import ContractGen.Generation.Generator

/-!
# Generating contracts

Models are checked, lowered and laid out in the output folder. Errors in a model stop the run
before anything is lowered; they are a part of the report.
-/

namespace ContractGen
namespace Command

open Domain Files Generation Pipeline

/-- What became of the files. -/
inductive GenerateResult
  | written (output : String) (generated : Generated)
  /-- The files were only shown; it is also said whether the output folder exists. -/
  | preview (output : String) (files : List Entry) (outputExists : Bool)
  /-- The models have errors. -/
  | aborted
deriving DecidableEq, Inhabited

/-- What generating contracts came to. -/
structure GenerateReport where
  /-- The serializer in use. -/
  serializer : String
  diagnostics : List Diagnostic
  result : GenerateResult
deriving DecidableEq, Inhabited

/-- Why nothing could be generated. -/
inductive GenerateError
  /-- There is no such serializer. -/
  | selection (e : SelectionError)
  | failed (f : Failure)
deriving DecidableEq, Repr, Inhabited

/-- The message for the user. -/
def GenerateError.message : GenerateError → String
  | selection e => e.message
  | failed f => f.text

/-- The serializer that a configuration asks for. -/
def selectSerializer (c : Configuration) : Except SelectionError Serializer := do
  let set ← SerializerSet.ofList builtinSerializers
  set.get c.serializer

/-- Lower models that have been checked. -/
def lowerChecked (d : Disk) (checked : Context) : Except Failure Context :=
  inContext "Pipeline failed" ((plan d).runChecked checked)

/-- Lay out what models were lowered to. -/
def layOut (d : Disk) (s : Serializer) (c : Configuration) (dryRun : Bool) (context : Context) :
    Disk × Except GenerateError GenerateReport :=
  let report (result : GenerateResult) : GenerateReport :=
    { serializer := s.name, diagnostics := context.diagnostics, result }
  if dryRun then
    (d, .ok (report (.preview c.output (preview s d c.output context.units)
      (d.isFolder c.output))))
  else
    match Generation.generate s d c.output context.units with
    | (d', .error f) => (d', .error (.failed (f.within "Failed to generate contracts")))
    | (d', .ok generated) => (d', .ok (report (.written c.output generated)))

/-- Generate contracts from models. -/
def generate (d : Disk) (sources : List ModelSource) (c : Configuration) (dryRun : Bool) :
    Disk × Except GenerateError GenerateReport :=
  match selectSerializer c with
  | .error e => (d, .error (.selection e))
  | .ok s =>
    let checked := (plan d).check sources (.ofConfiguration c)
    if checked.hasErrors then
      (d, .ok { serializer := s.name, diagnostics := checked.diagnostics, result := .aborted })
    else
      match lowerChecked d checked with
      | .error f => (d, .error (.failed f))
      | .ok context => layOut d s c dryRun context

/-! ## The report -/

/-- The report about files that were written. -/
def renderWritten (serializer output : String) (g : Generated) : Report :=
  if !g.skippedUnits.isEmpty then
    [Part.problem ("warning: output folder " ++ output ++ " does not exist, skipped " ++
      String.intercalate ", " g.skippedUnits)]
  else
    g.skippedContracts.map (fun s =>
      Part.problem ("warning: skipped contract " ++ s.contract ++ ": " ++ s.reason)) ++
    [Part.heading ("Generated into " ++ output ++ " (" ++ serializer ++ ")")] ++
    g.written.map Part.addedItem ++
    (if g.kept.isEmpty then []
      else [Part.newline, Part.heading "Kept user files"] ++ g.kept.map Part.keptItem) ++
    [Part.newline,
      Part.keyValue "Summary"
        (counted g.written.length "file" ++ " written, " ++ toString g.kept.length ++ " kept")]

/-- The report about files that were only shown. -/
def renderPreview (output : String) (files : List Entry) (outputExists : Bool) : Report :=
  (if outputExists then []
    else [Part.problem ("warning: output folder " ++ output ++
      " does not exist, nothing would be generated")]) ++
    files.flatMap (fun f => [Part.divider f.path, Part.preformatted f.content]) ++
    [Part.divider "Summary",
      Part.preformatted (counted files.length "file" ++ " would be generated")]

namespace GenerateReport

/-- Whether there are no errors. -/
def isSuccess (r : GenerateReport) : Bool :=
  r.result ≠ .aborted && !r.diagnostics.any Diagnostic.isError

/-- The report for the user. -/
def render (r : GenerateReport) : Report :=
  r.diagnostics.map diagnosticPart ++
    match r.result with
    | .written output generated => renderWritten r.serializer output generated
    | .preview output files outputExists => renderPreview output files outputExists
    | .aborted => [.problem "error: validation failed, no contracts generated"]

end GenerateReport
end Command
end ContractGen
