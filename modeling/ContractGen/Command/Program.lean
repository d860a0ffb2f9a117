import ContractGen.Command.Arguments
import ContractGen.Command.Generate
import ContractGen.Domain.Imports

/-!
# The program

The whole program as a function: arguments and a disk go in, and the disk, the texts on both
streams and an exit code come out.
-/

namespace ContractGen
namespace Command

open Domain Files

/-- What a run of the program leaves behind, besides the disk. -/
structure Outcome where
  exitCode : Nat := 0
  output : String := ""
  errors : String := ""
deriving DecidableEq, Repr, Inhabited

/-- The name of the program and its version. -/
def versionText : String := "solgen 0.3.0\n"

/-- How the program is used. -/
def helpText : String :=
  "Generate Solidity contracts from domain models\n\n" ++
  "Usage: solgen [OPTIONS] <COMMAND>\n\n" ++
  "Commands:\n" ++
  "  generate  Generate contracts from a model and its imports\n" ++
  "  check     Validate a model without generating contracts\n" ++
  "  inspect   Print the lowered contract AST\n\n" ++
  "Options:\n" ++
  "  -v, --verbose...  Increase log output (-v info, -vv debug)\n" ++
  "  -h, --help        Print help\n" ++
  "  -V, --version     Print version\n"

/-- The outcome when no command is run. -/
def Stop.outcome : Stop → Outcome
  | usage message => { exitCode := 2, errors := "error: " ++ message ++ "\n" }
  | help => { output := helpText }
  | version => { output := versionText }

/-- The outcome of a run with a report. -/
def Report.outcome (r : Report) (success : Bool) : Outcome :=
  { exitCode := if success then 0 else 1, output := r.output, errors := r.errors }

/-- The outcome when a file cannot be loaded. -/
def modelErrorOutcome (e : ModelError) : Outcome :=
  { exitCode := 1
    errors := e.code ++ "\n  × " ++ e.message ++ "\n" ++
      (match e.help? with
        | none => ""
        | some help => "  help: " ++ help ++ "\n") }

/-- The outcome of a run that failed with a message. -/
def failureOutcome (message : String) : Outcome :=
  { exitCode := 1, errors := "Error: " ++ message ++ "\n" }

/-- The configuration of a run: a file, and what replaces its values. -/
def configure (d : Disk) (config : Option String) (folder : String) (overrides : Overrides) :
    Except ModelError Configuration := do
  let c ← Configuration.discover d config folder
  return c.override overrides

/-- The path of the model and of the configuration, and what replaces the values of the latter. -/
def Request.inputs : Request → String × Option String × Overrides
  | generate model config overrides _ => (model, config, overrides)
  | check model config => (model, config, {})
  | inspect model config _ => (model, config, {})

/-- Load what a request needs: the configuration and then the models. -/
def Request.load (d : Disk) (r : Request) :
    Except ModelError (Configuration × List ModelSource) := do
  let (model, config, overrides) := r.inputs
  let c ← configure d config "." overrides
  let sources ← resolveModels d model
  return (c, sources)

/-- Do what is asked for with the models that were loaded. -/
def Request.perform (d : Disk) (c : Configuration) (sources : List ModelSource) :
    Request → Disk × Outcome
  | generate _ _ _ dryRun =>
    match Command.generate d sources c dryRun with
    | (d', .ok report) => (d', Report.outcome report.render report.isSuccess)
    | (d', .error e) => (d', failureOutcome e.message)
  | check model _ =>
    let report := Command.check d sources c model
    (d, Report.outcome report.render report.isValid)
  | inspect _ _ format =>
    match Command.inspect d sources c format with
    | .ok report => (d, Report.outcome report true)
    | .error f => (d, failureOutcome f.text)

/-- Run the program. -/
def run (d : Disk) (arguments : List String) : Disk × Outcome :=
  match readInvocation {} arguments with
  | .error stop => (d, stop.outcome)
  | .ok invocation =>
    match invocation.request.load d with
    | .error e => (d, modelErrorOutcome e)
    | .ok (c, sources) => invocation.request.perform d c sources

end Command
end ContractGen
