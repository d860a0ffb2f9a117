import ContractGen.Diagnostic
import ContractGen.Lowering.Classification

/-!
# Lints

Checks of one model file. Errors keep the model from being lowered; warnings announce what
lowering will drop or decide.
-/

namespace ContractGen
namespace Pipeline

open Domain Lowering

/-- A check of a model file. -/
structure Lint where
  name : String
  description : String
  check : ModelSource → List Diagnostic

/-- The name of the phase in which lints run. -/
def lintPhase : String := "validate"

/-- A finding of a lint. -/
def finding (severity : Severity) (message location : String) : Diagnostic :=
  { severity, phase := lintPhase, message, location := some location }

/-- Texts separated by a text. -/
def joined (separator : String) (texts : List String) : String :=
  String.intercalate separator texts

/-- The warning about the number of contracts in a model with structures. -/
def contractCountMessage? (model : String) : (contracts : List String) → Option String
  | [] =>
    some ("model '" ++ model ++
      "' has structures but no contract; structs, events and errors will be dropped")
  | [_] => none
  | contracts =>
    some ("model '" ++ model ++ "' declares " ++ toString contracts.length ++ " contracts (" ++
      joined ", " contracts ++ "); members attach to the most recent one")

/-- A model with structures should have exactly one contract. -/
def Lint.contractCount : Lint where
  name := "contract-count"
  description := "Expect exactly one contract structure per model"
  check := fun source =>
    let structures := source.model.structures
    if structures.isEmpty then []
    else
      let contracts := (structures.filter fun s => classify s = .contract).map Structure.name
      (contractCountMessage? source.model.name contracts).toList.map fun message =>
        finding .warning message source.path

/-- The structures in front of the first contract, if there is one. -/
def structuresBeforeContract (structures : List Structure) : List Structure :=
  if structures.any fun s => classify s = .contract then
    structures.takeWhile fun s => classify s ≠ .contract
  else
    []

/-- A contract should be declared before the structures that go into it. -/
def Lint.declarationOrder : Lint where
  name := "declaration-order"
  description := "Declare the contract before the structures folded into it"
  check := fun source =>
    (structuresBeforeContract source.model.structures).map fun s =>
      finding .warning
        ((classify s).text ++ " '" ++ s.name ++
          "' is declared before any contract and will be dropped")
        (source.model.name ++ "." ++ s.name)

/-- The properties that a mapping aspect lacks. -/
def missingProperties (a : Aspect) : List String :=
  [Vocabulary.key, Vocabulary.value].filter fun key => (a.getText? key).isNone

/-- The error about the mapping aspect of an element, if it is incomplete. -/
def mappingFindings (aspects : List Aspect) (location : String) : List Diagnostic :=
  match findAspect? aspects Vocabulary.mapping with
  | none => []
  | some aspect =>
    match missingProperties aspect with
    | [] => []
    | missing =>
      [finding .error
        ("mapping aspect is missing property '" ++ joined "', '" missing ++ "'") location]

/-- The errors about mapping aspects in a structure. -/
def structureMappingFindings (s : Structure) : List Diagnostic :=
  s.fields.flatMap (fun f => mappingFindings f.aspects (s.name ++ "." ++ f.name)) ++
    s.operations.flatMap fun o => o.parameters.flatMap fun p =>
      mappingFindings p.aspects (s.name ++ "." ++ o.name ++ "." ++ p.name)

/-- A mapping aspect needs a key and a value type. -/
def Lint.mappingAspect : Lint where
  name := "mapping-aspect"
  description := "Require both key and value on mapping aspects"
  check := fun source => source.model.structures.flatMap structureMappingFindings

/-- The names that have occurred before, in order; `seen` holds those in front of the list. -/
def repeatedNames (seen : List String) : List String → List String
  | [] => []
  | name :: names =>
    if name ∈ seen then name :: repeatedNames seen names
    else repeatedNames (name :: seen) names

/-- The declared types of a model have different names. -/
def Lint.duplicateType : Lint where
  name := "duplicate-type"
  description := "Detect structures and enumerations with the same name"
  check := fun source =>
    (repeatedNames [] (source.model.types.map ComplexType.name)).map fun name =>
      finding .error
        ("duplicate type '" ++ name ++ "' in model '" ++ source.model.name ++ "'")
        (source.model.name ++ "." ++ name)

/-- The lints in use unless others are given. -/
def Lint.standard : List Lint :=
  [.contractCount, .declarationOrder, .mappingAspect, .duplicateType]

/-- What some lints have to say about some models, model by model. -/
def lintModels (lints : List Lint) (sources : List ModelSource) : List Diagnostic :=
  sources.flatMap fun source => lints.flatMap fun lint => lint.check source

end Pipeline
end ContractGen
