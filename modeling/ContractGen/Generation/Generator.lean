import ContractGen.Generation.Gap
import ContractGen.Generation.Plain

/-!
# Generating files

The files of all units are collected and then either shown or written. Nothing is generated if the
output folder does not exist.
-/

namespace ContractGen
namespace Generation

open Files Lowering

/-- The serializers that can be asked for. -/
def builtinSerializers : List Serializer :=
  [Gap.serializer, Plain.serializer]

/-- The name of the language that is generated. -/
def language : String := "solidity"

/-- The files of all units. -/
structure Collected where
  registry : Registry := {}
  /-- Units that no files are made for, because there is no output folder. -/
  skippedUnits : List String := []
  skippedContracts : List SkippedContract := []
deriving DecidableEq, Inhabited

/-- What generating files came to. -/
structure Generated where
  written : List String := []
  /-- Files of the user that already existed. -/
  kept : List String := []
  skippedUnits : List String := []
  skippedContracts : List SkippedContract := []
deriving DecidableEq, Inhabited

/-- Collect the files of units for an output folder. -/
def collect (s : Serializer) (d : Disk) (folder : String) (units : List LoweredUnit) : Collected :=
  if d.isFolder folder then
    let laidOut := units.map (s.serialize d folder)
    { registry := { entries := laidOut.flatMap Serialized.files }
      skippedContracts := laidOut.flatMap Serialized.skipped }
  else
    { skippedUnits := units.map fun u => u.unit.name }

/-- The files that would be written, in the order of writing. -/
def preview (s : Serializer) (d : Disk) (folder : String) (units : List LoweredUnit) :
    List Entry :=
  (collect s d folder units).registry.ordered

/-- Write the files of units into an output folder. -/
def generate (s : Serializer) (d : Disk) (folder : String) (units : List LoweredUnit) :
    Disk × Except Failure Generated :=
  let collected := collect s d folder units
  match collected.registry.writeAll folder d with
  | (d', .error f) => (d', .error f.toFailure)
  | (d', .ok stats) =>
    (d', .ok
      { written := stats.written
        kept := stats.skipped
        skippedUnits := collected.skippedUnits
        skippedContracts := collected.skippedContracts })

end Generation
end ContractGen
