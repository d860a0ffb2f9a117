import ContractGen.Behavior.Compiled
import ContractGen.Behavior.Dispatch
import ContractGen.Behavior.Merge
import ContractGen.Behavior.Statechart
import ContractGen.Command.Arguments
import ContractGen.Command.Check
import ContractGen.Command.Generate
import ContractGen.Command.Inspect
import ContractGen.Command.Output
import ContractGen.Command.Program
import ContractGen.Command.Survey
import ContractGen.Data.Double
import ContractGen.Data.Json.Reader
import ContractGen.Data.Json.Writer
import ContractGen.Data.Record
import ContractGen.Data.Shortest
import ContractGen.Data.Toml.Moment
import ContractGen.Data.Toml.Reader
import ContractGen.Data.Toml.Scalar
import ContractGen.Data.Toml.Table
import ContractGen.Data.Value
import ContractGen.Diagnostic
import ContractGen.Domain.Aspect
import ContractGen.Domain.Codec
import ContractGen.Domain.Configuration
import ContractGen.Domain.Identifier
import ContractGen.Domain.Imports
import ContractGen.Domain.Loading
import ContractGen.Domain.Model
import ContractGen.Domain.ModelError
import ContractGen.Failure
import ContractGen.Files.Artifact
import ContractGen.Files.Disk
import ContractGen.Files.FileSystem
import ContractGen.Files.Listing
import ContractGen.Files.Path
import ContractGen.Files.Places
import ContractGen.Files.Registry
import ContractGen.Generation.Gap
import ContractGen.Generation.Generator
import ContractGen.Generation.Placeholder
import ContractGen.Generation.Plain
import ContractGen.Generation.Serializer
import ContractGen.Layout.Builder
import ContractGen.Layout.Fragment
import ContractGen.Lowering.Classification
import ContractGen.Lowering.Codec
import ContractGen.Lowering.Conversion
import ContractGen.Lowering.Element
import ContractGen.Lowering.Handler
import ContractGen.Lowering.Lower
import ContractGen.Lowering.Placement
import ContractGen.Main
import ContractGen.Pipeline.Context
import ContractGen.Pipeline.Lint
import ContractGen.Pipeline.Run
import ContractGen.Source.Cursor
import ContractGen.Source.Declarations
import ContractGen.Source.File
import ContractGen.Source.Lexer
import ContractGen.Source.Nesting
import ContractGen.Source.Token
import ContractGen.Source.TypeReader
import ContractGen.Target.Codec
import ContractGen.Target.Declaration
import ContractGen.Target.Function
import ContractGen.Target.Printer
import ContractGen.Target.SourceUnit
import ContractGen.Target.Statement
import ContractGen.Target.TypeExpr
import ContractGen.Text.Blank
import ContractGen.Text.Comparison
import ContractGen.Text.Mark
import ContractGen.Text.Taken
import ContractGen.Text.Unassigned
import ContractGen.Text.Visible
import ContractGen.Proofs.Glyphs
import ContractGen.Proofs.Layout
import ContractGen.Proofs.Printable
import ContractGen.Proofs.Printed
import ContractGen.Proofs.ReadDeclarations
import ContractGen.Proofs.ReadFile
import ContractGen.Proofs.RoundTrip
import ContractGen.Proofs.Forwarding
import ContractGen.Proofs.MergedBehavior
import ContractGen.Proofs.Placement
import ContractGen.Proofs.UserFiles
import ContractGen.Proofs.DropWarnings
import ContractGen.Proofs.ExistingFiles
import ContractGen.Proofs.InterfaceSplit
import ContractGen.Proofs.UnitLayout
import ContractGen.Proofs.Rewriting
import ContractGen.Proofs.Regeneration
import ContractGen.Proofs.Loading
import ContractGen.Proofs.ImportClosure
import ContractGen.Proofs.EnumTypes
import ContractGen.Proofs.LoweredUnits
import ContractGen.Proofs.OutputPaths
import ContractGen.Proofs.EnumLocations
import ContractGen.Proofs.InterfaceTypes
import ContractGen.Proofs.DryRun
import ContractGen.Proofs.ForwardedFunctions
import ContractGen.Proofs.FolderWrites
import ContractGen.Proofs.MappedTypes
import ContractGen.Proofs.JsonRoundTrip
import ContractGen.Proofs.ModelRoundTrip
import ContractGen.Proofs.MergeAccount
import ContractGen.Proofs.TokenTiling
import ContractGen.Proofs.ReadingWithin
import ContractGen.Proofs.ErrorPlaces
import ContractGen.Proofs.Excerpts
import ContractGen.Proofs.TypesReadBack
import ContractGen.Proofs.Redeclaration
import ContractGen.Proofs.DispatchConditions
import ContractGen.Proofs.ChartLines
import ContractGen.Proofs.ChartNotation
import ContractGen.Proofs.ChartAccount
import ContractGen.Proofs.SameTokens
import ContractGen.Proofs.SameDeclarations
import ContractGen.Proofs.PartialReading
import ContractGen.Proofs.Bodies
import ContractGen.Proofs.RespelledTrees
import ContractGen.Proofs.BodyIndependence
import ContractGen.Proofs.EnumResolution
import ContractGen.Proofs.DispatchGrammar
import ContractGen.Proofs.EditedValues
import ContractGen.Proofs.FlatLayout
import ContractGen.Proofs.TreeRoundTrip
import ContractGen.Proofs.NameTokens
import ContractGen.Proofs.ArtifactNames
