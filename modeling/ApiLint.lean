import ApiLint.CommandLine.Run
import ApiLint.Document
import ApiLint.Linter
import ApiLint.Main
import ApiLint.Proofs.Rule.FindingPaths
import ApiLint.Proofs.Schema.Collector
import ApiLint.Proofs.Schema.Nesting
import ApiLint.Proofs.Linter.Configuration
import ApiLint.Proofs.Linter.PathEntry
import ApiLint.Proofs.Lists
import ApiLint.Proofs.Node.Outline
import ApiLint.Proofs.Node.Reordering
import ApiLint.Proofs.Node.Same
import ApiLint.Proofs.Schema.Composition
import ApiLint.Proofs.Schema.Merging
import ApiLint.Proofs.Rule.OutlinedReports
import ApiLint.Proofs.Rule.OutlinedParameters
import ApiLint.Proofs.Linter.KeyOrder
import ApiLint.Proofs.OpenApi.KindGrammar
import ApiLint.Proofs.Schema.References
import ApiLint.Proofs.Rule.ResponseRoots
import ApiLint.Proofs.Node.Erasure
import ApiLint.Proofs.Schema.Payload
import ApiLint.Proofs.Schema.ErasedPlaces
import ApiLint.Proofs.Schema.ErasedMerging
import ApiLint.Proofs.Rule.ErasedReports
import ApiLint.Proofs.Linter.Presets
import ApiLint.Proofs.Linter.Discovery
import ApiLint.Proofs.Linter.Files
import ApiLint.Proofs.CommandLine.Status
import ApiLint.Proofs.Glob.Expansion
import ApiLint.Proofs.Node.Additions
import ApiLint.Proofs.Walk.AddedNodes
import ApiLint.Proofs.Rule.ParameterFindings
import ApiLint.Proofs.Rule.Suggestions
import ApiLint.Proofs.Rule.SuggestedParameters
import ApiLint.Proofs.Rule.SuggestedTags
import ApiLint.Proofs.Linter.Suggestions
import ApiLint.Proofs.Report.RoundTrip
import ApiLint.Proofs.Node.Throughout
import ApiLint.Proofs.Yaml.Conversion
import ApiLint.Proofs.Document.WellFormed
import ApiLint.Proofs.Rule.Messages
import ApiLint.Proofs.CommandLine.CompactOutput
import ApiLint.Proofs.Linter.StarterConfiguration
import ApiLint.Proofs.Schema.Resolution
import ApiLint.Proofs.Schema.Absorption
import ApiLint.Proofs.Schema.Leaves
import ApiLint.Proofs.Schema.MergedComposition
import ApiLint.Proofs.Rule.RequiredProperties
import ApiLint.Proofs.Rule.ExtensionEntries
import ApiLint.Proofs.Schema.Reachable
import ApiLint.Proofs.Schema.PathEnds
import ApiLint.Proofs.Rule.AllOfBranches
import ApiLint.Proofs.Rule.BoundedCompositions
import ApiLint.Proofs.Rule.SingleReports
import ApiLint.Proofs.Rule.ReportedResponses
import ApiLint.Proofs.Rule.ReportedSchemas
import ApiLint.Proofs.Rule.ReportedTags
import ApiLint.Proofs.Rule.EntryFindings
import ApiLint.Proofs.Rule.MissingParameters
import ApiLint.Proofs.Rule.RepeatedParameters
import ApiLint.Proofs.Rule.ParameterLocations
import ApiLint.Proofs.Node.Removals
import ApiLint.Proofs.Rule.MovedParameters
import ApiLint.Proofs.Rule.RepeatedReports
import ApiLint.Proofs.Path.Pointer
import ApiLint.Proofs.Walk.Subtree
import ApiLint.Proofs.Linter.FoundFiles
import ApiLint.Proofs.Rule.Selection
import ApiLint.Proofs.Yaml.Mappings
import ApiLint.Proofs.CommandLine.Colours
import ApiLint.Proofs.OpenApi.PathTemplates
import ApiLint.Proofs.OpenApi.MediaTypes
import ApiLint.Proofs.Rule.ReportedSegments
import ApiLint.Proofs.Path.FromEnd
