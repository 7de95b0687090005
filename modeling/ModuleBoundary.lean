import ModuleBoundary.Analysis
import ModuleBoundary.Analysis.Json
import ModuleBoundary.Analysis.Markdown
import ModuleBoundary.ApplicationModule
import ModuleBoundary.Calendar
import ModuleBoundary.ClassDescriptor
import ModuleBoundary.ClassGraph
import ModuleBoundary.ClassGraph.Json
import ModuleBoundary.Command
import ModuleBoundary.CommandLine
import ModuleBoundary.CommandLine.Help
import ModuleBoundary.Configuration
import ModuleBoundary.Configuration.Template
import ModuleBoundary.Configuration.Toml
import ModuleBoundary.Cycle
import ModuleBoundary.FileSystem
import ModuleBoundary.FileSystem.Memory
import ModuleBoundary.FileSystem.Tree
import ModuleBoundary.Glob
import ModuleBoundary.Identifier
import ModuleBoundary.Instant
import ModuleBoundary.Instant.Text
import ModuleBoundary.Json.Printer
import ModuleBoundary.Json.Reader
import ModuleBoundary.Json.Record
import ModuleBoundary.Json.Token
import ModuleBoundary.Json.Value
import ModuleBoundary.LogFilter
import ModuleBoundary.Main
import ModuleBoundary.Marker
import ModuleBoundary.ModuleDefinition
import ModuleBoundary.ModuleDefinition.Json
import ModuleBoundary.ModuleGraph
import ModuleBoundary.NameClash
import ModuleBoundary.NameSet
import ModuleBoundary.Package
import ModuleBoundary.Path
import ModuleBoundary.Publication
import ModuleBoundary.Publication.Codec
import ModuleBoundary.Publication.Entry
import ModuleBoundary.Publication.Memory
import ModuleBoundary.Publication.Registry
import ModuleBoundary.Publication.Store
import ModuleBoundary.Report
import ModuleBoundary.Rules
import ModuleBoundary.Rules.Json
import ModuleBoundary.Terminal
import ModuleBoundary.Text.Characters
import ModuleBoundary.Text.Quoted
import ModuleBoundary.Text.Uppercase
import ModuleBoundary.Text.Utf8
import ModuleBoundary.Toml.Node
import ModuleBoundary.Toml.Quoted
import ModuleBoundary.Toml.Reader
import ModuleBoundary.Toml.Record
import ModuleBoundary.Toml.Scalar
import ModuleBoundary.Verification
import ModuleBoundary.Violation
import ModuleBoundary.Proofs.Package.Containment
import ModuleBoundary.Proofs.FileSystem
import ModuleBoundary.Proofs.FileSystem.Tree
import ModuleBoundary.Proofs.Configuration
import ModuleBoundary.Proofs.Toml.Record
import ModuleBoundary.Proofs.Configuration.Slots
import ModuleBoundary.Proofs.ModuleGraph.Ownership
import ModuleBoundary.Proofs.ModuleGraph.Allowance
import ModuleBoundary.Proofs.ModuleGraph.Dependencies
import ModuleBoundary.Proofs.Cycle
import ModuleBoundary.Proofs.Cycle.Components
import ModuleBoundary.Proofs.Cycle.Search
import ModuleBoundary.Proofs.ModuleGraph.Cycles
import ModuleBoundary.Proofs.Publication.Memory
import ModuleBoundary.Proofs.Publication.Recovery
import ModuleBoundary.Proofs.Report
import ModuleBoundary.Proofs.ClassGraph.Filling
import ModuleBoundary.Proofs.ClassGraph.Inheritance
import ModuleBoundary.Proofs.ClassGraph.Rearrangement
import ModuleBoundary.Proofs.ModuleGraph.Findings
import ModuleBoundary.Proofs.ModuleGraph.Rearrangement
import ModuleBoundary.Proofs.Publication.Refinement
import ModuleBoundary.Proofs.Publication.History
import ModuleBoundary.Proofs.Publication.Iteration
import ModuleBoundary.Proofs.Publication.Resubmission
import ModuleBoundary.Proofs.ModuleGraph.Outcome
import ModuleBoundary.Proofs.ModuleGraph.Partition
import ModuleBoundary.Proofs.Report.Canonical
import ModuleBoundary.Proofs.ModuleGraph.Bare
import ModuleBoundary.Proofs.Publication.Publishing
import ModuleBoundary.Proofs.ModuleGraph.Declarations
import ModuleBoundary.Proofs.ModuleGraph.Loosening
import ModuleBoundary.Proofs.Json.Leaf
import ModuleBoundary.Proofs.Json.RoundTrip
import ModuleBoundary.Proofs.Json.Record
import ModuleBoundary.Proofs.Analysis.RoundTrip
import ModuleBoundary.Proofs.Report.Grouping
import ModuleBoundary.Proofs.Analysis.Markdown
import ModuleBoundary.Proofs.ClassGraph.RoundTrip
import ModuleBoundary.Proofs.ModuleGraph.Outsiders
import ModuleBoundary.Proofs.ModuleGraph.Enrichment
import ModuleBoundary.Proofs.ModuleGraph.InternalAccess
import ModuleBoundary.Proofs.ModuleGraph.UndeclaredDependencies
import ModuleBoundary.Proofs.Verification
import ModuleBoundary.Proofs.Command
import ModuleBoundary.Proofs.Glob.Completeness
import ModuleBoundary.Proofs.Glob.Soundness
import ModuleBoundary.Proofs.ApplicationModule.PublishedEvents
import ModuleBoundary.Proofs.ApplicationModule.Beans
import ModuleBoundary.Proofs.Report.Arrangement
import ModuleBoundary.Proofs.ClassGraph.Construction
