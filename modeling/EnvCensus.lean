import EnvCensus.Main
import EnvCensus.Logging
import EnvCensus.Census.Pool
import EnvCensus.Proofs.Collation
import EnvCensus.Proofs.Distinct
import EnvCensus.Proofs.Merge
import EnvCensus.Proofs.Merge.Stages
import EnvCensus.Proofs.Merge.Reordering
import EnvCensus.Proofs.Disk
import EnvCensus.Proofs.Disk.Route
import EnvCensus.Proofs.Disk.Write
import EnvCensus.Proofs.Discovery
import EnvCensus.Proofs.Discovery.Frame
import EnvCensus.Proofs.Provider.References
import EnvCensus.Proofs.Dotenv
import EnvCensus.Proofs.Provider.Collection
import EnvCensus.Proofs.Census
import EnvCensus.Proofs.Command.Look
import EnvCensus.Proofs.Framework
import EnvCensus.Proofs.Report.Terminal
import EnvCensus.Proofs.Command.Outcome
import EnvCensus.Proofs.Command.Repetition
import EnvCensus.Proofs.Provider.BuiltIn
import EnvCensus.Proofs.Census.Growth
import EnvCensus.Proofs.Census.Publicity
import EnvCensus.Proofs.Census.Conventions
import EnvCensus.Proofs.Census.Names
import EnvCensus.Proofs.Census.Targets
import EnvCensus.Proofs.Census.Declarations
import EnvCensus.Proofs.Command.Display
import EnvCensus.Proofs.Gitignore
import EnvCensus.Proofs.Options.Precedence
import EnvCensus.Proofs.Config.Failures
import EnvCensus.Proofs.Discovery.Exactness
import EnvCensus.Proofs.Discovery.Completion
import EnvCensus.Proofs.Script.Embedded
import EnvCensus.Proofs.Manifest.Services
import EnvCensus.Proofs.Provider.LineNumbers
import EnvCensus.Proofs.Provider.Registry
import EnvCensus.Proofs.Script.Positions
import EnvCensus.Proofs.Script.Walk
import EnvCensus.Proofs.Script.Destructuring
import EnvCensus.Proofs.Script.Escapes
import EnvCensus.Proofs.Script
import EnvCensus.Proofs.Script.Guards
import EnvCensus.Proofs.Script.Blocks
import EnvCensus.Proofs.Script.Pieces
import EnvCensus.Proofs.Script.Layout
import EnvCensus.Proofs.Shell.References
import EnvCensus.Proofs.Shell.Grouping
import EnvCensus.Proofs.Shell.Exactness
import EnvCensus.Proofs.Dotenv.Quoting
import EnvCensus.Proofs.Check
import EnvCensus.Proofs.Command.Printing
import EnvCensus.Proofs.Manifest.Items
import EnvCensus.Proofs.Manifest.EnvFiles
import EnvCensus.Proofs.Manifest.Values
import EnvCensus.Proofs.Provider.Distribution
import EnvCensus.Proofs.Selection
import EnvCensus.Proofs.Discovery.Links
import EnvCensus.Proofs.Discovery.Repetition
import EnvCensus.Proofs.Provider.Coverage
import EnvCensus.Proofs.Config.Validation
import EnvCensus.Proofs.Options.Acceptance
import EnvCensus.Proofs.Report.Output
import EnvCensus.Proofs.Report.Markdown
import EnvCensus.Proofs.Census.Exchange
import EnvCensus.Proofs.Collation.Order
import EnvCensus.Proofs.Finding.Spelling
