import LinterSuite.CommandLine
import LinterSuite.Execution.Host
import LinterSuite.FileTree.Changes
import LinterSuite.Main
import LinterSuite.Sha256
import LinterSuite.Proofs.Fallible
import LinterSuite.Proofs.Grammar.Cut
import LinterSuite.Proofs.Grammar.Notation
import LinterSuite.Proofs.Text.Seams
import LinterSuite.Proofs.Text.Paths
import LinterSuite.Proofs.FileTree.Names
import LinterSuite.Proofs.FileTree.RealPath
import LinterSuite.Proofs.FileTree.Growth
import LinterSuite.Proofs.FileTree.MakeDirs
import LinterSuite.Proofs.FileTree.Contents
import LinterSuite.Proofs.FileTree.Absence
import LinterSuite.Proofs.Glob.Coverage
import LinterSuite.Proofs.Glob.Crossing
import LinterSuite.Proofs.Glob.Negation
import LinterSuite.Proofs.Selection.Pruning
import LinterSuite.Proofs.Selection.Growth
import LinterSuite.Proofs.Selection.Patterns
import LinterSuite.Proofs.Config.Merging
import LinterSuite.Proofs.Config.Layering
import LinterSuite.Proofs.Config.Dumps
import LinterSuite.Proofs.Config.Troubles
import LinterSuite.Proofs.CommandLine.Resolution
import LinterSuite.Proofs.Cache.HashMode
import LinterSuite.Proofs.Cache.History
import LinterSuite.Proofs.Cache.Saves
import LinterSuite.Proofs.Cache.Loads
import LinterSuite.Proofs.Cache.Replies
import LinterSuite.Proofs.Json.Torn
import LinterSuite.Proofs.Execution.Batches
import LinterSuite.Proofs.Execution.Packing
import LinterSuite.Proofs.Execution.Statuses
import LinterSuite.Proofs.Execution.Outputs
import LinterSuite.Proofs.Execution.Failures
import LinterSuite.Proofs.Execution.Supervision
import LinterSuite.Proofs.Execution.Executables
import LinterSuite.Proofs.Run.Completion
import LinterSuite.Proofs.Run.Reports
import LinterSuite.Proofs.Run.Traces
import LinterSuite.Proofs.Run.Outcomes
import LinterSuite.Proofs.Run.Stores
import LinterSuite.Proofs.Run.Seclusion
import LinterSuite.Proofs.Run.Accord
import LinterSuite.Proofs.Run.Schedules
import LinterSuite.Proofs.Run.Arguments
import LinterSuite.Proofs.Run.Resumption
import LinterSuite.Proofs.Run.Calls
import LinterSuite.Proofs.Run.Again
import LinterSuite.Proofs.Run.Alone
import LinterSuite.Proofs.Run.Refusals
import LinterSuite.Proofs.Run.Statuses
import LinterSuite.Proofs.Run.Sightings
import LinterSuite.Proofs.Report.Jsonl
import LinterSuite.Proofs.Report.Gnu
import LinterSuite.Proofs.Json.Faults
import LinterSuite.Proofs.Cache.Damage
import LinterSuite.Proofs.Cache.Fingerprints
import LinterSuite.Proofs.Run.Modified
