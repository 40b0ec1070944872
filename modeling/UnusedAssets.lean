import UnusedAssets.Main
import UnusedAssets.ProjectRoot
import UnusedAssets.Proofs.Candidate.LeadingPieces
import UnusedAssets.Proofs.Candidate.Pruning
import UnusedAssets.Proofs.CommandLine.RejectedConfig
import UnusedAssets.Proofs.CommandLine.SecondRun
import UnusedAssets.Proofs.Config.Acceptance
import UnusedAssets.Proofs.FileTree.NearestRoot
import UnusedAssets.Proofs.Listing.Completeness
import UnusedAssets.Proofs.Removal.Operand
import UnusedAssets.Proofs.Removal.Stability
import UnusedAssets.Proofs.Removal.Survival
import UnusedAssets.Proofs.Removal.Tracking
import UnusedAssets.Proofs.Report.Agreement
import UnusedAssets.Proofs.Rule.BundlerLists
import UnusedAssets.Proofs.Rule.Calls
import UnusedAssets.Proofs.Rule.Links
import UnusedAssets.Proofs.Rule.Registrations
import UnusedAssets.Proofs.Rule.Shapes
import UnusedAssets.Proofs.Settings
import UnusedAssets.Proofs.Survey.Counters
import UnusedAssets.Proofs.Survey.IllegibleFiles
import UnusedAssets.Proofs.Survey.MarkingRule
import UnusedAssets.Proofs.Survey.Repetition
import UnusedAssets.Proofs.Survey.SpelledRoots
import UnusedAssets.Proofs.Survey.Templates
import UnusedAssets.Proofs.Survey.UnresolvedNames
import UnusedAssets.Proofs.Target.NormalForm
import UnusedAssets.Proofs.Target.ViewNames
import UnusedAssets.Proofs.UsageGraph.Diagram
import UnusedAssets.Proofs.UsageGraph.Facts
import UnusedAssets.Proofs.UsageGraph.References
