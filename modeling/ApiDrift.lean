import ApiDrift.CallGraph.Assembly
import ApiDrift.CallGraph.Basic
import ApiDrift.CallGraph.Components
import ApiDrift.CallGraph.Digraph
import ApiDrift.CallGraph.Search
import ApiDrift.Failure
import ApiDrift.Impact.Config
import ApiDrift.Impact.Level
import ApiDrift.Impact.Report
import ApiDrift.Impact.Setting
import ApiDrift.Impact.Summary
import ApiDrift.InsertionMap
import ApiDrift.Journal.Basic
import ApiDrift.Journal.Event
import ApiDrift.Journal.Record
import ApiDrift.Journal.Traced
import ApiDrift.Keyed
import ApiDrift.Reference
import ApiDrift.Release.Bump
import ApiDrift.Release.Change
import ApiDrift.Release.Diff
import ApiDrift.Release.Matching
import ApiDrift.Release.Run
import ApiDrift.Signature.Compare
import ApiDrift.Signature.Detail
import ApiDrift.Signature.Pairing
import ApiDrift.Signature.Run
import ApiDrift.Snapshot.Basic
import ApiDrift.Snapshot.Signature
import ApiDrift.Snapshot.TypeExpr
import ApiDrift.Text.Blank
import ApiDrift.Text.Quoted
import ApiDrift.Text.Unprintable
import ApiDrift.TypeRelation.Basic
import ApiDrift.TypeRelation.Comparator
import ApiDrift.TypeText.Alternatives
import ApiDrift.TypeText.Brackets
import ApiDrift.Vocabulary
import ApiDrift.Proofs.CallGraph.Assembly
import ApiDrift.Proofs.CallGraph.BySource
import ApiDrift.Proofs.CallGraph.Components
import ApiDrift.Proofs.CallGraph.Interleaving
import ApiDrift.Proofs.CallGraph.Layers
import ApiDrift.Proofs.CallGraph.Merging
import ApiDrift.Proofs.CallGraph.Rebuild
import ApiDrift.Proofs.CallGraph.Recursion
import ApiDrift.Proofs.CallGraph.References
import ApiDrift.Proofs.CallGraph.Walk
import ApiDrift.Proofs.Distinct
import ApiDrift.Proofs.Impact.Accounting
import ApiDrift.Proofs.Impact.Batch
import ApiDrift.Proofs.Impact.BatchGrowth
import ApiDrift.Proofs.Impact.Callers
import ApiDrift.Proofs.Impact.Cycles
import ApiDrift.Proofs.Impact.Growth
import ApiDrift.Proofs.Impact.Resolution
import ApiDrift.Proofs.Impact.Thresholds
import ApiDrift.Proofs.Impact.Totals
import ApiDrift.Proofs.Release.Grouping
import ApiDrift.Proofs.Release.Identity
import ApiDrift.Proofs.Release.Lookup
import ApiDrift.Proofs.Release.Matching
import ApiDrift.Proofs.Release.Mirror
import ApiDrift.Proofs.Release.Parts
import ApiDrift.Proofs.Release.Soundness
import ApiDrift.Proofs.Signature.Compatibility
import ApiDrift.Proofs.Signature.Continuation
import ApiDrift.Proofs.Signature.Mirror
import ApiDrift.Proofs.Signature.Pairing
import ApiDrift.Proofs.Signature.Pass
import ApiDrift.Proofs.Signature.Partners
import ApiDrift.Proofs.Signature.Places
import ApiDrift.Proofs.Release.Documentation
import ApiDrift.Proofs.Release.Coverage
import ApiDrift.Proofs.Release.Reordering
import ApiDrift.Proofs.Release.Conservation
import ApiDrift.Proofs.TypeRelation.Members
import ApiDrift.Proofs.Signature.Equivalence
import ApiDrift.Proofs.Signature.Turnover
import ApiDrift.Proofs.CallGraph.Queue
import ApiDrift.Proofs.Impact.DepthLimit
import ApiDrift.Proofs.Text.Blanks
import ApiDrift.Proofs.Text.Words
import ApiDrift.Proofs.TypeText.NormalForm
import ApiDrift.Proofs.TypeText.Joining
import ApiDrift.Proofs.TypeText.Balance
import ApiDrift.Proofs.TypeText.Spellings
import ApiDrift.Proofs.TypeText.Arrows
import ApiDrift.Proofs.TypeText.Marks
import ApiDrift.Proofs.TypeText.Spacing
import ApiDrift.Proofs.TypeRelation.Appending
import ApiDrift.Proofs.TypeRelation.Formatting
import ApiDrift.Proofs.Signature.Rearrangement
import ApiDrift.Proofs.Signature.Shortening
import ApiDrift.Proofs.Signature.Reasons
import ApiDrift.Proofs.Release.Consistency
import ApiDrift.Proofs.Impact.Validation
import ApiDrift.Proofs.Impact.Exports
import ApiDrift.Proofs.Signature.Tracing
import ApiDrift.Proofs.Release.Tracing
import ApiDrift.Proofs.TypeText.Splitting
