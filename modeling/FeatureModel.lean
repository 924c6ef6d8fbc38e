import FeatureModel.KindSet.Shelf
import FeatureModel.Main
import FeatureModel.Rule.Script
import FeatureModel.Workspace.Run
import FeatureModel.Proofs.Evaluation.Reference
import FeatureModel.Proofs.Report.Postcondition
import FeatureModel.Proofs.Rule.Builtin
import FeatureModel.Proofs.Evaluation.Verdict
import FeatureModel.Proofs.Graph.Representation
import FeatureModel.Proofs.Graph.Acceptance
import FeatureModel.Proofs.Record.Merging
import FeatureModel.Proofs.Evaluation.Findings
import FeatureModel.Proofs.Evaluation.Isolation
import FeatureModel.Proofs.Evaluation.Pairs
import FeatureModel.Proofs.Evaluation.Merged
import FeatureModel.Proofs.Evaluation.PoolHistory
import FeatureModel.Proofs.Rule.Guids
import FeatureModel.Proofs.Evaluation.Directions
import FeatureModel.Proofs.Rule.RepeatedGuids
import FeatureModel.Proofs.Evaluation.Permutation
import FeatureModel.Proofs.Graph.Export
import FeatureModel.Proofs.Graph.Lookup
import FeatureModel.Proofs.Graph.Adjacency
import FeatureModel.Proofs.Rule.Offers
import FeatureModel.Proofs.Report.Piecewise
import FeatureModel.Proofs.Evaluation.Lifecycle
import FeatureModel.Proofs.Draft.Schedule
import FeatureModel.Proofs.Report.Reading
import FeatureModel.Proofs.Report.Grouping
import FeatureModel.Proofs.Rule.Registration
import FeatureModel.Proofs.Evaluation.Setbacks
