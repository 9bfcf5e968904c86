import ClassModel.Config
import ClassModel.Graph.Assignability
import ClassModel.Graph.Liveness
import ClassModel.Graph.SourceRule
import ClassModel.Graph.Walk
import ClassModel.Proofs.Graph.Ancestry
import ClassModel.Proofs.Graph.DefaultNames
import ClassModel.Proofs.Graph.InterfaceRemoval
import ClassModel.Proofs.Graph.Lookups
import ClassModel.Proofs.Graph.Nesting
import ClassModel.Proofs.Graph.Observations
import ClassModel.Proofs.Graph.OnDemand
import ClassModel.Proofs.Graph.Ordering
import ClassModel.Proofs.Graph.StandInNames
import ClassModel.Proofs.Graph.StandIns
import ClassModel.Proofs.Graph.ValueTypes
import ClassModel.Proofs.Graph.Walks
import ClassModel.Proofs.Log.Targets
import ClassModel.Proofs.NameParts
import ClassModel.Proofs.Snapshot.Documents
import ClassModel.Proofs.Snapshot.Hidden
import ClassModel.Proofs.Snapshot.Recounting
import ClassModel.Snapshot.Capture
import ClassModel.Snapshot.Codec
import ClassModel.Snapshot.Restore
