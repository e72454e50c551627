import SnapshotTable.Artifact.Catalogue
import SnapshotTable.Coordinator
import SnapshotTable.Main
import SnapshotTable.Proofs.BestEffort
import SnapshotTable.Proofs.Buffer
import SnapshotTable.Proofs.Clock
import SnapshotTable.Proofs.Commit
import SnapshotTable.Proofs.Coordination
import SnapshotTable.Proofs.Descriptor
import SnapshotTable.Proofs.Direct
import SnapshotTable.Proofs.Disjoint
import SnapshotTable.Proofs.Exactness
import SnapshotTable.Proofs.Finality
import SnapshotTable.Proofs.Interleaving
import SnapshotTable.Proofs.Isolation
import SnapshotTable.Proofs.Lifecycle
import SnapshotTable.Proofs.Occupancy
import SnapshotTable.Proofs.Quarantine
import SnapshotTable.Proofs.Refinement
import SnapshotTable.Proofs.Rollback
import SnapshotTable.Proofs.Serial
import SnapshotTable.Proofs.Snapshot
import SnapshotTable.Proofs.Stability
import SnapshotTable.Proofs.Visibility
import SnapshotTable.Store.Faulty
import SnapshotTable.Proofs.Capture
import SnapshotTable.Proofs.Agreement
import SnapshotTable.Proofs.Batch
import SnapshotTable.Proofs.Counting
import SnapshotTable.Proofs.Comparison
import SnapshotTable.Proofs.Failure
import SnapshotTable.Proofs.Update
import SnapshotTable.Proofs.Recording
import SnapshotTable.Proofs.Faults
import SnapshotTable.Proofs.Delimiting
import SnapshotTable.Proofs.Canonical
import SnapshotTable.Proofs.Classification
import SnapshotTable.Proofs.Precedence
import SnapshotTable.Proofs.Selection
import SnapshotTable.Proofs.Registration
import SnapshotTable.Proofs.Hexadecimal
import SnapshotTable.Proofs.Document
import SnapshotTable.Proofs.Inversion
import SnapshotTable.Proofs.RowOrder
import SnapshotTable.Proofs.WriteSet
import SnapshotTable.Proofs.TwosComplement
