import ErasureVault.Cluster.Repair
import ErasureVault.Cluster.Write
import ErasureVault.Config.Text
import ErasureVault.Node.Fault
import ErasureVault.Slots.Gate
import ErasureVault.Proofs.Field
import ErasureVault.Proofs.Interpolation
import ErasureVault.Proofs.Stripe
import ErasureVault.Proofs.Erasure
import ErasureVault.Proofs.Calls
import ErasureVault.Proofs.Key
import ErasureVault.Proofs.Quorum
import ErasureVault.Proofs.Record
import ErasureVault.Proofs.Contents
import ErasureVault.Proofs.Room
import ErasureVault.Proofs.Scans
import ErasureVault.Proofs.AgreedSize
import ErasureVault.Proofs.Recovery
import ErasureVault.Proofs.Tolerance
import ErasureVault.Proofs.Availability
import ErasureVault.Proofs.Slotwise
import ErasureVault.Proofs.Consistent
import ErasureVault.Proofs.Repairs
import ErasureVault.Proofs.Runs
import ErasureVault.Proofs.Answers
import ErasureVault.Proofs.Padding
import ErasureVault.Proofs.Acknowledged
import ErasureVault.Proofs.Restoration
import ErasureVault.Proofs.Retry
import ErasureVault.Proofs.Outcomes
import ErasureVault.Proofs.Distance
import ErasureVault.Proofs.Health
import ErasureVault.Proofs.Damage
import ErasureVault.Proofs.Interchange
import ErasureVault.Proofs.Accounts
import ErasureVault.Proofs.Interruption
import ErasureVault.Proofs.Removal
import ErasureVault.Proofs.Alike
import ErasureVault.Proofs.Separation
import ErasureVault.Proofs.SizeVerdict
import ErasureVault.Proofs.GivenUp
import ErasureVault.Proofs.Snapshots
import ErasureVault.Proofs.Connecting
import ErasureVault.Proofs.InRange
import ErasureVault.Proofs.Decision
import ErasureVault.Proofs.WriteVerdict
import ErasureVault.Proofs.Check
import ErasureVault.Proofs.Rebuilding
import ErasureVault.Proofs.Pieces
import ErasureVault.Proofs.ShardFile
import ErasureVault.Proofs.Naming
import ErasureVault.Proofs.Rejection
import ErasureVault.Proofs.SizeRecord
