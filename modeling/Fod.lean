import Fod.Replica.Consistency
import Fod.Namespace.OnePerName
import Fod.Namespace.Tree
import Fod.Fencing.Safety
import Fod.Mount.Handles
import Fod.Mount.Inodes
import Fod.Data.Streaming
import Fod.Quota.Safety
import Fod.Quota.Freeing
import Fod.Objects.CopyOnWrite
import Fod.Lifetime.Safety
import Fod.Replay.Links
import Fod.Upgrade.Sessions
import Fod.ReadCache.Coherence
import Fod.Import.FenceSafety
import Fod.Import.Frame
import Fod.Index.Duplicates
import Fod.Data.ReadPlan
import Fod.Data.SparseSeek
import Fod.ReadCache.Precedence
import Fod.Data.SwappedObject
import Fod.Data.FailedFlush
import Fod.Admission.LogicalTaskGate
import Fod.Failover.Safety
import Fod.ReadCache.HandleMetadata
import Fod.Locks.FlockLeases
import Fod.Locks.WaitGraph
import Fod.Acl.ModeSync
import Fod.Locks.MemoryRaces
import Fod.Replay.RemoveDirectory
import Fod.Rename.Refines
import Fod.Data.Segments
import Fod.Data.CopyBinaryRows
import Fod.Index.CopyTextRows
import Fod.Index.LostClean
import Fod.ReadCache.Fills
import Fod.Admission.PayloadBudget
