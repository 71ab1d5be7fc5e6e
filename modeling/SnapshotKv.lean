import SnapshotKv.Describe
import SnapshotKv.Foreign
import SnapshotKv.Main
import SnapshotKv.Proofs.ReadLaw
import SnapshotKv.Proofs.Conflicts
import SnapshotKv.Proofs.Compaction
import SnapshotKv.Proofs.Listings
import SnapshotKv.Proofs.Files
import SnapshotKv.Proofs.FailedCalls
import SnapshotKv.Proofs.Edits
import SnapshotKv.Proofs.Checked
import SnapshotKv.Proofs.Enumeration
import SnapshotKv.Proofs.Loading
import SnapshotKv.Proofs.Saving
import SnapshotKv.Proofs.WrittenJson
import SnapshotKv.Proofs.Retention
import SnapshotKv.Proofs.Homes
import SnapshotKv.Proofs.OnDisk
import SnapshotKv.Proofs.Durability
import SnapshotKv.Proofs.Endings
import SnapshotKv.Proofs.ScanPaths
import SnapshotKv.Proofs.SavePoints
import SnapshotKv.Proofs.DataFormat
import SnapshotKv.Proofs.Outdated
import SnapshotKv.Proofs.Courses
import SnapshotKv.Proofs.Seeks
import SnapshotKv.Proofs.EmptyKeys
import SnapshotKv.Proofs.Reclaiming
import SnapshotKv.Proofs.Filling
import SnapshotKv.Proofs.Layering
import SnapshotKv.Proofs.FailedSeeks
import SnapshotKv.Proofs.Refreshes
import SnapshotKv.Proofs.Identity
import SnapshotKv.Proofs.MapCommands
import SnapshotKv.Proofs.Stakes
import SnapshotKv.Proofs.Refusals
import SnapshotKv.Proofs.Replay
import SnapshotKv.Proofs.Agreement
import SnapshotKv.Proofs.Commuting
import SnapshotKv.Proofs.RawMemory
import SnapshotKv.Proofs.ReadOnly
import SnapshotKv.Proofs.ReadOnlyRuns
import SnapshotKv.Proofs.PrefixRanges
import SnapshotKv.Proofs.ScanBounds
import SnapshotKv.Proofs.VersionChains
