import BootStore.Device.Memory
import BootStore.Machine.Input
import BootStore.Main
import BootStore.Proofs.Placement
import BootStore.Proofs.Ranking
import BootStore.Proofs.RoundTrip
import BootStore.Proofs.Stamp
import BootStore.Proofs.Window
import BootStore.Proofs.Writing
import BootStore.Proofs.Surveying
import BootStore.Proofs.Updates
import BootStore.Proofs.Operations
import BootStore.Proofs.Opening
import BootStore.Proofs.CrashIsolation
import BootStore.Proofs.Durability
import BootStore.Proofs.ReadFailures
import BootStore.Proofs.FailedCommits
import BootStore.Proofs.Adjacency
import BootStore.Proofs.TornHeader
import BootStore.Proofs.Preservation
import BootStore.Proofs.Blanking
import BootStore.Proofs.Initialization
import BootStore.Proofs.InterruptedInitialization
import BootStore.Proofs.BootProgress
import BootStore.Proofs.Hosting
import BootStore.Proofs.ImageFile
import BootStore.Proofs.Failover
import BootStore.Proofs.ReadOnly
import BootStore.Proofs.WriteFrame
import BootStore.Proofs.Watching
import BootStore.Proofs.WriteProtection
import BootStore.Proofs.Assignment
import BootStore.Proofs.CommandLine
import BootStore.Proofs.SetGet
import BootStore.Proofs.RegionGrammar
import BootStore.Proofs.Packing
import BootStore.Proofs.StagedReading
import BootStore.Proofs.Programs
import BootStore.Proofs.LockUse
import BootStore.Proofs.Sharing
import BootStore.Proofs.MachineLocks
import BootStore.Proofs.LockExclusion
import BootStore.Proofs.Restamping
import BootStore.Proofs.BurstErrors
import BootStore.Proofs.ChecksumCoverage
import BootStore.Proofs.InPlace
import BootStore.Proofs.CommittedCopies
import BootStore.Proofs.Admission
import BootStore.Proofs.Ledger
import BootStore.Proofs.Spelling
import BootStore.Proofs.OrderedMap
import BootStore.Proofs.Deletion
import BootStore.Proofs.SafeGeometry
