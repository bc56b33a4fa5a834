import ObsidianSync.Client.ActiveFile
import ObsidianSync.Client.ConfigRules
import ObsidianSync.Client.Encryption
import ObsidianSync.Client.GapRecovery
import ObsidianSync.Client.Ignore
import ObsidianSync.Client.IndexSaves
import ObsidianSync.Client.InitialSync
import ObsidianSync.Client.LaterRenames
import ObsidianSync.Client.LineMerge
import ObsidianSync.Client.PushPlan
import ObsidianSync.Client.ReconcilePlan
import ObsidianSync.Client.Transport
import ObsidianSync.Client.VaultWatcher
import ObsidianSync.History.Pages
import ObsidianSync.History.Retention
import ObsidianSync.Lib.SnapshotLog
import ObsidianSync.Link.AppliedSeq
import ObsidianSync.Link.Convergence
import ObsidianSync.Link.SingleWriter
import ObsidianSync.Replica.Paths
import ObsidianSync.Room.Bookkeeping
import ObsidianSync.Room.Collector
import ObsidianSync.Room.CriticalSections
import ObsidianSync.Room.Delivery
import ObsidianSync.Room.Exclusion
import ObsidianSync.Room.Flush
import ObsidianSync.Room.HandOff
import ObsidianSync.Room.Malformed
import ObsidianSync.Room.Recovery
import ObsidianSync.Room.SourceOfTruth
import ObsidianSync.Room.Tombstones
import ObsidianSync.Room.Vault
import ObsidianSync.Server.Accounts
import ObsidianSync.Server.Allocation
import ObsidianSync.Server.Clocks
import ObsidianSync.Server.ConflictBase
import ObsidianSync.Server.ExactRefs
import ObsidianSync.Server.Isolation
import ObsidianSync.Server.Labels
import ObsidianSync.Server.LivePaths
import ObsidianSync.Server.Migrations
import ObsidianSync.Server.Overwrite
import ObsidianSync.Server.Rejects
import ObsidianSync.Server.Renames
import ObsidianSync.Server.StoredPaths
import ObsidianSync.Server.Tokens
import ObsidianSync.Shared.VaultBytes
import ObsidianSync.Shared.VectorLaws
import ObsidianSync.Socket.Answers
import ObsidianSync.Socket.Authorization
import ObsidianSync.Socket.Backing
import ObsidianSync.Socket.Connections
import ObsidianSync.Socket.LoginLock
import ObsidianSync.Socket.Manifest
import ObsidianSync.Socket.Uploads
import ObsidianSync.History.Collection
import ObsidianSync.History.GcJob
