import Pomodorough.Library.AtomicSteps
import Pomodorough.Library.Serialized
import Pomodorough.Store.Records
import Pomodorough.Store.DeletionLedger
import Pomodorough.Store.Accounts
import Pomodorough.Store.LedgerSpec
import Pomodorough.Store.Resurrection
import Pomodorough.Store.Sequential
import Pomodorough.Store.Coverage
import Pomodorough.Store.UnlockedOpen
import Pomodorough.Store.Creation
import Pomodorough.Store.Startup
import Pomodorough.Library.Fallible
import Pomodorough.Library.KeyedLog
import Pomodorough.Store.SharedCoreValidation
import Pomodorough.Store.OperationLogs
import Pomodorough.Store.OperationDomains
import Pomodorough.Store.Sync
import Pomodorough.Store.Bootstrap
import Pomodorough.Store.Transactions
import Pomodorough.Store.AccountRuns
import Pomodorough.Store.Convergence
import Pomodorough.Store.Resolutions
import Pomodorough.Store.Revisions
import Pomodorough.Store.Outcomes
import Pomodorough.Store.Acknowledgements
import Pomodorough.Library.Traces
import Pomodorough.Web.Database
import Pomodorough.Web.WorkspaceCore
import Pomodorough.Web.WorkspaceTransactions
import Pomodorough.Web.BootstrapGate
import Pomodorough.Web.Responses
import Pomodorough.Web.Tabs
import Pomodorough.Web.QueueRetention
import Pomodorough.Web.ReferenceCore
import Pomodorough.Web.OutgoingClaims
import Pomodorough.Web.CompletionSurvival
import Pomodorough.Web.GateFencing
import Pomodorough.Web.DeliveryProof
import Pomodorough.Web.SnapshotRevisions
import Pomodorough.Web.FrozenResolution
import Pomodorough.Library.PagedFold
import Pomodorough.Store.PagedReplay
import Pomodorough.Library.Rfc3339
import Pomodorough.Store.WholeReplay
import Pomodorough.Server.OperationParser
import Pomodorough.Server.AcceptedBatches
import Pomodorough.Store.OperationTables
import Pomodorough.Store.StoredBatches
import Pomodorough.Server.Requests
import Pomodorough.Server.Hub
import Pomodorough.Store.Orderly
import Pomodorough.Store.Sessions
import Pomodorough.Store.LockedCalls
import Pomodorough.Store.GenerationFence
import Pomodorough.Server.Principals
import Pomodorough.Server.RequestFence
import Pomodorough.Store.RefreshRotation
import Pomodorough.Store.TrackedFiles
import Pomodorough.Server.Revocation
import Pomodorough.Library.Channels
import Pomodorough.Server.RevisionChannels
import Pomodorough.Server.RevisionDelivery
import Pomodorough.Server.StreamAuthority
import Pomodorough.Store.NativeChallenges
import Pomodorough.Store.OneTimeChallenges
import Pomodorough.Server.ClockAgreement
import Pomodorough.Library.JsonText
import Pomodorough.Library.TextBytes
import Pomodorough.Library.OrderedMaps
import Pomodorough.Restore.Trees
import Pomodorough.Restore.Ledger
import Pomodorough.Restore.Lineage
import Pomodorough.Restore.Snapshots
import Pomodorough.Store.ClockChunks
import Pomodorough.Store.TimerSoundness
import Pomodorough.Store.PersistedProjection
import Pomodorough.Store.SameReplacement
import Pomodorough.Library.SqlTransactions
import Pomodorough.Store.Replacement
import Pomodorough.Store.ReplacementPostcondition
import Pomodorough.Library.JsonObjects
import Pomodorough.Server.CommandWire
import Pomodorough.Store.Readiness
import Pomodorough.Store.ReadyStarts
import Pomodorough.Web.HintDelivery
import Pomodorough.Web.SessionFlows
import Pomodorough.Web.PendingSignOut
import Pomodorough.Web.PendingDeletion
import Pomodorough.Library.FixedWindows
import Pomodorough.Server.RateLimit
import Pomodorough.Library.Hexadecimal
import Pomodorough.Web.StorageUuid
import Pomodorough.Library.DateTimes
import Pomodorough.Web.DateTimes
import Pomodorough.Iroh.Frames
import Pomodorough.Library.Base64
import Pomodorough.Library.JsonBytes
import Pomodorough.Iroh.Invites
import Pomodorough.Iroh.DocumentedInvites
import Pomodorough.Library.PercentEncoding
import Pomodorough.Library.UrlReferences
import Pomodorough.Library.UrlResolution
import Pomodorough.Server.ReturnPaths
import Pomodorough.Library.Redirects
import Pomodorough.Web.LandingTokens
import Pomodorough.Library.Groupings
import Pomodorough.Server.HlcTick
import Pomodorough.Web.ClockOffsets
import Pomodorough.Library.NetworkAddresses
import Pomodorough.Server.ClientAddress
import Pomodorough.Library.HostJson
import Pomodorough.Store.UserLocks
import Pomodorough.Web.AccountContexts
import Pomodorough.Library.JsonSameness
import Pomodorough.Web.RecordEquality
import Pomodorough.Abi.BrowserCalls
import Pomodorough.Abi.BufferDiscipline
import Pomodorough.Restore.Installation
import Pomodorough.Library.FlatRecords
import Pomodorough.Restore.Copies
import Pomodorough.Restore.Interruptions
import Pomodorough.Restore.NextSnapshots
import Pomodorough.Library.CanonicalRecords
import Pomodorough.Restore.KeptDeletions
import Pomodorough.Restore.RoundTrips
import Pomodorough.Store.ResumedDeletions
import Pomodorough.Server.OpaqueTokens
import Pomodorough.Server.StandingSessions
import Pomodorough.Server.CheckedResponses
import Pomodorough.Server.ServedResponses
import Pomodorough.Server.DeliveredOperations
import Pomodorough.Library.Versions
import Pomodorough.Store.RevisionAgreement
import Pomodorough.Library.LexicalPaths
import Pomodorough.Server.WebFiles
