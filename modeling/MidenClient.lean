import MidenClient.Library.OrderedMap
import MidenClient.Library.Fallible
import MidenClient.Library.Grouping
import MidenClient.Library.HistoryTable
import MidenClient.Protocol
import MidenClient.Rpc.Transaction
import MidenClient.Transaction.Execution
import MidenClient.Transaction.KnownNotes
import MidenClient.Transaction.Recording
import MidenClient.Transaction.Record
import MidenClient.Sync.TransactionUpdateTracker
import MidenClient.Sync.DiscardCascade
import MidenClient.Sync.TransactionInclusion
import MidenClient.Sync.TransactionRecords
import MidenClient.Sync.OrderedNullifiers
import MidenClient.Sync.LostNullifiers
import MidenClient.Note.TrackerCalls
import MidenClient.Note.TrackerEvents
import MidenClient.Note.ImportedNotes
import MidenClient.Rpc.SyncNotes
import MidenClient.Sync.ReceivedNullifiers
import MidenClient.Sync.StateSync
import MidenClient.Sync.SyncEvents
import MidenClient.Library.Run
import MidenClient.Library.MountainRange
import MidenClient.Sync.ChainSync
import MidenClient.Sync.ChainMmr
import MidenClient.Sync.PartialMmr
import MidenClient.Sync.LocalStore
import MidenClient.Sync.SyncTransactions
import MidenClient.Sync.ProcessingNotes
import MidenClient.Account
import MidenClient.Note
import MidenClient.Store.NoteRecord
import MidenClient.Store.NoteHistory
import MidenClient.Note.NoteUpdateTracker
import MidenClient.Store.ClientStore
import MidenClient.Note.Import
import MidenClient.Store.SmtForest
import MidenClient.Store.ChainData
import MidenClient.Store.RootCounts
import MidenClient.Store.SmtTree
import MidenClient.Sqlite.Database
import MidenClient.Sqlite.Vault
import MidenClient.Sqlite.Storage
import MidenClient.Sqlite.Accounts
import MidenClient.Sqlite.StagedRoots
import MidenClient.Sqlite.Undo
import MidenClient.Sqlite.Rollback
import MidenClient.Sqlite.PassThrough
import MidenClient.Sqlite.StateSync
import MidenClient.Store.PendingRoots
import MidenClient.Store.StoreUpdate
import MidenClient.Sqlite.Locking
import MidenClient.Sqlite.AccountContent
import MidenClient.Sqlite.StoreRun
import MidenClient.Sqlite.StaleDiscards
import MidenClient.Sqlite.Failures
import MidenClient.Sqlite.BlockHeaders
import MidenClient.Sqlite.ChainNodes
import MidenClient.Idxdb.Accounts
import MidenClient.Idxdb.VaultCheck
import MidenClient.Sqlite.DeltaContent
import MidenClient.Idxdb.Failures
import MidenClient.Store.Atomicity
import MidenClient.Sqlite.RootRuns
import MidenClient.Web.SyncCoalescing
import MidenClient.Account.Addresses
import MidenClient.Store.HeaderWrites
import MidenClient.Account.AddressTags
import MidenClient.Sync.NoteTags
import MidenClient.Note.Transport
import MidenClient.Note.TransportBatches
import MidenClient.Store.AccountReads
import MidenClient.Transaction.DataStore
import MidenClient.Transaction.RequestedRoots
import MidenClient.Library.ChangeLog
import MidenClient.Rpc.AccountDetails
import MidenClient.Rpc.AccountMixtures
import MidenClient.Library.Panic
import MidenClient.Rpc.Conversions
import MidenClient.Rpc.NodeCalls
import MidenClient.Rpc.HarmlessAnswers
import MidenClient.Store.AccountCalls
import MidenClient.Sqlite.PendingRoots
import MidenClient.Sqlite.LockedRows
import MidenClient.Idxdb.LockedRows
import MidenClient.Store.AccountLock
import MidenClient.Rpc.NullifierPages
import MidenClient.Store.RootTracking
import MidenClient.Rpc.PagedChanges
import MidenClient.Sqlite.Pruning
import MidenClient.Keystore.FsKeystore
import MidenClient.Keystore.KeyIndexRuns
import MidenClient.Library.OrderedRead
import MidenClient.Library.DecimalText
import MidenClient.Utils
import MidenClient.Web.AssetAmounts
import MidenClient.Library.Codec
import MidenClient.Transaction.Request
import MidenClient.Transaction.RequestBuilder
import MidenClient.Transaction.RequestCodec
import MidenClient.Transaction.RequestedNotes
import MidenClient.Store.Serialization
import MidenClient.Library.CheckedSums
import MidenClient.Transaction.RequestValidation
import MidenClient.Transaction.ForeignInputs
import MidenClient.Sync.UpdateSummary
import MidenClient.Sqlite.Notes
import MidenClient.Idxdb.Notes
import MidenClient.Rpc.Endpoint
import MidenClient.Note.TrackedStates
import MidenClient.Store.NoteContent
import MidenClient.Store.NoteQueries
import MidenClient.Library.Base64
import MidenClient.Library.Document
import MidenClient.Note.NoteReader
import MidenClient.Idxdb.ExportedValues
import MidenClient.Idxdb.StoreExport
import MidenClient.Library.CallPipeline
import MidenClient.Web.WorkerMessages
import MidenClient.Web.WorkerCalls
import MidenClient.Web.WorkerRest
import MidenClient.Web.WorkerCallbacks
import MidenClient.Library.PromiseChain
import MidenClient.Web.ExclusiveCalls
import MidenClient.Sqlite.Migrations
import MidenClient.Idxdb.ClientVersion
import MidenClient.Store.TransactionRows
import MidenClient.Store.TransactionQueries
import MidenClient.Keystore.KeyContents
import MidenClient.Keystore.DirectoryKeys
import MidenClient.Keystore.WebKeyStore
