/-
This file models the summary of a sync (`rust-client/src/sync/mod.rs`).
-/

import MidenClient.Protocol

namespace MidenClient

/-- Contains stats about the sync operation. -/
structure SyncSummary where
  /-- Block number up to which the client has been synced. -/
  blockNum : BlockNumber
  /-- IDs of new public notes that the client has received. -/
  newPublicNotes : List NoteId
  /-- IDs of tracked notes that have been committed. -/
  committedNotes : List NoteId
  /-- IDs of notes that have been consumed. -/
  consumedNotes : List NoteId
  /-- IDs of on-chain accounts that have been updated. -/
  updatedAccounts : List AccountId
  /-- IDs of private accounts that have been locked. -/
  lockedAccounts : List AccountId
  /-- IDs of committed transactions. -/
  committedTransactions : List TransactionId
  deriving DecidableEq, Repr

end MidenClient
