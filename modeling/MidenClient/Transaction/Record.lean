/-
This file models the transaction records the client tracks
(`rust-client/src/transaction/record.rs`).

A record moves at most once: from pending to committed, or from pending to
discarded. Both transitions report whether they changed the record.
-/

import MidenClient.Protocol

namespace MidenClient

/-- Represents the cause of the discarded transaction. -/
inductive DiscardCause where
  | expired
  | inputConsumed
  | discardedInitialState
  | stale
  deriving DecidableEq, Repr

/-- Represents the status of a transaction. -/
inductive TransactionStatus where
  | pending
  | committed (blockNumber : BlockNumber) (commitTimestamp : ℕ)
  | discarded (cause : DiscardCause)
  deriving DecidableEq, Repr

namespace TransactionStatus

def isPending : TransactionStatus → Bool
  | .pending => true
  | _ => false

def isCommitted : TransactionStatus → Bool
  | .committed _ _ => true
  | _ => false

def isDiscarded : TransactionStatus → Bool
  | .discarded _ => true
  | _ => false

@[simp]
theorem isPending_iff (status : TransactionStatus) :
    status.isPending = true ↔ status = .pending := by
  cases status <;> simp [isPending]

theorem isCommitted_iff (status : TransactionStatus) :
    status.isCommitted = true ↔ ∃ block timestamp, status = .committed block timestamp := by
  cases status <;> simp [isCommitted]

theorem isDiscarded_iff (status : TransactionStatus) :
    status.isDiscarded = true ↔ ∃ cause, status = .discarded cause := by
  cases status <;> simp [isDiscarded]

end TransactionStatus

/-- Describes the details associated with a transaction. -/
structure TransactionDetails where
  accountId : AccountId
  initAccountState : Word
  finalAccountState : Word
  inputNoteNullifiers : List Word
  blockNum : BlockNumber
  submissionHeight : BlockNumber
  expirationBlockNum : BlockNumber
  creationTimestamp : ℕ
  deriving DecidableEq, Repr

/-- Describes a transaction that has been executed and is being tracked on the client. -/
structure TransactionRecord where
  id : TransactionId
  details : TransactionDetails
  status : TransactionStatus
  deriving DecidableEq, Repr

namespace TransactionRecord

/-- Updates (if necessary) the status to committed, and says whether it did. -/
def commitTransaction (record : TransactionRecord) (commitHeight : BlockNumber)
    (commitTimestamp : ℕ) : TransactionRecord × Bool :=
  match record.status with
  | .pending => ({ record with status := .committed commitHeight commitTimestamp }, true)
  | .discarded _ | .committed _ _ => (record, false)

/-- Updates (if necessary) the status to discarded, and says whether it did. -/
def discardTransaction (record : TransactionRecord) (cause : DiscardCause) :
    TransactionRecord × Bool :=
  match record.status with
  | .pending => ({ record with status := .discarded cause }, true)
  | .discarded _ | .committed _ _ => (record, false)

theorem commitTransaction_of_pending (record : TransactionRecord) (height : BlockNumber)
    (timestamp : ℕ) (pending : record.status = .pending) :
    (record.commitTransaction height timestamp).1 =
      { record with status := .committed height timestamp } := by
  simp only [commitTransaction, pending]

theorem commitTransaction_of_settled (record : TransactionRecord) (height : BlockNumber)
    (timestamp : ℕ) (settled : record.status ≠ .pending) :
    (record.commitTransaction height timestamp).1 = record := by
  unfold commitTransaction
  split
  · contradiction
  · rfl
  · rfl

theorem discardTransaction_of_pending (record : TransactionRecord) (cause : DiscardCause)
    (pending : record.status = .pending) :
    record.discardTransaction cause = ({ record with status := .discarded cause }, true) := by
  simp only [discardTransaction, pending]

end TransactionRecord

end MidenClient
