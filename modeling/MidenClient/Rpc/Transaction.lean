/-
This file models what the node reports about transactions
(`rust-client/src/rpc/domain/transaction.rs`): the records of the transactions that
landed in a range of blocks, and the part of a record the transaction tracker reads.

Of an input note commitment only the nullifier is kept, since nothing else of it is
read during a sync.
-/

import MidenClient.Protocol

namespace MidenClient

/-- The header of a transaction as the node reports it. -/
structure TransactionHeader where
  id : TransactionId
  accountId : AccountId
  initialStateCommitment : Word
  finalStateCommitment : Word
  inputNotes : List Nullifier
  deriving DecidableEq, Repr

/-- Contains information about a transaction that got included in the chain at a specific
block number. -/
structure RpcTransactionRecord where
  blockNum : BlockNumber
  transactionHeader : TransactionHeader
  deriving DecidableEq, Repr

/-- Represents a transaction that was included in the node at a certain block. -/
structure TransactionInclusion where
  transactionId : TransactionId
  blockNum : BlockNumber
  accountId : AccountId
  initialStateCommitment : Word
  deriving DecidableEq, Repr

/-- The inclusion `fetch_transaction_data` derives from a record of the node. -/
def RpcTransactionRecord.toInclusion (record : RpcTransactionRecord) : TransactionInclusion where
  transactionId := record.transactionHeader.id
  blockNum := record.blockNum
  accountId := record.transactionHeader.accountId
  initialStateCommitment := record.transactionHeader.initialStateCommitment

end MidenClient
