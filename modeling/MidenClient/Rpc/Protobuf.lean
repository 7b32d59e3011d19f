/-
This file lists the messages that the node answers with, as far as the client reads them
(`rust-client/src/rpc/generated.rs` takes them from the build). Every field that is a message
can be missing, and every number can have any value of its type.
-/

import MidenClient.Library.OrderedMap

namespace MidenClient

open Std (ExtTreeMap)

/-- Sequences of bytes that the protocol library reads. -/
abbrev Bytes := List UInt8

namespace Proto

/-! ### Primitives -/

structure Digest where
  d0 : UInt64
  d1 : UInt64
  d2 : UInt64
  d3 : UInt64

structure AccountId where
  id : Bytes

structure MerklePath where
  siblings : List Digest

structure SparseMerklePath where
  emptyNodesMask : UInt64
  siblings : List Digest

structure SmtLeafEntry where
  key : Option Digest
  value : Option Digest

inductive SmtLeaf where
  | emptyLeafIndex (index : UInt64)
  | single (entry : SmtLeafEntry)
  | multiple (entries : List SmtLeafEntry)

structure SmtOpening where
  leaf : Option (Option SmtLeaf)
  path : Option SparseMerklePath

structure MmrDelta where
  forest : UInt64
  data : List Digest

structure Asset where
  key : Option Digest
  value : Option Digest

structure PaginationInfo where
  chainTip : UInt32
  blockNum : UInt32

/-! ### Blocks -/

structure FeeParameters where
  nativeAssetId : Option AccountId
  verificationBaseFee : UInt32

structure BlockHeader where
  version : UInt32
  prevBlockCommitment : Option Digest
  blockNum : UInt32
  chainCommitment : Option Digest
  accountRoot : Option Digest
  nullifierRoot : Option Digest
  noteRoot : Option Digest
  txCommitment : Option Digest
  validatorKey : Option Bytes
  txKernelCommitment : Option Digest
  feeParameters : Option FeeParameters
  timestamp : UInt32

structure BlockHeaderByNumberResponse where
  blockHeader : Option BlockHeader
  chainLength : Option UInt64
  mmrPath : Option MerklePath

structure BlockRange where
  blockFrom : UInt32
  blockTo : Option UInt32

structure SyncChainMmrResponse where
  blockRange : Option BlockRange
  mmrDelta : Option MmrDelta

/-! ### Notes -/

structure NoteId where
  id : Option Digest

structure NoteMetadata where
  sender : Option AccountId
  noteType : Int32
  tag : UInt32
  attachment : Bytes

structure NoteHeader where
  noteId : Option NoteId
  metadata : Option NoteMetadata

structure NoteInclusionInBlockProof where
  noteId : Option NoteId
  blockNum : UInt32
  noteIndexInBlock : UInt32
  inclusionPath : Option SparseMerklePath

structure NoteMetadataHeader where
  sender : Option AccountId
  noteType : Int32
  tag : UInt32
  attachmentKind : Int32

structure NoteSyncRecord where
  metadataHeader : Option NoteMetadataHeader
  inclusionProof : Option NoteInclusionInBlockProof

structure NoteSyncBlock where
  blockHeader : Option BlockHeader
  mmrPath : Option MerklePath
  notes : List NoteSyncRecord

structure SyncNotesResponse where
  paginationInfo : Option PaginationInfo
  blocks : List NoteSyncBlock

structure Note where
  metadata : Option NoteMetadata
  details : Option Bytes

structure CommittedNote where
  note : Option Note
  inclusionProof : Option NoteInclusionInBlockProof

structure NoteScript where
  entrypoint : UInt32
  mast : Bytes

/-! ### Accounts -/

structure AccountHeader where
  accountId : Option AccountId
  nonce : UInt64
  vaultRoot : Option Digest
  storageCommitment : Option Digest
  codeCommitment : Option Digest

structure StorageSlot where
  slotName : String
  slotType : UInt32
  commitment : Option Digest

structure AccountStorageHeader where
  slots : List StorageSlot

structure StorageMapEntry where
  key : Option Digest
  value : Option Digest

inductive StorageMapEntries where
  | allEntries (entries : List StorageMapEntry)
  | entriesWithProofs (proofs : List (Option SmtOpening))

structure AccountStorageMapDetails where
  slotName : String
  tooManyEntries : Bool
  entries : Option StorageMapEntries

structure AccountStorageDetails where
  header : Option AccountStorageHeader
  mapDetails : List AccountStorageMapDetails

structure AccountVaultDetails where
  tooManyAssets : Bool
  assets : List Asset

structure AccountDetails where
  header : Option AccountHeader
  storageDetails : Option AccountStorageDetails
  code : Option Bytes
  vaultDetails : Option AccountVaultDetails

structure AccountWitness where
  witnessId : Option AccountId
  commitment : Option Digest
  path : Option SparseMerklePath

structure AccountResponse where
  blockNum : Option UInt32
  witness : Option AccountWitness
  details : Option AccountDetails

structure StorageMapUpdate where
  blockNum : UInt32
  slotName : String
  key : Option Digest
  value : Option Digest

structure AccountVaultUpdate where
  blockNum : UInt32
  vaultKey : Option Digest
  asset : Option Asset

/-- A page of changes of the storage maps or the vault. -/
structure SyncAccountResponse (α : Type) where
  paginationInfo : Option PaginationInfo
  updates : List α

/-! ### Nullifiers and transactions -/

structure NullifierUpdate where
  nullifier : Option Digest
  blockNum : UInt32

structure SyncNullifiersResponse where
  paginationInfo : Option PaginationInfo
  nullifiers : List NullifierUpdate

/-- The inputs of a transaction are given by their nullifiers. -/
structure TransactionHeader where
  accountId : Option AccountId
  initialStateCommitment : Option Digest
  finalStateCommitment : Option Digest
  inputNotes : List (Option Digest)
  outputNotes : List NoteHeader

structure TransactionRecord where
  blockNum : UInt32
  header : Option TransactionHeader

structure SyncTransactionsResponse where
  paginationInfo : Option PaginationInfo
  transactions : List TransactionRecord

/-! ### Limits -/

/-- The limits of the parameters, by endpoint and name. -/
structure RpcLimits where
  endpoints : ExtTreeMap String (ExtTreeMap String UInt32)

/-! ### Status -/

structure StoreStatus where
  version : String
  status : String
  chainTip : UInt32

structure MempoolStats where
  unbatchedTransactions : UInt64
  proposedBatches : UInt64
  provenBatches : UInt64

structure BlockProducerStatus where
  version : String
  status : String
  chainTip : UInt32
  mempoolStats : Option MempoolStats

structure RpcStatus where
  version : String
  genesisCommitment : Option Digest
  store : Option StoreStatus
  blockProducer : Option BlockProducerStatus

end Proto

end MidenClient
