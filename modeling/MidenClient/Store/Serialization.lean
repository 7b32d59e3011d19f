/-
This file models the encodings of what the client stores and exports: notes with their states
(`rust-client/src/store/note_record`), transactions with their status
(`rust-client/src/transaction/record.rs`), the sources of note tags (`rust-client/src/sync/tag.rs`)
and the summary of a sync (`rust-client/src/sync/mod.rs`).

A type with variants is written as the number of the variant and the fields of it. Each
writer is followed by its reader and by the proof that the reader takes back, in the same order,
what the writer wrote.
-/

import MidenClient.Codecs
import MidenClient.Store.ClientStore
import MidenClient.Store.NoteFilter
import MidenClient.Sync.SyncSummary

namespace MidenClient

open Codecs
open ProtocolCodecs

variable [ProtocolCodecs]

/-! ### Input notes -/

namespace NoteSubmissionData

def writeInto (data : NoteSubmissionData) : List UInt8 :=
  [(Codec.option u64).write data.submittedAt, accountId.write data.consumerAccount,
    transactionId.write data.consumerTransaction].flatten

def readFrom : Reader NoteSubmissionData := do
  let submittedAt ← (Codec.option u64).read
  let consumerAccount ← accountId.read
  let consumerTransaction ← transactionId.read
  return ⟨submittedAt, consumerAccount, consumerTransaction⟩

theorem readsBack (data : NoteSubmissionData) : ReadsBack readFrom data.writeInto data := by
  refine .part (Codec.readsBack _ data.submittedAt) ?_
  refine .part (Codec.readsBack _ data.consumerAccount) ?_
  exact .part (Codec.readsBack _ data.consumerTransaction) (.done rfl)

end NoteSubmissionData

namespace ExpectedNoteState

def writeInto (state : ExpectedNoteState) : List UInt8 :=
  [(Codec.option noteMetadata).write state.metadata, blockNumber.write state.afterBlockNum,
    (Codec.option noteTag).write state.tag].flatten

def readFrom : Reader ExpectedNoteState := do
  let metadata ← (Codec.option noteMetadata).read
  let afterBlockNum ← blockNumber.read
  let tag ← (Codec.option noteTag).read
  return ⟨metadata, afterBlockNum, tag⟩

theorem readsBack (state : ExpectedNoteState) : ReadsBack readFrom state.writeInto state := by
  refine .part (Codec.readsBack _ state.metadata) ?_
  refine .part (Codec.readsBack _ state.afterBlockNum) ?_
  exact .part (Codec.readsBack _ state.tag) (.done rfl)

end ExpectedNoteState

namespace UnverifiedNoteState

def writeInto (state : UnverifiedNoteState) : List UInt8 :=
  [noteMetadata.write state.metadata, noteInclusionProof.write state.inclusionProof].flatten

def readFrom : Reader UnverifiedNoteState := do
  let metadata ← noteMetadata.read
  let inclusionProof ← noteInclusionProof.read
  return ⟨metadata, inclusionProof⟩

theorem readsBack (state : UnverifiedNoteState) : ReadsBack readFrom state.writeInto state := by
  refine .part (Codec.readsBack _ state.metadata) ?_
  exact .part (Codec.readsBack _ state.inclusionProof) (.done rfl)

end UnverifiedNoteState

namespace CommittedNoteState

def writeInto (state : CommittedNoteState) : List UInt8 :=
  [noteMetadata.write state.metadata, noteInclusionProof.write state.inclusionProof,
    word.write state.blockNoteRoot].flatten

def readFrom : Reader CommittedNoteState := do
  let metadata ← noteMetadata.read
  let inclusionProof ← noteInclusionProof.read
  let blockNoteRoot ← word.read
  return ⟨metadata, inclusionProof, blockNoteRoot⟩

theorem readsBack (state : CommittedNoteState) : ReadsBack readFrom state.writeInto state := by
  refine .part (Codec.readsBack _ state.metadata) ?_
  refine .part (Codec.readsBack _ state.inclusionProof) ?_
  exact .part (Codec.readsBack _ state.blockNoteRoot) (.done rfl)

end CommittedNoteState

namespace InvalidNoteState

def writeInto (state : InvalidNoteState) : List UInt8 :=
  [noteMetadata.write state.metadata, noteInclusionProof.write state.invalidInclusionProof,
    word.write state.blockNoteRoot].flatten

def readFrom : Reader InvalidNoteState := do
  let metadata ← noteMetadata.read
  let invalidInclusionProof ← noteInclusionProof.read
  let blockNoteRoot ← word.read
  return ⟨metadata, invalidInclusionProof, blockNoteRoot⟩

theorem readsBack (state : InvalidNoteState) : ReadsBack readFrom state.writeInto state := by
  refine .part (Codec.readsBack _ state.metadata) ?_
  refine .part (Codec.readsBack _ state.invalidInclusionProof) ?_
  exact .part (Codec.readsBack _ state.blockNoteRoot) (.done rfl)

end InvalidNoteState

namespace ProcessingAuthenticatedNoteState

def writeInto (state : ProcessingAuthenticatedNoteState) : List UInt8 :=
  [noteMetadata.write state.metadata, noteInclusionProof.write state.inclusionProof,
    word.write state.blockNoteRoot, state.submissionData.writeInto].flatten

def readFrom : Reader ProcessingAuthenticatedNoteState := do
  let metadata ← noteMetadata.read
  let inclusionProof ← noteInclusionProof.read
  let blockNoteRoot ← word.read
  let submissionData ← NoteSubmissionData.readFrom
  return ⟨metadata, inclusionProof, blockNoteRoot, submissionData⟩

theorem readsBack (state : ProcessingAuthenticatedNoteState) :
    ReadsBack readFrom state.writeInto state := by
  refine .part (Codec.readsBack _ state.metadata) ?_
  refine .part (Codec.readsBack _ state.inclusionProof) ?_
  refine .part (Codec.readsBack _ state.blockNoteRoot) ?_
  exact .part (NoteSubmissionData.readsBack state.submissionData) (.done rfl)

end ProcessingAuthenticatedNoteState

namespace ProcessingUnauthenticatedNoteState

def writeInto (state : ProcessingUnauthenticatedNoteState) : List UInt8 :=
  [noteMetadata.write state.metadata, blockNumber.write state.afterBlockNum,
    state.submissionData.writeInto].flatten

def readFrom : Reader ProcessingUnauthenticatedNoteState := do
  let metadata ← noteMetadata.read
  let afterBlockNum ← blockNumber.read
  let submissionData ← NoteSubmissionData.readFrom
  return ⟨metadata, afterBlockNum, submissionData⟩

theorem readsBack (state : ProcessingUnauthenticatedNoteState) :
    ReadsBack readFrom state.writeInto state := by
  refine .part (Codec.readsBack _ state.metadata) ?_
  refine .part (Codec.readsBack _ state.afterBlockNum) ?_
  exact .part (NoteSubmissionData.readsBack state.submissionData) (.done rfl)

end ProcessingUnauthenticatedNoteState

namespace ConsumedAuthenticatedLocalNoteState

def writeInto (state : ConsumedAuthenticatedLocalNoteState) : List UInt8 :=
  [noteMetadata.write state.metadata, noteInclusionProof.write state.inclusionProof,
    word.write state.blockNoteRoot, blockNumber.write state.nullifierBlockHeight,
    state.submissionData.writeInto, (Codec.option u32).write state.consumedTxOrder].flatten

def readFrom : Reader ConsumedAuthenticatedLocalNoteState := do
  let metadata ← noteMetadata.read
  let inclusionProof ← noteInclusionProof.read
  let blockNoteRoot ← word.read
  let nullifierBlockHeight ← blockNumber.read
  let submissionData ← NoteSubmissionData.readFrom
  let consumedTxOrder ← (Codec.option u32).read
  return ⟨metadata, inclusionProof, blockNoteRoot, nullifierBlockHeight, submissionData,
    consumedTxOrder⟩

theorem readsBack (state : ConsumedAuthenticatedLocalNoteState) :
    ReadsBack readFrom state.writeInto state := by
  refine .part (Codec.readsBack _ state.metadata) ?_
  refine .part (Codec.readsBack _ state.inclusionProof) ?_
  refine .part (Codec.readsBack _ state.blockNoteRoot) ?_
  refine .part (Codec.readsBack _ state.nullifierBlockHeight) ?_
  refine .part (NoteSubmissionData.readsBack state.submissionData) ?_
  exact .part (Codec.readsBack _ state.consumedTxOrder) (.done rfl)

end ConsumedAuthenticatedLocalNoteState

namespace ConsumedUnauthenticatedLocalNoteState

def writeInto (state : ConsumedUnauthenticatedLocalNoteState) : List UInt8 :=
  [noteMetadata.write state.metadata, blockNumber.write state.nullifierBlockHeight,
    state.submissionData.writeInto, (Codec.option u32).write state.consumedTxOrder].flatten

def readFrom : Reader ConsumedUnauthenticatedLocalNoteState := do
  let metadata ← noteMetadata.read
  let nullifierBlockHeight ← blockNumber.read
  let submissionData ← NoteSubmissionData.readFrom
  let consumedTxOrder ← (Codec.option u32).read
  return ⟨metadata, nullifierBlockHeight, submissionData, consumedTxOrder⟩

theorem readsBack (state : ConsumedUnauthenticatedLocalNoteState) :
    ReadsBack readFrom state.writeInto state := by
  refine .part (Codec.readsBack _ state.metadata) ?_
  refine .part (Codec.readsBack _ state.nullifierBlockHeight) ?_
  refine .part (NoteSubmissionData.readsBack state.submissionData) ?_
  exact .part (Codec.readsBack _ state.consumedTxOrder) (.done rfl)

end ConsumedUnauthenticatedLocalNoteState

namespace ConsumedExternalNoteState

def writeInto (state : ConsumedExternalNoteState) : List UInt8 :=
  [blockNumber.write state.nullifierBlockHeight,
    (Codec.option u32).write state.consumedTxOrder].flatten

def readFrom : Reader ConsumedExternalNoteState := do
  let nullifierBlockHeight ← blockNumber.read
  let consumedTxOrder ← (Codec.option u32).read
  return ⟨nullifierBlockHeight, consumedTxOrder⟩

theorem readsBack (state : ConsumedExternalNoteState) :
    ReadsBack readFrom state.writeInto state := by
  refine .part (Codec.readsBack _ state.nullifierBlockHeight) ?_
  exact .part (Codec.readsBack _ state.consumedTxOrder) (.done rfl)

end ConsumedExternalNoteState

namespace InputNoteState

/-- The fields of the state that the note is in. -/
def writeInner : InputNoteState → List UInt8
  | .expected state => state.writeInto
  | .unverified state => state.writeInto
  | .committed state => state.writeInto
  | .invalid state => state.writeInto
  | .processingAuthenticated state => state.writeInto
  | .processingUnauthenticated state => state.writeInto
  | .consumedAuthenticatedLocal state => state.writeInto
  | .consumedUnauthenticatedLocal state => state.writeInto
  | .consumedExternal state => state.writeInto

def writeInto (state : InputNoteState) : List UInt8 :=
  UInt8.ofNat state.discriminant :: state.writeInner

/-- The discriminants are those of `InputNoteState.discriminant`. -/
def readFrom : Reader InputNoteState := do
  match ← readU8 with
  | 0 => return .expected (← ExpectedNoteState.readFrom)
  | 1 => return .unverified (← UnverifiedNoteState.readFrom)
  | 2 => return .committed (← CommittedNoteState.readFrom)
  | 3 => return .invalid (← InvalidNoteState.readFrom)
  | 4 => return .processingAuthenticated (← ProcessingAuthenticatedNoteState.readFrom)
  | 5 => return .processingUnauthenticated (← ProcessingUnauthenticatedNoteState.readFrom)
  | 6 => return .consumedAuthenticatedLocal (← ConsumedAuthenticatedLocalNoteState.readFrom)
  | 7 => return .consumedUnauthenticatedLocal (← ConsumedUnauthenticatedLocalNoteState.readFrom)
  | 8 => return .consumedExternal (← ConsumedExternalNoteState.readFrom)
  | discriminant =>
    throw (.invalidValue s!"Invalid NoteState discriminant: {discriminant.toNat}")

theorem readsBack (state : InputNoteState) : ReadsBack readFrom state.writeInto state := by
  cases state with
  | expected state => exact .u8_bind (state.readsBack.map rfl)
  | unverified state => exact .u8_bind (state.readsBack.map rfl)
  | committed state => exact .u8_bind (state.readsBack.map rfl)
  | invalid state => exact .u8_bind (state.readsBack.map rfl)
  | processingAuthenticated state => exact .u8_bind (state.readsBack.map rfl)
  | processingUnauthenticated state => exact .u8_bind (state.readsBack.map rfl)
  | consumedAuthenticatedLocal state => exact .u8_bind (state.readsBack.map rfl)
  | consumedUnauthenticatedLocal state => exact .u8_bind (state.readsBack.map rfl)
  | consumedExternal state => exact .u8_bind (state.readsBack.map rfl)

end InputNoteState

namespace InputNoteRecord

def writeInto (record : InputNoteRecord) : List UInt8 :=
  [noteDetails.write record.details, (Codec.option u64).write record.createdAt,
    record.state.writeInto].flatten

def readFrom : Reader InputNoteRecord := do
  let details ← noteDetails.read
  let createdAt ← (Codec.option u64).read
  let state ← InputNoteState.readFrom
  return ⟨details, createdAt, state⟩

theorem readsBack (record : InputNoteRecord) : ReadsBack readFrom record.writeInto record := by
  refine .part (Codec.readsBack _ record.details) ?_
  refine .part (Codec.readsBack _ record.createdAt) ?_
  exact .part (InputNoteState.readsBack record.state) (.done rfl)

end InputNoteRecord

/-! ### Output notes -/

namespace OutputNoteState

def stateExpectedPartial : UInt8 := 0
def stateExpectedFull : UInt8 := 1
def stateCommittedPartial : UInt8 := 2
def stateCommittedFull : UInt8 := 3
def stateConsumed : UInt8 := 4

/-- Returns a unique identifier for each note state. -/
def discriminant : OutputNoteState → UInt8
  | .expectedPartial => stateExpectedPartial
  | .expectedFull _ => stateExpectedFull
  | .committedPartial _ => stateCommittedPartial
  | .committedFull _ _ => stateCommittedFull
  | .consumed _ _ => stateConsumed

def writeInner : OutputNoteState → List UInt8
  | .expectedPartial => [].flatten
  | .expectedFull recipient => [noteRecipient.write recipient].flatten
  | .committedPartial inclusionProof => [noteInclusionProof.write inclusionProof].flatten
  | .committedFull recipient inclusionProof =>
    [noteRecipient.write recipient, noteInclusionProof.write inclusionProof].flatten
  | .consumed blockHeight recipient =>
    [blockNumber.write blockHeight, noteRecipient.write recipient].flatten

def writeInto (state : OutputNoteState) : List UInt8 :=
  state.discriminant :: state.writeInner

/-- The discriminants are those of `OutputNoteState.discriminant`. -/
def readFrom : Reader OutputNoteState := do
  match ← readU8 with
  | 0 => return .expectedPartial
  | 1 =>
    let recipient ← noteRecipient.read
    return .expectedFull recipient
  | 2 =>
    let inclusionProof ← noteInclusionProof.read
    return .committedPartial inclusionProof
  | 3 =>
    let recipient ← noteRecipient.read
    let inclusionProof ← noteInclusionProof.read
    return .committedFull recipient inclusionProof
  | 4 =>
    let blockHeight ← blockNumber.read
    let recipient ← noteRecipient.read
    return .consumed blockHeight recipient
  | _ => throw (.invalidValue "OutputNoteState")

theorem readsBack (state : OutputNoteState) : ReadsBack readFrom state.writeInto state := by
  cases state with
  | expectedPartial => exact .u8_bind (.done rfl)
  | expectedFull recipient => exact .u8_bind (.part (noteRecipient.readsBack recipient) (.done rfl))
  | committedPartial inclusionProof =>
    exact .u8_bind (.part (noteInclusionProof.readsBack inclusionProof) (.done rfl))
  | committedFull recipient inclusionProof =>
    exact .u8_bind (.part (noteRecipient.readsBack recipient)
      (.part (noteInclusionProof.readsBack inclusionProof) (.done rfl)))
  | consumed blockHeight recipient =>
    exact .u8_bind (.part (blockNumber.readsBack blockHeight)
      (.part (noteRecipient.readsBack recipient) (.done rfl)))

end OutputNoteState

/-! ### Transactions -/

/-- The details of a transaction with the notes that it created. -/
structure FullTransactionDetails extends TransactionDetails where
  outputNotes : List RawOutputNote
  deriving DecidableEq, Repr

namespace FullTransactionDetails

def writeInto (details : FullTransactionDetails) : List UInt8 :=
  [accountId.write details.accountId, word.write details.initAccountState,
    word.write details.finalAccountState,
      (Codec.list lengths word).write details.inputNoteNullifiers,
    rawOutputNotes.write details.outputNotes, blockNumber.write details.blockNum,
    blockNumber.write details.submissionHeight, blockNumber.write details.expirationBlockNum,
    u64.write details.creationTimestamp].flatten

def readFrom : Reader FullTransactionDetails := do
  let accountId ← accountId.read
  let initAccountState ← word.read
  let finalAccountState ← word.read
  let inputNoteNullifiers ← (Codec.list lengths word).read
  let outputNotes ← rawOutputNotes.read
  let blockNum ← blockNumber.read
  let submissionHeight ← blockNumber.read
  let expirationBlockNum ← blockNumber.read
  let creationTimestamp ← u64.read
  return {
    accountId := accountId
    initAccountState := initAccountState
    finalAccountState := finalAccountState
    inputNoteNullifiers := inputNoteNullifiers
    outputNotes := outputNotes
    blockNum := blockNum
    submissionHeight := submissionHeight
    expirationBlockNum := expirationBlockNum
    creationTimestamp := creationTimestamp }

theorem readsBack (details : FullTransactionDetails) :
    ReadsBack readFrom details.writeInto details := by
  refine .part (Codec.readsBack _ details.accountId) ?_
  refine .part (Codec.readsBack _ details.initAccountState) ?_
  refine .part (Codec.readsBack _ details.finalAccountState) ?_
  refine .part (Codec.readsBack _ details.inputNoteNullifiers) ?_
  refine .part (Codec.readsBack _ details.outputNotes) ?_
  refine .part (Codec.readsBack _ details.blockNum) ?_
  refine .part (Codec.readsBack _ details.submissionHeight) ?_
  refine .part (Codec.readsBack _ details.expirationBlockNum) ?_
  exact .part (Codec.readsBack _ details.creationTimestamp) (.done rfl)

end FullTransactionDetails

namespace DiscardCause

def writeInto : DiscardCause → List UInt8
  | .expired => [0]
  | .inputConsumed => [1]
  | .discardedInitialState => [2]
  | .stale => [3]

def readFrom : Reader DiscardCause := do
  match ← readU8 with
  | 0 => return .expired
  | 1 => return .inputConsumed
  | 2 => return .discardedInitialState
  | 3 => return .stale
  | _ => throw (.invalidValue "Invalid discard cause")

omit [ProtocolCodecs] in
theorem readsBack (cause : DiscardCause) : ReadsBack readFrom cause.writeInto cause := by
  cases cause with
  | expired => exact .u8_bind (.pure DiscardCause.expired)
  | inputConsumed => exact .u8_bind (.pure DiscardCause.inputConsumed)
  | discardedInitialState => exact .u8_bind (.pure DiscardCause.discardedInitialState)
  | stale => exact .u8_bind (.pure DiscardCause.stale)

end DiscardCause

namespace TransactionStatus

/-- The number of a variant. -/
def variant : TransactionStatus → UInt8
  | .pending => 0
  | .committed _ _ => 1
  | .discarded _ => 2

def writeInto (status : TransactionStatus) : List UInt8 :=
  match status with
  | .pending => [status.variant]
  | .committed number timestamp =>
    status.variant :: [blockNumber.write number, u64.write timestamp].flatten
  | .discarded cause => status.variant :: cause.writeInto

def readFrom : Reader TransactionStatus := do
  match ← readU8 with
  | 0 => return .pending
  | 1 =>
    let number ← blockNumber.read
    let timestamp ← u64.read
    return .committed number timestamp
  | 2 =>
    let cause ← DiscardCause.readFrom
    return .discarded cause
  | _ => throw (.invalidValue "Invalid transaction status")

theorem readsBack (status : TransactionStatus) : ReadsBack readFrom status.writeInto status := by
  cases status with
  | pending => exact .u8_bind (.pure TransactionStatus.pending)
  | committed number timestamp =>
    exact .u8_bind (.part (blockNumber.readsBack number)
      (.part (u64.readsBack timestamp) (.done rfl)))
  | discarded cause => exact .u8_bind (cause.readsBack.map rfl)

end TransactionStatus

/-! ### Tags and summaries -/

namespace NoteTagSource

def writeInto : NoteTagSource → List UInt8
  | .account id => 0 :: accountId.write id
  | .note id => 1 :: noteId.write id
  | .user => [2]

def readFrom : Reader NoteTagSource := do
  match ← readU8 with
  | 0 => return .account (← accountId.read)
  | 1 => return .note (← noteId.read)
  | 2 => return .user
  | value => throw (.invalidValue s!"Invalid tag source: {value.toNat}")

theorem readsBack (source : NoteTagSource) : ReadsBack readFrom source.writeInto source := by
  cases source with
  | account id => exact .u8_bind ((accountId.readsBack id).map rfl)
  | note id => exact .u8_bind ((noteId.readsBack id).map rfl)
  | user => exact .u8_bind (.pure NoteTagSource.user)

end NoteTagSource

namespace SyncSummary

def writeInto (summary : SyncSummary) : List UInt8 :=
  [blockNumber.write summary.blockNum, (Codec.list lengths noteId).write summary.newPublicNotes,
    (Codec.list lengths noteId).write summary.committedNotes,
    (Codec.list lengths noteId).write summary.consumedNotes,
    (Codec.list lengths accountId).write summary.updatedAccounts,
    (Codec.list lengths accountId).write summary.lockedAccounts,
    (Codec.list lengths transactionId).write summary.committedTransactions].flatten

def readFrom : Reader SyncSummary := do
  let blockNum ← blockNumber.read
  let newPublicNotes ← (Codec.list lengths noteId).read
  let committedNotes ← (Codec.list lengths noteId).read
  let consumedNotes ← (Codec.list lengths noteId).read
  let updatedAccounts ← (Codec.list lengths accountId).read
  let lockedAccounts ← (Codec.list lengths accountId).read
  let committedTransactions ← (Codec.list lengths transactionId).read
  return ⟨blockNum, newPublicNotes, committedNotes, consumedNotes, updatedAccounts,
    lockedAccounts, committedTransactions⟩

theorem readsBack (summary : SyncSummary) : ReadsBack readFrom summary.writeInto summary := by
  refine .part (Codec.readsBack _ summary.blockNum) ?_
  refine .part (Codec.readsBack _ summary.newPublicNotes) ?_
  refine .part (Codec.readsBack _ summary.committedNotes) ?_
  refine .part (Codec.readsBack _ summary.consumedNotes) ?_
  refine .part (Codec.readsBack _ summary.updatedAccounts) ?_
  refine .part (Codec.readsBack _ summary.lockedAccounts) ?_
  exact .part (Codec.readsBack _ summary.committedTransactions) (.done rfl)

end SyncSummary

/-! ### All encodings -/

/-- Every encoding is read back as the value it was made of, and what can be read at all is read
again after it was written. -/
theorem encodings_roundTrip :
    RoundTrips InputNoteRecord.writeInto InputNoteRecord.readFrom ∧
      RoundTrips OutputNoteState.writeInto OutputNoteState.readFrom ∧
        RoundTrips FullTransactionDetails.writeInto FullTransactionDetails.readFrom ∧
          RoundTrips TransactionStatus.writeInto TransactionStatus.readFrom ∧
            RoundTrips SyncSummary.writeInto SyncSummary.readFrom ∧
              RoundTrips NoteTagSource.writeInto NoteTagSource.readFrom :=
  ⟨.of_readsBack InputNoteRecord.readsBack, .of_readsBack OutputNoteState.readsBack,
    .of_readsBack FullTransactionDetails.readsBack, .of_readsBack TransactionStatus.readsBack,
    .of_readsBack SyncSummary.readsBack, .of_readsBack NoteTagSource.readsBack⟩

end MidenClient
