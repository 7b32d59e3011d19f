/-
This file models the note records of the stores (`rust-client/src/store/note_record`):
the nine states of an input note, the five states of an output note, and the events
that move a record from one state to the next.

Every state of an input note has its own handler in the source. Here each event is one
function by cases on the state, which lists the handlers of that event side by side. An
event answers with the next state, with nothing when the state stays, or with an error.
-/

import MidenClient.Note

namespace MidenClient

/-- Errors generated from note records. -/
inductive NoteRecordError where
  | conversionError (message : String)
  | noteNotConsumable (message : String)
  | invalidStateTransition (message : String)
  | stateTransitionError (message : String)
  deriving DecidableEq, Repr

/-- Information about the transaction that consumes a note locally. -/
structure NoteSubmissionData where
  submittedAt : Option ℕ
  consumerAccount : AccountId
  consumerTransaction : TransactionId
  deriving DecidableEq, Repr

structure ExpectedNoteState where
  metadata : Option NoteMetadata
  afterBlockNum : BlockNumber
  tag : Option NoteTag
  deriving DecidableEq, Repr

structure UnverifiedNoteState where
  metadata : NoteMetadata
  inclusionProof : NoteInclusionProof
  deriving DecidableEq, Repr

structure CommittedNoteState where
  metadata : NoteMetadata
  inclusionProof : NoteInclusionProof
  blockNoteRoot : Word
  deriving DecidableEq, Repr

structure InvalidNoteState where
  metadata : NoteMetadata
  invalidInclusionProof : NoteInclusionProof
  blockNoteRoot : Word
  deriving DecidableEq, Repr

structure ProcessingAuthenticatedNoteState where
  metadata : NoteMetadata
  inclusionProof : NoteInclusionProof
  blockNoteRoot : Word
  submissionData : NoteSubmissionData
  deriving DecidableEq, Repr

structure ProcessingUnauthenticatedNoteState where
  metadata : NoteMetadata
  afterBlockNum : BlockNumber
  submissionData : NoteSubmissionData
  deriving DecidableEq, Repr

structure ConsumedAuthenticatedLocalNoteState where
  metadata : NoteMetadata
  inclusionProof : NoteInclusionProof
  blockNoteRoot : Word
  nullifierBlockHeight : BlockNumber
  submissionData : NoteSubmissionData
  consumedTxOrder : Option ℕ
  deriving DecidableEq, Repr

structure ConsumedUnauthenticatedLocalNoteState where
  metadata : NoteMetadata
  nullifierBlockHeight : BlockNumber
  submissionData : NoteSubmissionData
  consumedTxOrder : Option ℕ
  deriving DecidableEq, Repr

structure ConsumedExternalNoteState where
  nullifierBlockHeight : BlockNumber
  consumedTxOrder : Option ℕ
  deriving DecidableEq, Repr

/-- The possible states of a tracked note. -/
inductive InputNoteState where
  | expected (state : ExpectedNoteState)
  | unverified (state : UnverifiedNoteState)
  | committed (state : CommittedNoteState)
  | invalid (state : InvalidNoteState)
  | processingAuthenticated (state : ProcessingAuthenticatedNoteState)
  | processingUnauthenticated (state : ProcessingUnauthenticatedNoteState)
  | consumedAuthenticatedLocal (state : ConsumedAuthenticatedLocalNoteState)
  | consumedUnauthenticatedLocal (state : ConsumedUnauthenticatedLocalNoteState)
  | consumedExternal (state : ConsumedExternalNoteState)
  deriving DecidableEq, Repr

namespace InputNoteState

/-! ### What a state carries -/

def metadata : InputNoteState → Option NoteMetadata
  | .expected state => state.metadata
  | .unverified state => some state.metadata
  | .committed state => some state.metadata
  | .invalid state => some state.metadata
  | .processingAuthenticated state => some state.metadata
  | .processingUnauthenticated state => some state.metadata
  | .consumedAuthenticatedLocal state => some state.metadata
  | .consumedUnauthenticatedLocal state => some state.metadata
  | .consumedExternal _ => none

def consumerTransactionId : InputNoteState → Option TransactionId
  | .processingAuthenticated state => some state.submissionData.consumerTransaction
  | .processingUnauthenticated state => some state.submissionData.consumerTransaction
  | .consumedAuthenticatedLocal state => some state.submissionData.consumerTransaction
  | .consumedUnauthenticatedLocal state => some state.submissionData.consumerTransaction
  | .expected _ | .unverified _ | .committed _ | .invalid _ | .consumedExternal _ => none

def inclusionProof : InputNoteState → Option NoteInclusionProof
  | .unverified state => some state.inclusionProof
  | .committed state => some state.inclusionProof
  | .invalid state => some state.invalidInclusionProof
  | .processingAuthenticated state => some state.inclusionProof
  | .consumedAuthenticatedLocal state => some state.inclusionProof
  | .expected _ | .processingUnauthenticated _ | .consumedUnauthenticatedLocal _
  | .consumedExternal _ => none

/-- The block height at which the note was consumed, in a consumed state. -/
def consumedBlockHeight : InputNoteState → Option BlockNumber
  | .consumedAuthenticatedLocal state => some state.nullifierBlockHeight
  | .consumedUnauthenticatedLocal state => some state.nullifierBlockHeight
  | .consumedExternal state => some state.nullifierBlockHeight
  | _ => none

/-- The position of the consuming transaction among those of its account, if it is known. -/
def consumedTxOrder : InputNoteState → Option ℕ
  | .consumedAuthenticatedLocal state => state.consumedTxOrder
  | .consumedUnauthenticatedLocal state => state.consumedTxOrder
  | .consumedExternal state => state.consumedTxOrder
  | _ => none

/-- The note has the inclusion proof and the block data it needs to be considered valid. -/
def isAuthenticated : InputNoteState → Bool
  | .committed _ | .processingAuthenticated _ | .consumedAuthenticatedLocal _ => true
  | _ => false

/-- The note has been nullified on chain. -/
def isConsumed : InputNoteState → Bool
  | .consumedExternal _ | .consumedAuthenticatedLocal _ | .consumedUnauthenticatedLocal _ => true
  | _ => false

/-- The note is currently being processed by a local transaction. -/
def isProcessing : InputNoteState → Bool
  | .processingAuthenticated _ | .processingUnauthenticated _ => true
  | _ => false

/-- The note has a valid inclusion proof but is neither consumed nor being processed. -/
def isCommitted : InputNoteState → Bool
  | .committed _ => true
  | _ => false

/-- Sets the consumed transaction order; nothing happens to a note that is not consumed. -/
def setConsumedTxOrder (order : Option ℕ) : InputNoteState → InputNoteState
  | .consumedAuthenticatedLocal state =>
    .consumedAuthenticatedLocal { state with consumedTxOrder := order }
  | .consumedUnauthenticatedLocal state =>
    .consumedUnauthenticatedLocal { state with consumedTxOrder := order }
  | .consumedExternal state => .consumedExternal { state with consumedTxOrder := order }
  | state => state

/-! ### The events -/

/-- The note has received an inclusion proof, which stays unverified until the block header
is received. -/
def inclusionProofReceived (inclusionProof : NoteInclusionProof) (metadata : NoteMetadata) :
    InputNoteState → Except NoteRecordError (Option InputNoteState)
  | .expected _ | .unverified _ | .invalid _ =>
    .ok (some (.unverified ⟨metadata, inclusionProof⟩))
  | .committed state =>
    if state.inclusionProof ≠ inclusionProof ∨ state.metadata ≠ metadata then
      .error (.stateTransitionError
        "Inclusion proof or metadata do not match the expected values")
    else .ok none
  | .processingAuthenticated state =>
    if state.inclusionProof ≠ inclusionProof ∨ state.metadata ≠ metadata then
      .error (.stateTransitionError
        "Inclusion proof or metadata do not match the expected values")
    else .ok none
  | .processingUnauthenticated _ | .consumedAuthenticatedLocal _
  | .consumedUnauthenticatedLocal _ | .consumedExternal _ => .ok none

/-- The note has been consumed by an external transaction. -/
def consumedExternally (nullifierBlockHeight : BlockNumber) :
    InputNoteState → Except NoteRecordError (Option InputNoteState)
  | .expected _ | .unverified _ | .committed _ | .invalid _ | .processingAuthenticated _
  | .processingUnauthenticated _ => .ok (some (.consumedExternal ⟨nullifierBlockHeight, none⟩))
  | .consumedAuthenticatedLocal _ | .consumedUnauthenticatedLocal _ | .consumedExternal _ =>
    .ok none

/-- The note has received a block header, which verifies its inclusion proof or shows that
the proof is invalid. -/
def blockHeaderReceived [NoteLibrary] (noteId : NoteId) (blockHeader : BlockHeader) :
    InputNoteState → Except NoteRecordError (Option InputNoteState)
  | .expected _ => .error (.stateTransitionError "Can't verify an expected note")
  | .unverified state =>
    if state.inclusionProof.verifies noteId state.metadata blockHeader.noteRoot then
      .ok (some (.committed ⟨state.metadata, state.inclusionProof, blockHeader.noteRoot⟩))
    else .ok (some (.invalid ⟨state.metadata, state.inclusionProof, blockHeader.noteRoot⟩))
  | .committed state =>
    if blockHeader.noteRoot ≠ state.blockNoteRoot then
      .error (.stateTransitionError "Block header does not match the expected note root")
    else .ok none
  | .invalid state =>
    if state.invalidInclusionProof.verifies noteId state.metadata blockHeader.noteRoot then
      .ok (some (.committed
        ⟨state.metadata, state.invalidInclusionProof, blockHeader.noteRoot⟩))
    else .ok none
  | .processingAuthenticated _ | .processingUnauthenticated _ | .consumedAuthenticatedLocal _
  | .consumedUnauthenticatedLocal _ | .consumedExternal _ => .ok none

/-- The client began processing the note to be consumed. -/
def consumedLocally (consumerAccount : AccountId) (consumerTransaction : TransactionId)
    (currentTimestamp : Option ℕ) :
    InputNoteState → Except NoteRecordError (Option InputNoteState)
  | .expected state =>
    match state.metadata with
    | none => .error (.noteNotConsumable "Can't consume note without metadata")
    | some metadata => .ok (some (.processingUnauthenticated ⟨metadata, state.afterBlockNum,
        ⟨currentTimestamp, consumerAccount, consumerTransaction⟩⟩))
  | .unverified state => .ok (some (.processingUnauthenticated ⟨state.metadata,
      state.inclusionProof.blockNum - 1, ⟨none, consumerAccount, consumerTransaction⟩⟩))
  | .committed state => .ok (some (.processingAuthenticated ⟨state.metadata,
      state.inclusionProof, state.blockNoteRoot,
      ⟨currentTimestamp, consumerAccount, consumerTransaction⟩⟩))
  | .invalid _ => .error (.noteNotConsumable "Can't consume invalid note")
  | .processingAuthenticated _ | .processingUnauthenticated _ =>
    .error (.noteNotConsumable "Note being consumed")
  | .consumedAuthenticatedLocal _ | .consumedUnauthenticatedLocal _ | .consumedExternal _ =>
    .error (.noteNotConsumable "Note already consumed")

/-- The transaction currently consuming the note was committed. -/
def transactionCommitted (transactionId : TransactionId) (blockHeight : BlockNumber) :
    InputNoteState → Except NoteRecordError (Option InputNoteState)
  | .processingAuthenticated state =>
    if transactionId ≠ state.submissionData.consumerTransaction then
      .error (.stateTransitionError "Transaction ID does not match the expected value")
    else .ok (some (.consumedAuthenticatedLocal ⟨state.metadata, state.inclusionProof,
      state.blockNoteRoot, blockHeight, state.submissionData, none⟩))
  | .processingUnauthenticated state =>
    if transactionId ≠ state.submissionData.consumerTransaction then
      .error (.stateTransitionError "Transaction ID does not match the expected value")
    else .ok (some (.consumedUnauthenticatedLocal ⟨state.metadata, blockHeight,
      state.submissionData, none⟩))
  | .expected _ | .unverified _ | .committed _ | .invalid _ | .consumedAuthenticatedLocal _
  | .consumedUnauthenticatedLocal _ | .consumedExternal _ =>
    .error (.invalidStateTransition
      "Only processing notes can be committed in a local transaction")

end InputNoteState

/-! ### Input note records -/

/-- Represents a note of which the store can keep track and retrieve. -/
structure InputNoteRecord where
  details : NoteDetails
  createdAt : Option ℕ
  state : InputNoteState
  deriving DecidableEq, Repr

namespace InputNoteRecord

variable [NoteLibrary]

def id (record : InputNoteRecord) : NoteId :=
  record.details.id

def nullifier (record : InputNoteRecord) : Nullifier :=
  record.details.nullifier

/-- Takes over the state an event answered with, and says whether there was one. -/
def advance (record : InputNoteRecord) :
    Except NoteRecordError (Option InputNoteState) → Except NoteRecordError (InputNoteRecord × Bool)
  | .error error => .error error
  | .ok (some state) => .ok ({ record with state := state }, true)
  | .ok none => .ok (record, false)

def inclusionProofReceived (record : InputNoteRecord) (inclusionProof : NoteInclusionProof)
    (metadata : NoteMetadata) : Except NoteRecordError (InputNoteRecord × Bool) :=
  record.advance (record.state.inclusionProofReceived inclusionProof metadata)

def blockHeaderReceived (record : InputNoteRecord) (blockHeader : BlockHeader) :
    Except NoteRecordError (InputNoteRecord × Bool) :=
  record.advance (record.state.blockHeaderReceived record.id blockHeader)

def consumedExternally (record : InputNoteRecord) (nullifier : Nullifier)
    (nullifierBlockHeight : BlockNumber) : Except NoteRecordError (InputNoteRecord × Bool) :=
  if record.nullifier ≠ nullifier then
    .error (.stateTransitionError "Nullifier does not match the expected value")
  else record.advance (record.state.consumedExternally nullifierBlockHeight)

def consumedLocally (record : InputNoteRecord) (consumerAccount : AccountId)
    (consumerTransaction : TransactionId) (currentTimestamp : Option ℕ) :
    Except NoteRecordError (InputNoteRecord × Bool) :=
  record.advance
    (record.state.consumedLocally consumerAccount consumerTransaction currentTimestamp)

def transactionCommitted (record : InputNoteRecord) (transactionId : TransactionId)
    (blockHeight : BlockNumber) : Except NoteRecordError (InputNoteRecord × Bool) :=
  record.advance (record.state.transactionCommitted transactionId blockHeight)

def setConsumedTxOrder (record : InputNoteRecord) (order : Option ℕ) : InputNoteRecord :=
  { record with state := record.state.setConsumedTxOrder order }

end InputNoteRecord

/-! ### Output note records -/

/-- Possible states for a single output note. -/
inductive OutputNoteState where
  | expectedPartial
  | expectedFull (recipient : NoteRecipient)
  | committedPartial (inclusionProof : NoteInclusionProof)
  | committedFull (recipient : NoteRecipient) (inclusionProof : NoteInclusionProof)
  | consumed (blockHeight : BlockNumber) (recipient : NoteRecipient)
  deriving DecidableEq, Repr

namespace OutputNoteState

def recipient : OutputNoteState → Option NoteRecipient
  | .expectedFull recipient | .committedFull recipient _ | .consumed _ recipient =>
    some recipient
  | .expectedPartial | .committedPartial _ => none

def isCommitted : OutputNoteState → Bool
  | .committedPartial _ | .committedFull _ _ => true
  | _ => false

def isConsumed : OutputNoteState → Bool
  | .consumed _ _ => true
  | _ => false

def inclusionProofReceived (inclusionProof : NoteInclusionProof) :
    OutputNoteState → Except NoteRecordError (Option OutputNoteState)
  | .expectedPartial => .ok (some (.committedPartial inclusionProof))
  | .expectedFull recipient => .ok (some (.committedFull recipient inclusionProof))
  | .committedPartial previous | .committedFull _ previous =>
    if previous = inclusionProof then .ok none
    else .error (.stateTransitionError
      "Cannot receive different inclusion proof for committed note")
  | .consumed _ _ => .ok none

def nullifierReceived (blockHeight : BlockNumber) :
    OutputNoteState → Except NoteRecordError (Option OutputNoteState)
  | .consumed _ _ => .ok none
  | .expectedFull recipient | .committedFull recipient _ =>
    .ok (some (.consumed blockHeight recipient))
  | .expectedPartial | .committedPartial _ =>
    .error (.invalidStateTransition "Cannot nullify note without recipient")

end OutputNoteState

/-- Represents a note that resulted from executing some transaction. -/
structure OutputNoteRecord where
  assets : List Asset
  metadata : NoteMetadata
  recipientDigest : Word
  state : OutputNoteState
  expectedHeight : BlockNumber
  deriving DecidableEq, Repr

/-- A note of which only the parts its id is computed from are known. -/
structure PartialNote where
  recipientDigest : Word
  assets : List Asset
  metadata : NoteMetadata
  deriving DecidableEq, Repr

/-- A note that a transaction creates. -/
inductive RawOutputNote where
  | full (note : Note)
  | partialNote (note : PartialNote)
  deriving DecidableEq, Repr

namespace OutputNoteRecord

variable [NoteLibrary]

def fromFullNote (note : Note) (expectedHeight : BlockNumber) : OutputNoteRecord :=
  ⟨note.details.assets, note.metadata, note.details.recipient.digest,
    .expectedFull note.details.recipient, expectedHeight⟩

def fromPartialNote (note : PartialNote) (expectedHeight : BlockNumber) : OutputNoteRecord :=
  ⟨note.assets, note.metadata, note.recipientDigest, .expectedPartial, expectedHeight⟩

/-- Both kinds of output notes can be turned into a record. -/
def tryFromOutputNote (note : RawOutputNote) (expectedHeight : BlockNumber) : OutputNoteRecord :=
  match note with
  | .full note => fromFullNote note expectedHeight
  | .partialNote note => fromPartialNote note expectedHeight

def id (record : OutputNoteRecord) : NoteId :=
  NoteLibrary.noteId record.recipientDigest (NoteLibrary.assetsCommitment record.assets)

def nullifier (record : OutputNoteRecord) : Option Nullifier :=
  record.state.recipient.map fun recipient =>
    NoteLibrary.nullifier recipient.scriptRoot recipient.storageCommitment
      (NoteLibrary.assetsCommitment record.assets) recipient.serialNum

/-- Takes over the state an event answered with, and says whether there was one. -/
def advance (record : OutputNoteRecord) :
    Except NoteRecordError (Option OutputNoteState) →
      Except NoteRecordError (OutputNoteRecord × Bool)
  | .error error => .error error
  | .ok (some state) => .ok ({ record with state := state }, true)
  | .ok none => .ok (record, false)

def inclusionProofReceived (record : OutputNoteRecord) (inclusionProof : NoteInclusionProof) :
    Except NoteRecordError (OutputNoteRecord × Bool) :=
  record.advance (record.state.inclusionProofReceived inclusionProof)

/-- A record without a known nullifier accepts any, and its state then decides. -/
def nullifierReceived (record : OutputNoteRecord) (nullifier : Nullifier)
    (blockHeight : BlockNumber) : Except NoteRecordError (OutputNoteRecord × Bool) :=
  if record.nullifier.any (· ≠ nullifier) then
    .error (.stateTransitionError "Nullifier does not match the expected value")
  else record.advance (record.state.nullifierReceived blockHeight)

end OutputNoteRecord

end MidenClient
