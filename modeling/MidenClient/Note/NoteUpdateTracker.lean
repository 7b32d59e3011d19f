/-
This file models `NoteUpdateTracker` (`rust-client/src/note/note_update_tracker.rs`): the
notes an operation follows, and the events that change their records.

The tracker is changed in place, so an event that fails keeps what was done before the
failure: the calls are computations whose state survives an error. Reaching for the
record of a note marks the note as updated, also when the event then fails.
-/

import MidenClient.Library.OrderedMap
import MidenClient.Store.NoteRecord
import MidenClient.Transaction.Record

namespace MidenClient

open Std (ExtTreeMap)

/-- The errors of the node client that the note logic raises or passes on. -/
inductive RpcError where
  | expectedDataMissing (field : String)
  | noteNotFound (noteId : NoteId)
  | requestError (message : String)
  | deserializationError (message : String)
  deriving DecidableEq, Repr

/-- The errors of a transaction request that the client raises while it executes one. -/
inductive TransactionRequestError where
  | inputNoteNotAuthenticated (noteId : NoteId)
  | inputNoteAlreadyConsumed (noteId : NoteId)
  | transactionInputError (message : String)
  deriving DecidableEq, Repr

/-- The errors of the client that the note logic raises or passes on. -/
inductive ClientError where
  | rpcError (error : RpcError)
  | noteRecordConversionError (error : NoteRecordError)
  | noteImportError (message : String)
  | noteNotFoundOnChain (noteId : NoteId)
  | noteTagsLimitExceeded (limit : ℕ)
  | accountLocked (accountId : AccountId)
  | accountDataNotFound (accountId : AccountId)
  | transactionRequestError (error : TransactionRequestError)
  | missingOutputRecipients (digests : List Word)
  | invalidPartialMmrForest
  | mmrError (message : String)
  | blockHeaderNotFound (blockNum : BlockNumber)
  /-- Not an error of the source: a failed `expect`, which ends the operation where it is. -/
  | aborted (message : String)
  deriving DecidableEq, Repr

/-- Represents a note that was consumed in the node at a certain block. -/
structure NullifierUpdate where
  nullifier : Nullifier
  blockNum : BlockNumber
  deriving DecidableEq, Repr

/-- A committed note as the node reports it; without its full metadata when the note has an
attachment that was not fetched. -/
structure CommittedNote where
  noteId : NoteId
  noteType : NoteType
  metadata : Option NoteMetadata
  inclusionProof : NoteInclusionProof
  deriving DecidableEq, Repr

/-- A block that holds notes with the requested tags. -/
structure NoteBlock where
  blockHeader : BlockHeader
  notes : ExtTreeMap NoteId CommittedNote

/-- The possible types of updates that can be applied to a note in the tracker. -/
inductive NoteUpdateType where
  | none
  | insert
  | update
  deriving DecidableEq, Repr

/-- A tracked note record and how it was updated. -/
structure NoteUpdate (record : Type) where
  note : record
  updateType : NoteUpdateType
  deriving DecidableEq, Repr

abbrev InputNoteUpdate := NoteUpdate InputNoteRecord

abbrev OutputNoteUpdate := NoteUpdate OutputNoteRecord

namespace NoteUpdate

variable {record : Type}

/-- Replaces the inner record, which makes a tracked note an updated one (`inner_mut`). -/
def setInner (update : NoteUpdate record) (note : record) : NoteUpdate record where
  note := note
  updateType := match update.updateType with
    | .none | .update => .update
    | .insert => .insert

/-- The note is new or was changed, so it has to be written to the store. -/
def isUpdated (update : NoteUpdate record) : Bool :=
  update.updateType ≠ .none

/-- Applies a fallible event to the record of an entry. A failing event leaves the record. -/
def apply (event : record → Except ClientError record) (update : NoteUpdate record) :
    NoteUpdate record × Except ClientError Unit :=
  match event update.note with
  | .ok note => (update.setInner note, .ok ())
  | .error error => (update.setInner update.note, .error error)

end NoteUpdate

/-- Contains note changes to apply to the store. -/
structure NoteUpdateTracker where
  inputNotes : ExtTreeMap NoteId InputNoteUpdate
  outputNotes : ExtTreeMap NoteId OutputNoteUpdate
  inputNotesByNullifier : ExtTreeMap Nullifier NoteId
  outputNotesByNullifier : ExtTreeMap Nullifier NoteId
  nullifierOrder : ExtTreeMap Nullifier ℕ

/-- A call on the tracker. The tracker survives an error. -/
abbrev TrackerM := EStateM ClientError NoteUpdateTracker

/-- The result of an event on a record, as a result of the client. -/
def recordChange {record : Type} :
    Except NoteRecordError (record × Bool) → Except ClientError (record × Bool)
  | .ok result => .ok result
  | .error error => .error (.noteRecordConversionError error)

/-- The record after an event, whether or not the event changed it. -/
def recordEvent {record : Type} (result : Except NoteRecordError (record × Bool)) :
    Except ClientError record :=
  (recordChange result).map Prod.fst

namespace NoteUpdateTracker

variable [NoteLibrary]

/-! ### Building a tracker -/

def empty : NoteUpdateTracker :=
  ⟨∅, ∅, ∅, ∅, ∅⟩

def insertInputNote (tracker : NoteUpdateTracker) (note : InputNoteRecord)
    (updateType : NoteUpdateType) : NoteUpdateTracker :=
  { tracker with
    inputNotesByNullifier := tracker.inputNotesByNullifier.insert note.nullifier note.id
    inputNotes := tracker.inputNotes.insert note.id ⟨note, updateType⟩ }

/-- The nullifier of an output note is indexed only when it is known. -/
def insertOutputNote (tracker : NoteUpdateTracker) (note : OutputNoteRecord)
    (updateType : NoteUpdateType) : NoteUpdateTracker :=
  { tracker with
    outputNotesByNullifier := match note.nullifier with
      | some nullifier => tracker.outputNotesByNullifier.insert nullifier note.id
      | none => tracker.outputNotesByNullifier
    outputNotes := tracker.outputNotes.insert note.id ⟨note, updateType⟩ }

/-- Creates a tracker with already-tracked notes. -/
def new (inputNotes : List InputNoteRecord) (outputNotes : List OutputNoteRecord) :
    NoteUpdateTracker :=
  outputNotes.foldl (fun tracker note => tracker.insertOutputNote note .none)
    (inputNotes.foldl (fun tracker note => tracker.insertInputNote note .none) empty)

/-- Creates a tracker for updates related to transactions: new input notes, consumed input
notes and new output notes. -/
def forTransactionUpdates (newInputNotes updatedInputNotes : List InputNoteRecord)
    (newOutputNotes : List OutputNoteRecord) : NoteUpdateTracker :=
  newOutputNotes.foldl (fun tracker note => tracker.insertOutputNote note .insert)
    (updatedInputNotes.foldl (fun tracker note => tracker.insertInputNote note .update)
      (newInputNotes.foldl (fun tracker note => tracker.insertInputNote note .insert) empty))

/-- The input notes that have to be written to the store, in id order. -/
def updatedInputNotes (tracker : NoteUpdateTracker) : List InputNoteUpdate :=
  (OrderedMap.values tracker.inputNotes).filter NoteUpdate.isUpdated

/-- The output notes that have to be written to the store, in id order. -/
def updatedOutputNotes (tracker : NoteUpdateTracker) : List OutputNoteUpdate :=
  (OrderedMap.values tracker.outputNotes).filter NoteUpdate.isUpdated

/-- The nullifiers of the input and output notes that are not consumed. -/
def unspentNullifiers (tracker : NoteUpdateTracker) : List Nullifier :=
  ((OrderedMap.values tracker.inputNotes).filter fun update =>
    !update.note.state.isConsumed).map (fun update => update.note.nullifier) ++
  ((OrderedMap.values tracker.outputNotes).filter fun update =>
    !update.note.state.isConsumed).filterMap fun update => update.note.nullifier

/-- Appends nullifiers to the ordered nullifier list; one that is known keeps its position. -/
def extendNullifiers (tracker : NoteUpdateTracker) (nullifiers : List Nullifier) :
    NoteUpdateTracker :=
  { tracker with
    nullifierOrder := nullifiers.foldl
      (fun order nullifier => order.insertIfNew nullifier order.size) tracker.nullifierOrder }

/-! ### The events -/

/-- Applies an event to the record of an input note, if the note is tracked. -/
def changeInputNote (noteId : NoteId)
    (event : InputNoteRecord → Except ClientError InputNoteRecord) : TrackerM Unit :=
  fun tracker =>
    match tracker.inputNotes[noteId]? with
    | none => .ok () tracker
    | some update =>
      let changed := { tracker with
        inputNotes := tracker.inputNotes.insert noteId (update.apply event).1 }
      match (update.apply event).2 with
      | .ok () => .ok () changed
      | .error error => .error error changed

/-- Applies an event to the record of an output note, if the note is tracked. -/
def changeOutputNote (noteId : NoteId)
    (event : OutputNoteRecord → Except ClientError OutputNoteRecord) : TrackerM Unit :=
  fun tracker =>
    match tracker.outputNotes[noteId]? with
    | none => .ok () tracker
    | some update =>
      let changed := { tracker with
        outputNotes := tracker.outputNotes.insert noteId (update.apply event).1 }
      match (update.apply event).2 with
      | .ok () => .ok () changed
      | .error error => .error error changed

/-- Inserts the new public note data into the tracker, once the block header verified it. -/
def applyNewPublicNote (publicNoteData : InputNoteRecord) (blockHeader : BlockHeader) :
    TrackerM Unit :=
  fun tracker =>
    match publicNoteData.blockHeaderReceived blockHeader with
    | .ok (note, _) => .ok () (tracker.insertInputNote note .insert)
    | .error error => .error (.noteRecordConversionError error) tracker

/-- The inclusion proof of a committed note reaches the record of the tracked note. -/
def receiveInclusion (committedNote : CommittedNote) (record : InputNoteRecord) :
    Except ClientError InputNoteRecord :=
  match committedNote.metadata with
  | none =>
    let noteId := committedNote.noteId
    .error (.rpcError (.expectedDataMissing s!"full metadata for committed note {noteId}"))
  | some metadata =>
    recordEvent (record.inclusionProofReceived committedNote.inclusionProof metadata)

/-- Applies the state transitions when a note is committed in a block, and says whether the
note is tracked as an input note. -/
def applyCommittedNoteStateTransitions (committedNote : CommittedNote)
    (blockHeader : BlockHeader) : TrackerM Bool := do
  let tracker ← get
  changeInputNote committedNote.noteId (receiveInclusion committedNote)
  changeInputNote committedNote.noteId
    fun record => recordEvent (record.blockHeaderReceived blockHeader)
  changeOutputNote committedNote.noteId
    fun record => recordEvent (record.inclusionProofReceived committedNote.inclusionProof)
  return tracker.inputNotes.contains committedNote.noteId

/-- The nullifier of a tracked note was received: the note was consumed by the local
transaction that just got committed, or by an external one. -/
def receiveNullifier (nullifierUpdate : NullifierUpdate)
    (committedTransactions : List TransactionRecord) (record : InputNoteRecord) :
    Except ClientError InputNoteRecord :=
  match committedTransactions.find? fun transaction =>
      record.state.consumerTransactionId = some transaction.id with
  | some consumer =>
    match consumer.status with
    | .committed blockNumber _ =>
      recordEvent (record.transactionCommitted consumer.id blockNumber)
    | .pending | .discarded _ => .ok record
  | none =>
    recordEvent (record.consumedExternally nullifierUpdate.nullifier nullifierUpdate.blockNum)

/-- Applies the state transitions to the input note with the nullifier, if there is one. -/
def nullifyInputNote (nullifierUpdate : NullifierUpdate)
    (committedTransactions : List TransactionRecord) : TrackerM Unit :=
  fun tracker =>
    match tracker.inputNotesByNullifier[nullifierUpdate.nullifier]? with
    | none => .ok () tracker
    | some noteId =>
      (do
        changeInputNote noteId (receiveNullifier nullifierUpdate committedTransactions)
        changeInputNote noteId fun record => .ok
          (record.setConsumedTxOrder tracker.nullifierOrder[nullifierUpdate.nullifier]?)) tracker

/-- Applies the state transitions to the output note with the nullifier, if there is one. -/
def nullifyOutputNote (nullifierUpdate : NullifierUpdate) : TrackerM Unit :=
  fun tracker =>
    match tracker.outputNotesByNullifier[nullifierUpdate.nullifier]? with
    | none => .ok () tracker
    | some noteId =>
      changeOutputNote noteId (fun record => recordEvent
        (record.nullifierReceived nullifierUpdate.nullifier nullifierUpdate.blockNum)) tracker

/-- Applies the state transitions when a note is nullified in a block. -/
def applyNullifiersStateTransitions (nullifierUpdate : NullifierUpdate)
    (committedTransactions : List TransactionRecord) : TrackerM Unit := do
  nullifyInputNote nullifierUpdate committedTransactions
  nullifyOutputNote nullifierUpdate

end NoteUpdateTracker

end MidenClient
