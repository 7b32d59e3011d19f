/-
This file models a sync of notes and transactions: the state sync component
(`rust-client/src/sync/state_sync.rs`), the screener that decides which notes it keeps
(`rust-client/src/note/note_screener.rs`), and the update of the store at its end.

The notes and the transactions are followed by two trackers. The transaction tracker is
moved by inclusions, by the new sync height and by nullifiers; the note tracker only by
note blocks and nullifiers. The chain data and the accounts of a sync are not modelled
here: they can make a sync fail, and then nothing of it is stored.
-/

import MidenClient.Note.Import
import MidenClient.Sync.TransactionInclusion
import MidenClient.Sync.OrderedNullifiers

namespace MidenClient

open Std (ExtTreeMap)

/-- The action to be taken when a note update is received as part of the sync response. -/
inductive NoteUpdateAction where
  | commit (committedNote : CommittedNote)
  | insert (publicNote : InputNoteRecord)
  | discard
  deriving DecidableEq, Repr

/-- What a sync starts from. -/
structure StateSyncInput where
  accounts : List AccountId
  inputNotes : List InputNoteRecord
  outputNotes : List OutputNoteRecord
  uncommittedTransactions : List TransactionRecord

/-- What the node answers in a sync. -/
structure RawStateSyncData where
  chainTipHeader : BlockHeader
  noteBlocks : List NoteBlock
  publicNotes : ExtTreeMap NoteId Note
  transactions : List RpcTransactionRecord
  /-- The answer of the later request for the nullifiers of unspent notes. -/
  nullifiers : List NullifierUpdate

/-- The state sync component. -/
structure StateSync where
  noteScreener : CommittedNote → Option InputNoteRecord → Except ClientError NoteUpdateAction
  txDiscardDelta : Option ℕ
  syncNullifiers : Bool

/-- The note and transaction part of the update a sync computes. -/
structure StateSyncUpdate where
  blockNum : BlockNumber
  noteUpdates : NoteUpdateTracker
  transactionUpdates : TransactionUpdateTracker

namespace StateSync

variable [NoteLibrary]

/-! ### Notes -/

/-- Adds the record of a public note, when its inclusion proof is in a note block. -/
def addPublicNote (noteBlocks : List NoteBlock) (records : ExtTreeMap NoteId InputNoteRecord)
    (entry : NoteId × Note) : ExtTreeMap NoteId InputNoteRecord :=
  match noteBlocks.findSome? fun block => block.notes[entry.1]? with
  | some committed => records.insert entry.2.id
      ⟨entry.2.details, none, .unverified ⟨entry.2.metadata, committed.inclusionProof⟩⟩
  | none => records

/-- The records of the public notes whose inclusion proof is in a note block. -/
def publicNoteRecords (data : RawStateSyncData) : ExtTreeMap NoteId InputNoteRecord :=
  data.publicNotes.toList.foldl (addPublicNote data.noteBlocks) ∅

/-- Applies what the screener decided for a note of the block. -/
def applyAction (blockHeader : BlockHeader) : NoteUpdateAction → TrackerM Unit
  | .commit committedNote => do
    let _ ← NoteUpdateTracker.applyCommittedNoteStateTransitions committedNote blockHeader
    return ()
  | .insert publicNote => NoteUpdateTracker.applyNewPublicNote publicNote blockHeader
  | .discard => return ()

/-- The record of a public note, if the node sent it. -/
def publicNoteOf (publicNotes : ExtTreeMap NoteId InputNoteRecord) (note : CommittedNote) :
    Option InputNoteRecord :=
  if note.noteType = .isPrivate then none else publicNotes[note.noteId]?

def screenNote (sync : StateSync) (publicNotes : ExtTreeMap NoteId InputNoteRecord)
    (blockHeader : BlockHeader) (note : CommittedNote) : TrackerM Unit :=
  match sync.noteScreener note (publicNoteOf publicNotes note) with
  | .ok action => applyAction blockHeader action
  | .error error => throw error

/-- Applies the note changes of one block to the tracker. -/
def noteStateSync (sync : StateSync) (publicNotes : ExtTreeMap NoteId InputNoteRecord)
    (block : NoteBlock) : TrackerM Unit :=
  (OrderedMap.values block.notes).forM (sync.screenNote publicNotes block.blockHeader)

/-- The tracker after all note blocks. An error ends the sync, and the tracker is dropped. -/
def applyNoteBlocks (sync : StateSync) (data : RawStateSyncData) (tracker : NoteUpdateTracker) :
    Except ClientError NoteUpdateTracker :=
  match data.noteBlocks.forM (sync.noteStateSync (publicNoteRecords data)) tracker with
  | .ok () changed => .ok changed
  | .error error _ => .error error

/-! ### Transactions and nullifiers -/

/-- The transactions of tracked accounts; without accounts the node is not asked. -/
def includedTransactions (input : StateSyncInput) (data : RawStateSyncData) :
    List RpcTransactionRecord :=
  if input.accounts.isEmpty then [] else data.transactions

/-- Applies the inclusions and then the new sync height to the transactions. -/
def transactionStateSync (sync : StateSync) (newBlockHeader : BlockHeader)
    (included : List RpcTransactionRecord) (tracker : TransactionUpdateTracker) :
    TransactionUpdateTracker :=
  (tracker.applyInclusions included newBlockHeader.timestamp).applySyncHeightUpdate
    newBlockHeader.blockNum sync.txDiscardDelta

/-- Applies one nullifier, first to the notes and then to the transactions. -/
def applyNullifier (update : StateSyncUpdate) (nullifierUpdate : NullifierUpdate) :
    Except ClientError StateSyncUpdate :=
  match NoteUpdateTracker.applyNullifiersStateTransitions nullifierUpdate
      update.transactionUpdates.committedTransactions update.noteUpdates with
  | .ok () notes => .ok { update with
      noteUpdates := notes
      transactionUpdates :=
        update.transactionUpdates.applyInputNoteNullified nullifierUpdate.nullifier }
  | .error error _ => .error error

/-- The nullifiers a sync processes: none when the nullifier sync is disabled, and none that is
newer than the chain tip. -/
def processedNullifiers (sync : StateSync) (data : RawStateSyncData) : List NullifierUpdate :=
  if sync.syncNullifiers then
    data.nullifiers.filter fun update => update.blockNum ≤ data.chainTipHeader.blockNum
  else []

/-! ### The whole sync -/

/-- Syncs with the chain tip of the node, and returns the updates to apply to the store. -/
def syncState (sync : StateSync) (blockNum : BlockNumber) (input : StateSyncInput)
    (data : RawStateSyncData) : Except ClientError StateSyncUpdate :=
  let notes := NoteUpdateTracker.new input.inputNotes input.outputNotes
  let transactions := TransactionUpdateTracker.new input.uncommittedTransactions
  if data.chainTipHeader.blockNum = blockNum then .ok ⟨blockNum, notes, transactions⟩
  else do
    let included := includedTransactions input data
    let screened ← sync.applyNoteBlocks data notes
    (sync.processedNullifiers data).foldlM applyNullifier
      ⟨data.chainTipHeader.blockNum, screened.extendNullifiers (computeOrderedNullifiers included),
        sync.transactionStateSync data.chainTipHeader included transactions⟩

end StateSync

namespace ClientStore

variable [NoteLibrary]

/-- The note of a record with known metadata. -/
def toNote (record : InputNoteRecord) : Except ClientError Note :=
  match record.state.metadata with
  | some metadata => .ok ⟨record.details, metadata⟩
  | none => .error (.noteRecordConversionError
      (.conversionError "Input Note Record does not contain metadata"))

/-- Screens a public note the client does not track: one with a tracked tag is kept, and one
that a tracked account can consume is. -/
def screenPublicNote (store : ClientStore) (canConsume : Note → Except ClientError Bool)
    (publicNote : InputNoteRecord) : Except ClientError NoteUpdateAction :=
  if publicNote.state.metadata.any fun metadata => metadata.tag ∈ store.uniqueNoteTags then
    .ok (.insert publicNote)
  else do
    let note ← toNote publicNote
    let relevant ← canConsume note
    return if relevant then .insert publicNote else .discard

/-- The default callback for a received note: a tracked note is committed, a public note is
screened, and of a private note nothing is known. -/
def onNoteReceived (store : ClientStore) (canConsume : Note → Except ClientError Bool)
    (committedNote : CommittedNote) (publicNote : Option InputNoteRecord) :
    Except ClientError NoteUpdateAction :=
  if committedNote.noteId ∈ store.inputNotes ∨ committedNote.noteId ∈ store.outputNotes then
    .ok (.commit committedNote)
  else match publicNote with
    | some publicNote => store.screenPublicNote canConsume publicNote
    | none => .ok .discard

def buildSyncInput (store : ClientStore) (accounts : List AccountId) : StateSyncInput where
  accounts := accounts
  inputNotes := store.unspentInputNotes
  outputNotes := store.unspentOutputNotes
  uncommittedTransactions := store.uncommittedTransactions

/-- The tags of the notes that are now committed. -/
def tagsToRemove (updates : NoteUpdateTracker) : List NoteTagRecord :=
  updates.updatedInputNotes.filterMap fun update =>
    match update.note.state with
    | .committed state => some (.withNoteSource state.metadata.tag update.note.id)
    | _ => none

/-- The records of a sync that are written back. -/
def settledRecords (tracker : TransactionUpdateTracker) : List TransactionRecord :=
  tracker.committedTransactions ++ tracker.discardedTransactions

/-- Writes the note and transaction part of a sync update. -/
def applyStateSync (store : ClientStore) (update : StateSyncUpdate) : ClientStore :=
  let moved := { store with syncHeight := max store.syncHeight update.blockNum }
  let noted := moved.applyNoteUpdates update.noteUpdates
  let untagged := (tagsToRemove update.noteUpdates).foldl removeNoteTag noted
  (settledRecords update.transactionUpdates).foldl upsertTransactionRecord untagged

/-- What a sync of the client takes from outside the tables: the settings, the tracked
accounts, the answers of the node, what the screener finds consumable, and whether the chain
and account part of the update succeeds. -/
structure SyncEnvironment where
  txDiscardDelta : Option ℕ
  syncNullifiers : Bool
  accounts : List AccountId
  data : RawStateSyncData
  canConsume : Note → Except ClientError Bool
  others : Except ClientError Unit

/-- The component a client syncs with. -/
def stateSync (store : ClientStore) (environment : SyncEnvironment) : StateSync where
  noteScreener := store.onNoteReceived environment.canConsume
  txDiscardDelta := environment.txDiscardDelta
  syncNullifiers := environment.syncNullifiers

/-- Syncs the client's state with the node and applies the update to the store. -/
def syncState (store : ClientStore) (environment : SyncEnvironment) :
    Except ClientError ClientStore := do
  let update ← (store.stateSync environment).syncState store.syncHeight
    (store.buildSyncInput environment.accounts) environment.data
  environment.others
  return store.applyStateSync update

end ClientStore

end MidenClient
