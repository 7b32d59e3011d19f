/-
This file models the tables of the store that hold notes, tags and transactions
(`sqlite-store/src/note`, `sqlite-store/src/sync.rs`, `sqlite-store/src/transaction.rs`),
and what an executed transaction writes to them.

The account tables have a model of their own. An operation of the client that also
writes to them runs in one database transaction, so all that enters here is whether that
part succeeded.
-/

import MidenClient.Library.Fallible
import MidenClient.Note.NoteUpdateTracker

namespace MidenClient

open Std (ExtTreeMap)

/-- Represents the source of a tracked tag. -/
inductive NoteTagSource where
  | account (accountId : AccountId)
  | note (noteId : NoteId)
  | user
  deriving DecidableEq, Repr

/-- Represents a note tag of which the store can keep track and retrieve. -/
structure NoteTagRecord where
  tag : NoteTag
  source : NoteTagSource
  deriving DecidableEq, Repr

def NoteTagRecord.withNoteSource (tag : NoteTag) (noteId : NoteId) : NoteTagRecord :=
  ⟨tag, .note noteId⟩

/-- The note, tag and transaction tables, and the block the client is synced to. -/
structure ClientStore where
  inputNotes : ExtTreeMap NoteId InputNoteRecord
  outputNotes : ExtTreeMap NoteId OutputNoteRecord
  transactions : ExtTreeMap TransactionId TransactionRecord
  noteTags : List NoteTagRecord
  syncHeight : BlockNumber

namespace ClientStore

/-- The tables of a new store. -/
def empty : ClientStore :=
  ⟨∅, ∅, ∅, [], 0⟩

variable [NoteLibrary]

/-! ### Notes -/

/-- An input note as it is read back: an unknown creation time is stored as zero. -/
def storedInputNote (note : InputNoteRecord) : InputNoteRecord :=
  { note with createdAt := some (note.createdAt.getD 0) }

def upsertInputNote (store : ClientStore) (note : InputNoteRecord) : ClientStore :=
  { store with inputNotes := store.inputNotes.insert note.id (storedInputNote note) }

/-- Writes one tracked input note: a new note as a whole, an updated one by its state. -/
def applyInputNoteUpdate (store : ClientStore) (update : InputNoteUpdate) : ClientStore :=
  match update.updateType with
  | .insert => store.upsertInputNote update.note
  | .update => { store with
      inputNotes := store.inputNotes.modify update.note.id fun record =>
        { record with state := update.note.state } }
  | .none => store

/-- Writes one tracked output note: a new note as a whole, an updated one by its state. -/
def applyOutputNoteUpdate (store : ClientStore) (update : OutputNoteUpdate) : ClientStore :=
  match update.updateType with
  | .insert => { store with outputNotes := store.outputNotes.insert update.note.id update.note }
  | .update => { store with
      outputNotes := store.outputNotes.modify update.note.id fun record =>
        { record with state := update.note.state } }
  | .none => store

/-- Writes the notes a tracker reports as updated. -/
def applyNoteUpdates (store : ClientStore) (updates : NoteUpdateTracker) : ClientStore :=
  updates.updatedOutputNotes.foldl applyOutputNoteUpdate
    (updates.updatedInputNotes.foldl applyInputNoteUpdate store)

/-- The states `NoteFilter::Unspent` selects: every one that is neither consumed nor invalid. -/
def isUnspentState : InputNoteState → Bool
  | .expected _ | .processingAuthenticated _ | .processingUnauthenticated _ | .unverified _
  | .committed _ => true
  | _ => false

def unspentInputNotes (store : ClientStore) : List InputNoteRecord :=
  (OrderedMap.values store.inputNotes).filter fun note => isUnspentState note.state

def unspentOutputNotes (store : ClientStore) : List OutputNoteRecord :=
  (OrderedMap.values store.outputNotes).filter fun note => !note.state.isConsumed

/-- The stored input notes with an id of the list, in the order of the table. -/
def inputNotesWithIds (store : ClientStore) (noteIds : List NoteId) : List InputNoteRecord :=
  (store.inputNotes.toList.filter fun entry => entry.1 ∈ noteIds).map Prod.snd

/-! ### Tags -/

def uniqueNoteTags (store : ClientStore) : Finset NoteTag :=
  (store.noteTags.map NoteTagRecord.tag).toFinset

/-- Tracks a tag, unless the same record is there already. -/
def addNoteTag (store : ClientStore) (record : NoteTagRecord) : ClientStore :=
  if record ∈ store.noteTags then store
  else { store with noteTags := store.noteTags ++ [record] }

def removeNoteTag (store : ClientStore) (record : NoteTagRecord) : ClientStore :=
  { store with noteTags := store.noteTags.filter (· ≠ record) }

/-! ### Transactions -/

def upsertTransactionRecord (store : ClientStore) (record : TransactionRecord) : ClientStore :=
  { store with transactions := store.transactions.insert record.id record }

/-- `TransactionFilter::Uncommitted` selects the pending transactions. -/
def uncommittedTransactions (store : ClientStore) : List TransactionRecord :=
  (OrderedMap.values store.transactions).filter fun record => record.status.isPending

/-- What the client reads of an executed transaction. -/
structure ExecutedTransaction where
  id : TransactionId
  details : TransactionDetails
  /-- The notes the transaction consumes. -/
  inputNotes : List NoteId
  outputNotes : List RawOutputNote
  /-- Notes that are expected to be created later. -/
  futureNotes : List (NoteDetails × NoteTag)

/-- What an update of the tables takes from outside them: the height the transaction was
submitted at, the clock, the output notes the screener finds consumable, and whether the
account part of the update succeeds. -/
structure TransactionEnvironment where
  submissionHeight : BlockNumber
  currentTimestamp : Option ℕ
  relevances : Except ClientError (List NoteId)
  accounts : Except ClientError Unit

/-- The input notes a transaction brings: its own consumable outputs and the future notes. -/
def newInputNotes (store : ClientStore) (transaction : ExecutedTransaction)
    (environment : TransactionEnvironment) (relevant : List NoteId) : List InputNoteRecord :=
  transaction.outputNotes.filterMap (fun
    | .full note =>
      if note.id ∈ relevant then
        some ⟨note.details, environment.currentTimestamp, .expected ⟨some note.metadata,
          environment.submissionHeight, some note.metadata.tag⟩⟩
      else none
    | .partialNote _ => none) ++
  transaction.futureNotes.map fun future =>
    ⟨future.1, none, .expected ⟨none, store.syncHeight, some future.2⟩⟩

/-- Marks one stored note as processed by the transaction. -/
def consumeInputNote (transaction : ExecutedTransaction) (currentTimestamp : Option ℕ)
    (updated : List InputNoteRecord) (note : InputNoteRecord) :
    Except ClientError (List InputNoteRecord) := do
  let result ← recordChange (note.consumedLocally transaction.details.accountId transaction.id
    currentTimestamp)
  return if result.2 then updated ++ [result.1] else updated

/-- The stored notes that the transaction consumes, once they are marked as processing. The
first note that cannot be consumed makes the whole update fail. -/
def consumedInputNotes (store : ClientStore) (transaction : ExecutedTransaction)
    (currentTimestamp : Option ℕ) : Except ClientError (List InputNoteRecord) :=
  (store.inputNotesWithIds transaction.inputNotes).foldlM
    (consumeInputNote transaction currentTimestamp) []

/-- Compiles the note updates to apply to the store after executing a transaction. -/
def getNoteUpdates (store : ClientStore) (transaction : ExecutedTransaction)
    (environment : TransactionEnvironment) : Except ClientError NoteUpdateTracker := do
  let relevant ← environment.relevances
  let updatedInputNotes ← store.consumedInputNotes transaction environment.currentTimestamp
  return .forTransactionUpdates (store.newInputNotes transaction environment relevant)
    updatedInputNotes (transaction.outputNotes.map fun note =>
      .tryFromOutputNote note environment.submissionHeight)

/-- The tags of the notes a transaction update brings. -/
def newTags (updates : NoteUpdateTracker) : List NoteTagRecord :=
  updates.updatedInputNotes.filterMap (fun update =>
    match update.note.state with
    | .expected state => state.tag.map fun tag => .withNoteSource tag update.note.id
    | _ => none) ++
  updates.updatedOutputNotes.map fun update =>
    .withNoteSource update.note.metadata.tag update.note.id

/-- The record of a transaction that was just submitted. -/
def submittedRecord (transaction : ExecutedTransaction) (submissionHeight : BlockNumber) :
    TransactionRecord :=
  ⟨transaction.id, { transaction.details with submissionHeight := submissionHeight }, .pending⟩

/-- Persists the effects of a submitted transaction. -/
def applyTransaction (store : ClientStore) (transaction : ExecutedTransaction)
    (environment : TransactionEnvironment) : Except ClientError ClientStore := do
  let updates ← store.getNoteUpdates transaction environment
  environment.accounts
  let noted := (store.upsertTransactionRecord
    (submittedRecord transaction environment.submissionHeight)).applyNoteUpdates updates
  return { noted with noteTags := noted.noteTags ++ newTags updates }

end ClientStore

end MidenClient
