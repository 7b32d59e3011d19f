/-
This file models how the client executes a transaction and records it afterwards
(`rust-client/src/transaction/mod.rs`): the checks on the stored input notes, the notes
that are written before the execution, and the account check before the result is stored.

The script, the foreign accounts, the checker of consumable notes and the executor are
code the client calls. They do not write to the note tables, so each of them enters as
the answer it gives.
-/

import MidenClient.Note.Import

namespace MidenClient

open Std (ExtTreeMap)
open ClientM

/-- Represents the status of an account in the store. -/
inductive AccountStatus where
  | new (seed : Word)
  | tracked
  /-- The local state does not match the state of the node, so it cannot be used. -/
  | locked (seed : Option Word)
  deriving DecidableEq, Repr

def AccountStatus.isLocked : AccountStatus → Bool
  | .locked _ => true
  | .new _ | .tracked => false

/-- A note as the executor takes it. -/
inductive InputNote where
  | authenticated (note : Note) (proof : NoteInclusionProof)
  | unauthenticated (note : Note)
  deriving DecidableEq, Repr

namespace InputNote

def note : InputNote → Note
  | .authenticated note _ | .unauthenticated note => note

def id [NoteLibrary] (inputNote : InputNote) : NoteId :=
  inputNote.note.id

end InputNote

/-- What a request says about notes: the ones to consume, the recipients its outputs have to
name, and the notes expected from later transactions. -/
structure TransactionRequest where
  inputNotes : List Note
  expectedOutputRecipients : ExtTreeMap Word NoteRecipient
  expectedFutureNotes : ExtTreeMap NoteId (NoteDetails × NoteTag)
  ignoreInvalidInputNotes : Bool

section Execution

variable [NoteLibrary]

/-- The check which of some notes an account can consume. It only reports notes it was
asked about. -/
structure NoteConsumptionChecker where
  failed : List Note → Except ClientError (List NoteId)
  reported : ∀ {notes noteIds}, failed notes = .ok noteIds →
    ∀ noteId ∈ noteIds, ∃ note ∈ notes, note.id = noteId

/-- What the executor reports of a transaction, besides the account and the notes it was
given. -/
structure ExecutionOutcome where
  id : TransactionId
  details : TransactionDetails
  outputNotes : List RawOutputNote

/-- The answers of the code the client calls to execute a transaction. -/
structure ExecutionEnvironment where
  validateRequest : Except ClientError Unit
  /-- `InputNotes::new` checks the number of notes and that they are distinct. -/
  checkInputNotes : List InputNote → Except TransactionRequestError Unit
  /-- Builds the script, fetches the foreign accounts and stores the note scripts. -/
  prepare : Except ClientError Unit
  /-- The accounts of the store, with their status. -/
  accounts : AccountId → Option AccountStatus
  checker : NoteConsumptionChecker
  execute : List InputNote → Except ClientError ExecutionOutcome

/-! ### The input notes -/

/-- The record of a note that is not stored with a verified proof. -/
def InputNoteRecord.ofNote (note : Note) : InputNoteRecord :=
  ⟨note.details, none, .expected ⟨some note.metadata, 0, some note.metadata.tag⟩⟩

/-- The note of a record with metadata, together with its proof if it has one. -/
def InputNoteRecord.toInputNote (record : InputNoteRecord) : Option InputNote :=
  record.state.metadata.map fun metadata =>
    match record.state.inclusionProof with
    | some proof => .authenticated ⟨record.details, metadata⟩ proof
    | none => .unauthenticated ⟨record.details, metadata⟩

/-- Takes a note out of the map of the notes that were prepared. -/
def takeInputNote (progress : ExtTreeMap NoteId InputNote × List InputNote) (noteId : NoteId) :
    Except ClientError (ExtTreeMap NoteId InputNote × List InputNote) :=
  match progress.1[noteId]? with
  | some note => .ok (progress.1.erase noteId, progress.2 ++ [note])
  | none => .error (.aborted "The input note map was checked to contain all input notes")

/-- Adds a stored note to the map of input notes. -/
def addAuthenticated (inputNotes : ExtTreeMap NoteId InputNote) (record : InputNoteRecord) :
    Except ClientError (ExtTreeMap NoteId InputNote) :=
  if !record.state.isAuthenticated then
    .error (.transactionRequestError (.inputNoteNotAuthenticated record.id))
  else if record.state.isConsumed then
    .error (.transactionRequestError (.inputNoteAlreadyConsumed record.id))
  else match record.toInputNote with
    | some note => .ok (inputNotes.insert record.id note)
    | none => .error
        (.aborted "Authenticated note record should be convertible to InputNote")

namespace TransactionRequest

variable (request : TransactionRequest)

def inputNoteIds : List NoteId :=
  request.inputNotes.map Note.id

/-- The notes of the request that are not among the stored notes with a verified proof. -/
def unauthenticatedNotes (authenticatedNoteIds : List NoteId) : List Note :=
  request.inputNotes.filter fun note => note.id ∉ authenticatedNoteIds

/-- Builds the notes for the execution, in the order of the request. A note that is not
authenticated is given as the request has it. -/
def buildInputNotes (environment : ExecutionEnvironment)
    (authenticatedNoteRecords : List InputNoteRecord) : Except ClientError (List InputNote) := do
  let authenticated ← authenticatedNoteRecords.foldlM addAuthenticated ∅
  let inputNotes := (request.unauthenticatedNotes authenticated.keys).foldl
    (fun notes note => notes.insert note.id (.unauthenticated note)) authenticated
  let taken ← request.inputNoteIds.foldlM takeInputNote (inputNotes, [])
  (environment.checkInputNotes taken.2).mapError .transactionRequestError
  return taken.2

end TransactionRequest

/-! ### The execution -/

/-- None of the stored input notes is consumed already. -/
def checkNotConsumed (records : List InputNoteRecord) : Except ClientError Unit :=
  match records.find? fun record => record.state.isConsumed with
  | some record => .error (.transactionRequestError (.inputNoteAlreadyConsumed record.id))
  | none => .ok ()

/-- The notes without the ones that were reported. -/
def withoutFailed (notes : List InputNote) (failedNoteIds : List NoteId) : List InputNote :=
  notes.filter fun note => note.id ∉ failedNoteIds

/-- Dropping reported notes that are there makes the list shorter. -/
theorem length_withoutFailed_lt {notes : List InputNote} {failedNoteIds : List NoteId}
    {note : InputNote} (listed : note ∈ notes) (failed : note.id ∈ failedNoteIds) :
    (withoutFailed notes failedNoteIds).length < notes.length := by
  refine List.length_filter_lt_length_iff_exists.mpr ⟨note, listed, ?_⟩
  simp only [failed, not_true_eq_false, decide_false, Bool.false_eq_true, not_false_eq_true]

/-- Drops the notes that cannot be consumed until every one that is left can be. -/
def getValidInputNotes (checker : NoteConsumptionChecker) (notes : List InputNote) :
    Except ClientError (List InputNote) :=
  match _ : checker.failed (notes.map InputNote.note) with
  | .error error => .error error
  | .ok [] => .ok notes
  | .ok (first :: rest) => getValidInputNotes checker (withoutFailed notes (first :: rest))
termination_by notes.length
decreasing_by
  rename_i outcome
  obtain ⟨note, member, same⟩ := checker.reported outcome first List.mem_cons_self
  obtain ⟨inputNote, listed, rfl⟩ := List.mem_map.mp member
  exact length_withoutFailed_lt listed (List.mem_cons.mpr (Or.inl same))

/-- The notes that the executor is given. -/
def executedNotes (environment : ExecutionEnvironment) (request : TransactionRequest)
    (notes : List InputNote) : Except ClientError (List InputNote) :=
  if request.ignoreInvalidInputNotes then getValidInputNotes environment.checker notes
  else .ok notes

/-- The recipient of a note the executor created, if it is known. -/
def RawOutputNote.recipient : RawOutputNote → Option NoteRecipient
  | .full note => some note.details.recipient
  | .partialNote _ => none

/-- The outputs name every recipient the request expects. -/
def validateExecutedTransaction (outputNotes : List RawOutputNote)
    (expectedOutputRecipients : List NoteRecipient) : Except ClientError Unit :=
  let digests := outputNotes.filterMap fun note =>
    note.recipient.map NoteRecipient.digest
  match (expectedOutputRecipients.map NoteRecipient.digest).filter (· ∉ digests) with
  | [] => .ok ()
  | missing => .error (.missingOutputRecipients missing)

/-- The stored notes of the request that have a verified proof. -/
def authenticatedRecords (store : ClientStore) (request : TransactionRequest) :
    List InputNoteRecord :=
  (store.inputNotesWithIds request.inputNoteIds).filter fun record =>
    record.state.isAuthenticated

/-- Writes the notes of the request that have no verified proof as expected notes. -/
def upsertUnauthenticated (store : ClientStore) (request : TransactionRequest) : ClientStore :=
  ((request.unauthenticatedNotes
      ((authenticatedRecords store request).map InputNoteRecord.id)).map
    InputNoteRecord.ofNote).foldl ClientStore.upsertInputNote store

/-- The store has the account. -/
def checkKnown (accounts : AccountId → Option AccountStatus) (accountId : AccountId) :
    Except ClientError Unit :=
  match accounts accountId with
  | none => .error (.accountDataNotFound accountId)
  | some _ => .ok ()

/-- What follows once the notes of the request are stored. None of it writes to the note
tables. -/
def runExecution (environment : ExecutionEnvironment) (accountId : AccountId)
    (request : TransactionRequest) (authenticated : List InputNoteRecord) :
    Except ClientError ClientStore.ExecutedTransaction := do
  let notes ← request.buildInputNotes environment authenticated
  environment.prepare
  checkKnown environment.accounts accountId
  let executed ← executedNotes environment request notes
  let outcome ← environment.execute executed
  validateExecutedTransaction outcome.outputNotes
    (OrderedMap.values request.expectedOutputRecipients)
  return ⟨outcome.id, { outcome.details with accountId := accountId },
    executed.map InputNote.id, outcome.outputNotes,
    OrderedMap.values request.expectedFutureNotes⟩

/-- Creates and executes a transaction specified by the request against the account. -/
def executeTransaction (environment : ExecutionEnvironment) (accountId : AccountId)
    (request : TransactionRequest) : ClientM ClientStore.ExecutedTransaction := do
  attempt environment.validateRequest
  let store ← get
  attempt (checkNotConsumed (store.inputNotesWithIds request.inputNoteIds))
  modify fun store => upsertUnauthenticated store request
  attempt (runExecution environment accountId request (authenticatedRecords store request))

/-! ### Recording the result -/

/-- The account is tracked and not locked. -/
def checkNotLocked (accounts : AccountId → Option AccountStatus) (accountId : AccountId) :
    Except ClientError Unit :=
  match accounts accountId with
  | none => .error (.accountDataNotFound accountId)
  | some status => if status.isLocked then .error (.accountLocked accountId) else .ok ()

/-- Persists the effects of a submitted transaction, unless its account is locked. -/
def recordTransaction (store : ClientStore) (accounts : AccountId → Option AccountStatus)
    (transaction : ClientStore.ExecutedTransaction)
    (environment : ClientStore.TransactionEnvironment) : Except ClientError ClientStore :=
  store.applyTransaction transaction { environment with
    accounts := do
      checkNotLocked accounts transaction.details.accountId
      environment.accounts }

end Execution

end MidenClient
