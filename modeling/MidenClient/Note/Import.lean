/-
This file models the import of notes (`rust-client/src/note/import.rs`): from an id, from
note details, or from a note with its inclusion proof.

An import asks the node several questions and writes tags and notes as it goes, so what
it wrote before a failure stays. The answers of the node are functions of the questions;
the header of a block that an inclusion proof is checked against comes from the store or
from the node, and either way it is the header of that block.
-/

import MidenClient.Store.ClientStore

namespace MidenClient

open Std (ExtTreeMap)

/-- The forms in which a note can be handed to the client. -/
inductive NoteFile where
  | noteId (id : NoteId)
  | noteDetails (details : NoteDetails) (afterBlockNum : BlockNumber) (tag : Option NoteTag)
  | noteWithProof (note : Note) (proof : NoteInclusionProof)
  deriving DecidableEq, Repr

/-- A note as the node returns it: in full when it is public, by its header when it is
private. -/
inductive FetchedNote where
  | isPrivate (noteId : NoteId) (metadata : NoteMetadata) (inclusionProof : NoteInclusionProof)
  | isPublic (note : Note) (inclusionProof : NoteInclusionProof)
  deriving DecidableEq, Repr

namespace FetchedNote

def inclusionProof : FetchedNote → NoteInclusionProof
  | .isPrivate _ _ proof => proof
  | .isPublic _ proof => proof

def metadata : FetchedNote → NoteMetadata
  | .isPrivate _ metadata _ => metadata
  | .isPublic note _ => note.metadata

def id [NoteLibrary] : FetchedNote → NoteId
  | .isPrivate noteId _ _ => noteId
  | .isPublic note _ => note.id

end FetchedNote

/-- The answers of the node, and the clock. -/
structure ImportNode where
  getNotesById : List NoteId → Except RpcError (List FetchedNote)
  syncNullifiers : List Nullifier → BlockNumber → Except RpcError (List NullifierUpdate)
  syncNotesWithDetails : BlockNumber → BlockNumber → Finset NoteTag →
    Except RpcError (List NoteBlock)
  getAuthenticatedBlock : BlockNumber → Except ClientError BlockHeader
  noteTagsLimit : Except RpcError ℕ
  currentTimestamp : Option ℕ

/-- An operation of the client on the store. What it wrote survives an error. -/
abbrev ClientM := EStateM ClientError ClientStore

namespace ClientM

/-- Runs a computation that does not write to the store. -/
def attempt {α : Type} (computation : Except ClientError α) : ClientM α :=
  fun store =>
    match computation with
    | .ok value => .ok value store
    | .error error => .error error store

theorem attempt_eq_ok {α : Type} {computation : Except ClientError α} {value : α}
    {start last : ClientStore} :
    attempt computation start = .ok value last ↔ computation = .ok value ∧ start = last := by
  unfold attempt
  cases computation with
  | error reason => simp
  | ok result => simp

/-- Runs the operation unless there is nothing to ask for. -/
def skipWhen {α : Type} (skip : Bool) (nothing : α) (operation : ClientM α) : ClientM α :=
  if skip then pure nothing else operation

/-- Asks the node. -/
def ask {α : Type} (answer : Except RpcError α) : ClientM α :=
  attempt (answer.mapError .rpcError)

end ClientM

open ClientM

/-- A note that is asked for by its inclusion proof, with the stored record of it. -/
abbrev ProofRequest := Option InputNoteRecord × Note × NoteInclusionProof

/-- A note that is asked for by its details, with the stored record of it. -/
abbrev DetailsRequest := Option InputNoteRecord × NoteDetails × BlockNumber × Option NoteTag

section Import

variable [NoteLibrary] (node : ImportNode)

/-- Tracks a tag, after a check of the note tags limit. -/
def insertNoteTag (record : NoteTagRecord) : ClientM Unit := do
  let limit ← ask node.noteTagsLimit
  fun store =>
    if limit ≤ store.uniqueNoteTags.card then .error (.noteTagsLimitExceeded limit) store
    else .ok () (store.addNoteTag record)

/-- The tag record of a note with known metadata. -/
def noteTagRecord (record : InputNoteRecord) : Except ClientError NoteTagRecord :=
  match record.state.metadata with
  | some metadata => .ok (.withNoteSource metadata.tag record.id)
  | none => .error (.noteRecordConversionError
      (.conversionError "Input Note Record does not contain tag"))

/-! ### Notes with an inclusion proof -/

/-- The block in which the nullifier was reported, if it was. -/
def commitHeight (updates : List NullifierUpdate) (nullifier : Nullifier) : Option BlockNumber :=
  (updates.find? fun update => update.nullifier = nullifier).map NullifierUpdate.blockNum

/-- The stored record, or a record of an expected note. -/
def recordOfProofRequest (request : ProofRequest) : InputNoteRecord :=
  request.1.getD ⟨request.2.1.details, node.currentTimestamp, .expected
    ⟨some request.2.1.metadata, request.2.2.blockNum, some request.2.1.metadata.tag⟩⟩

/-- A proof from a block the client already passed is checked against the header of that
block. For a later block the tag is tracked, so that the next sync brings the header. -/
def verifyImported (record : InputNoteRecord) (proof : NoteInclusionProof) (tag : NoteTag) :
    ClientM (InputNoteRecord × Bool) :=
  fun store =>
    (if proof.blockNum ≤ store.syncHeight then do
      let blockHeader ← attempt (node.getAuthenticatedBlock proof.blockNum)
      attempt (recordChange (record.blockHeaderReceived blockHeader))
    else do
      insertNoteTag node (.withNoteSource tag record.id)
      return (record, false)) store

/-- The record of an unspent note with its proof, if the proof changed it. -/
def importUnspent (record : InputNoteRecord) (note : Note) (proof : NoteInclusionProof) :
    ClientM (List (Option InputNoteRecord)) := do
  let received ← attempt (recordChange (record.inclusionProofReceived proof note.metadata))
  let verified ← verifyImported node received.1 proof note.metadata.tag
  return [if received.2 || verified.2 then some verified.1 else none]

/-- The record of a note that was spent, if that changed it, and then an empty entry. -/
def importSpent (record : InputNoteRecord) (blockHeight : BlockNumber) :
    ClientM (List (Option InputNoteRecord)) := do
  let consumed ← attempt (recordChange (record.consumedExternally record.nullifier blockHeight))
  return (if consumed.2 then [some consumed.1] else []) ++ [none]

def importProofRequest (updates : List NullifierUpdate) (request : ProofRequest) :
    ClientM (List (Option InputNoteRecord)) :=
  match commitHeight updates (recordOfProofRequest node request).nullifier with
  | some blockHeight => importSpent (recordOfProofRequest node request) blockHeight
  | none => importUnspent node (recordOfProofRequest node request) request.2.1 request.2.2

/-- The nullifiers that are asked for, and the lowest block of the proofs. -/
def nullifierRequest (requests : List ProofRequest) : List Nullifier × BlockNumber :=
  (requests.map fun request =>
      (request.1.map InputNoteRecord.nullifier).getD request.2.1.nullifier,
    requests.foldl (fun lowest request => min lowest request.2.2.blockNum) (2 ^ 32 - 1))

/-- Builds a note record list from notes and inclusion proofs. -/
def importNoteRecordsByProof (requests : List ProofRequest) :
    ClientM (List (Option InputNoteRecord)) := do
  let updates ← ask (node.syncNullifiers (nullifierRequest requests).1
    (nullifierRequest requests).2)
  requests.foldlM (fun records request => do
    let imported ← importProofRequest node updates request
    return records ++ imported) []

/-! ### Notes by id -/

/-- The records found so far, and the public notes that still have to be imported. -/
abbrev FetchProgress := ExtTreeMap NoteId (Option InputNoteRecord) × List ProofRequest

/-- A note that is stored takes the fetched proof; its tag is dropped when that changed it. -/
def updatePrevious (progress : FetchProgress) (previous : InputNoteRecord)
    (fetched : FetchedNote) : ClientM FetchProgress := do
  let received ← attempt
    (recordChange (previous.inclusionProofReceived fetched.inclusionProof fetched.metadata))
  if received.2 then
    let tag ← attempt (noteTagRecord received.1)
    modify fun store => store.removeNoteTag tag
    return (progress.1.insert fetched.id (some received.1), progress.2)
  else return (progress.1.insert fetched.id none, progress.2)

def importFetched (requests : ExtTreeMap NoteId (Option InputNoteRecord))
    (progress : FetchProgress) (fetched : FetchedNote) : ClientM FetchProgress :=
  match requests[fetched.id]?, fetched with
  | none, _ =>
    let noteId := fetched.id
    throw (.noteImportError s!"Failed to retrieve note with id {noteId} from node")
  | some (some previous), _ => updatePrevious progress previous fetched
  | some none, .isPrivate _ _ _ => throw (.noteImportError "Incomplete imported note is private")
  | some none, .isPublic note proof => return (progress.1, progress.2 ++ [(none, note, proof)])

/-- An unknown note is reported as such. -/
def fetchError : RpcError → ClientError
  | .noteNotFound noteId => .noteNotFoundOnChain noteId
  | error => .rpcError error

def nonempty (fetched : List FetchedNote) : Except ClientError (List FetchedNote) :=
  if fetched.isEmpty then .error (.noteImportError "No notes fetched from node") else .ok fetched

/-- Adds the records that were imported by their proof. -/
def importRemaining (progress : FetchProgress) :
    ClientM (ExtTreeMap NoteId (Option InputNoteRecord)) :=
  if progress.2.isEmpty then return progress.1
  else do
    let imported ← importNoteRecordsByProof node progress.2
    return imported.reduceOption.foldl
      (fun records record => records.insert record.id (some record)) progress.1

/-- Builds a note record map from the note ids. -/
def importNoteRecordsById (requests : ExtTreeMap NoteId (Option InputNoteRecord)) :
    ClientM (ExtTreeMap NoteId (Option InputNoteRecord)) := do
  let answer ← attempt ((node.getNotesById requests.keys).mapError fetchError)
  let fetched ← attempt (nonempty answer)
  let progress ← fetched.foldlM (importFetched requests) (∅, [])
  importRemaining node progress

/-! ### Notes by details -/

/-- The proofs of the committed notes among the expected ones. -/
def retrievedProofs (expectedNotes : List (NoteId × NoteTag)) (currentBlockNum : BlockNumber)
    (blocks : List NoteBlock) : Except ClientError
      (ExtTreeMap NoteId (NoteMetadata × NoteInclusionProof)) :=
  ((blocks.takeWhile fun block => block.blockHeader.blockNum ≤ currentBlockNum).flatMap
      fun block => (OrderedMap.values block.notes)).foldlM (fun proofs syncNote =>
    if expectedNotes.any fun expected => expected.1 = syncNote.noteId then
      match syncNote.metadata with
      | some metadata => .ok (proofs.insert syncNote.noteId (metadata, syncNote.inclusionProof))
      | none => .error (.aborted "metadata should be available after sync_notes_with_details")
    else .ok proofs) ∅

/-- Checks if the expected notes are present in the chain up to the current block. -/
def checkExpectedNotes (requestBlockNum : BlockNumber) (expectedNotes : List (NoteId × NoteTag)) :
    ClientM (ExtTreeMap NoteId (NoteMetadata × NoteInclusionProof)) :=
  fun store =>
    (if store.syncHeight < requestBlockNum then return ∅
    else do
      let blocks ← ask (node.syncNotesWithDetails requestBlockNum store.syncHeight
        (expectedNotes.map Prod.snd).toFinset)
      attempt (retrievedProofs expectedNotes store.syncHeight blocks)) store

/-- The stored record, or a record of an expected note without metadata. -/
def recordOfDetailsRequest (request : DetailsRequest) : InputNoteRecord :=
  request.1.getD ⟨request.2.1, node.currentTimestamp,
    .expected ⟨none, request.2.2.1, request.2.2.2⟩⟩

/-- A committed note takes its proof and the header of its block; its tag is dropped when
that changed it. -/
def importCommitted (record : InputNoteRecord) (metadata : NoteMetadata)
    (proof : NoteInclusionProof) : ClientM (Option InputNoteRecord) := do
  let blockHeader ← attempt (node.getAuthenticatedBlock proof.blockNum)
  let received ← attempt (recordChange (record.inclusionProofReceived proof metadata))
  let verified ← attempt (recordChange (received.1.blockHeaderReceived blockHeader))
  if verified.2 || received.2 then
    modify fun store => store.removeNoteTag (.withNoteSource metadata.tag verified.1.id)
    return some verified.1
  else return none

/-- The committed notes that are left, and the records found so far. -/
abbrev DetailsProgress :=
  ExtTreeMap NoteId (NoteMetadata × NoteInclusionProof) × List (Option InputNoteRecord)

def importDetailsRequest (progress : DetailsProgress) (request : DetailsRequest) :
    ClientM DetailsProgress :=
  match progress.1[(recordOfDetailsRequest node request).id]? with
  | some data => do
    let imported ← importCommitted node (recordOfDetailsRequest node request) data.1 data.2
    return (progress.1.erase (recordOfDetailsRequest node request).id, progress.2 ++ [imported])
  | none => return (progress.1, progress.2 ++ [some (recordOfDetailsRequest node request)])

/-- The expected notes with a tag, and the lowest block they are expected after. -/
def expectedNotesRequest (requests : List DetailsRequest) :
    BlockNumber × List (NoteId × NoteTag) :=
  (requests.foldl (fun lowest request =>
      if request.2.2.2.isSome then min lowest request.2.2.1 else lowest) (2 ^ 32 - 1),
    requests.filterMap fun request => request.2.2.2.map fun tag => (request.2.1.id, tag))

/-- Builds a note record list from note details. -/
def importNoteRecordsByDetails (requests : List DetailsRequest) :
    ClientM (List (Option InputNoteRecord)) := do
  let proofs ← checkExpectedNotes node (expectedNotesRequest requests).1
    (expectedNotesRequest requests).2
  let progress ← requests.foldlM (importDetailsRequest node) (proofs, [])
  return progress.2

/-! ### The whole import -/

def NoteFile.id : NoteFile → NoteId
  | .noteId id => id
  | .noteDetails details _ _ => details.id
  | .noteWithProof note _ => note.id

/-- The files by note id; the last file of a note counts. -/
def noteIdsMap (noteFiles : List NoteFile) : ExtTreeMap NoteId NoteFile :=
  ExtTreeMap.ofList (noteFiles.map fun noteFile => (noteFile.id, noteFile))

/-- The requests of an import, by the kind of file. -/
structure ImportRequests where
  byId : ExtTreeMap NoteId (Option InputNoteRecord)
  byDetails : List DetailsRequest
  byProof : List ProofRequest

/-- Sorts one file into the requests. A note that is being processed is not overwritten. -/
def addRequest (store : ClientStore) (requests : ImportRequests) (entry : NoteId × NoteFile) :
    Except ClientError ImportRequests :=
  let previousNote := store.inputNotes[entry.1]?
  if previousNote.any fun note => note.state.isProcessing then
    let noteId := entry.1
    .error (.noteImportError
      s!"Can't overwrite note with id {noteId} as it's currently being processed")
  else match entry.2 with
    | .noteId id => .ok { requests with byId := requests.byId.insert id previousNote }
    | .noteDetails details afterBlockNum tag => .ok { requests with
        byDetails := requests.byDetails ++ [(previousNote, details, afterBlockNum, tag)] }
    | .noteWithProof note proof => .ok { requests with
        byProof := requests.byProof ++ [(previousNote, note, proof)] }

/-- The requests of the files, against the stored notes. -/
def importRequests (store : ClientStore) (noteFiles : List NoteFile) :
    Except ClientError ImportRequests :=
  (noteIdsMap noteFiles).toList.foldlM (addRequest store) ⟨∅, [], []⟩

/-- The records the requests lead to. -/
def importRecords (requests : ImportRequests) : ClientM (List (Option InputNoteRecord)) := do
  let byId ← skipWhen requests.byId.isEmpty ∅ (importNoteRecordsById node requests.byId)
  let byDetails ← skipWhen requests.byDetails.isEmpty []
    (importNoteRecordsByDetails node requests.byDetails)
  let byProof ← skipWhen requests.byProof.isEmpty []
    (importNoteRecordsByProof node requests.byProof)
  return OrderedMap.values byId ++ byDetails ++ byProof

/-- Tracks the tag of an expected note. -/
def trackTag (note : InputNoteRecord) : ClientM Unit :=
  match note.state with
  | .expected ⟨_, _, some tag⟩ => insertNoteTag node (.withNoteSource tag note.id)
  | _ => pure ()

/-- Stores one imported note. -/
def storeImported (noteIds : List NoteId) (note : InputNoteRecord) : ClientM (List NoteId) := do
  trackTag node note
  modify fun store => store.upsertInputNote note
  return noteIds ++ [note.id]

/-- Imports a batch of new input notes into the client's store. -/
def importNotes (noteFiles : List NoteFile) : ClientM (List NoteId) := do
  let store ← get
  let requests ← attempt (importRequests store noteFiles)
  let imported ← importRecords node requests
  imported.reduceOption.foldlM (storeImported node) []

end Import

end MidenClient
