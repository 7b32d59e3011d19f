/-
This file models how the client fetches private notes from the note transport network
(`rust-client/src/note_transport/mod.rs`, and the cursor in `rust-client/src/store/mod.rs`),
on request and as the first part of a sync (`rust-client/src/sync/mod.rs`).

A fetched batch is handled as a whole: all its notes are decoded, then all are imported,
and then the cursor is stored. The first error ends the fetch, and with it the sync that
made it.
-/

import MidenClient.Sync.StateSync

namespace MidenClient

/-- Deserialization of note details, which reads them from the front of the bytes. -/
class NoteDetailsReader where
  readNoteDetails : List UInt8 → Except String NoteDetails

/-- The errors of the note transport. -/
inductive NoteTransportError where
  | disabled
  | connection (message : String)
  | deserialization (message : String)
  | network (message : String)
  deriving DecidableEq, Repr

/-- The errors of a fetch, or of a sync that begins with one. -/
inductive TransportClientError where
  | noteTransportError (error : NoteTransportError)
  | dataDeserializationError (message : String)
  | clientError (error : ClientError)
  deriving DecidableEq, Repr

/-- A note as the transport network labels it. -/
structure NoteHeader where
  noteId : NoteId
  metadata : NoteMetadata
  deriving DecidableEq, Repr

/-- Information about a note fetched from the note transport network. Its details are what the
sender says they are. -/
structure NoteInfo where
  header : NoteHeader
  detailsBytes : List UInt8
  deriving DecidableEq, Repr

/-- Pagination integer used to reduce the number of fetched notes. -/
abbrev NoteTransportCursor := UInt64

/-- The answer of the transport network: notes labelled after the cursor, and a new cursor. -/
abbrev NoteTransport := List NoteTag → NoteTransportCursor →
  Except NoteTransportError (List NoteInfo × NoteTransportCursor)

/-- The store with the setting that keeps the cursor, once there is one. -/
structure TransportClient where
  store : ClientStore
  cursor : Option NoteTransportCursor

/-- An operation of the client. What it wrote survives an error. -/
abbrev TransportM := EStateM TransportClientError TransportClient

namespace TransportClient

/-- The client before its first fetch. -/
def empty : TransportClient :=
  ⟨.empty, none⟩

/-- The cursor that the next fetch starts from. -/
def storedCursor (client : TransportClient) : NoteTransportCursor :=
  client.cursor.getD 0

/-- Runs a computation that does not write to the store. -/
def attempt {α : Type} (computation : Except TransportClientError α) : TransportM α :=
  Fallible.fromExcept computation

/-- Runs an operation on the notes, tags and transactions. -/
def onStore {α : Type} (operation : ClientM α) : TransportM α := fun client =>
  match operation client.store with
  | .ok value store => .ok value { client with store := store }
  | .error error store => .error (.clientError error) { client with store := store }

/-- Without a cursor, the initial one is stored. -/
def getNoteTransportCursor : TransportM NoteTransportCursor := fun client =>
  match client.cursor with
  | some cursor => .ok cursor client
  | none => .ok 0 { client with cursor := some 0 }

def updateNoteTransportCursor (cursor : NoteTransportCursor) : TransportM Unit :=
  modify fun client => { client with cursor := some cursor }

def getUniqueNoteTags : TransportM (List NoteTag) := do
  let client ← get
  return client.store.uniqueNoteTags.sort (· ≤ ·)

section Reader

variable [NoteDetailsReader]

/-- The note with the details in the bytes and the metadata of the header. -/
def rejoinNote (info : NoteInfo) : Except String Note := do
  let details ← NoteDetailsReader.readNoteDetails info.detailsBytes
  return ⟨details, info.header.metadata⟩

/-- All notes of a batch. The first that does not decode ends the fetch. -/
def rejoinNotes (infos : List NoteInfo) : Except TransportClientError (List Note) :=
  infos.mapM fun info => (rejoinNote info).mapError .dataDeserializationError

/-- The request to import a fetched note, which may have been committed a few blocks ago. -/
def noteRequest (syncHeight : BlockNumber) (note : Note) : NoteFile :=
  .noteDetails note.details (syncHeight - 20) (some note.metadata.tag)

variable [NoteLibrary] (node : ImportNode)

/-- Imports the notes of one answer, and then stores its cursor. -/
def importBatch (infos : List NoteInfo) (cursor : NoteTransportCursor) : TransportM Unit := do
  let notes ← attempt (rejoinNotes infos)
  let client ← get
  let _ ← onStore (importNotes node (notes.map (noteRequest client.store.syncHeight)))
  updateNoteTransportCursor cursor

/-- Fetches notes from the network for some tags. -/
def fetchTransportNotes (transport : Option NoteTransport) (cursor : NoteTransportCursor)
    (tags : List NoteTag) : TransportM Unit := do
  let api ← attempt (transport.elim (.error (.noteTransportError .disabled)) .ok)
  let answer ← attempt ((api tags cursor).mapError .noteTransportError)
  importBatch node answer.1 answer.2

/-- Fetches the notes after the stored cursor. -/
def fetchPrivateNotes (transport : Option NoteTransport) : TransportM Unit := do
  let tags ← getUniqueNoteTags
  let cursor ← getNoteTransportCursor
  fetchTransportNotes node transport cursor tags

/-- Fetches all notes. -/
def fetchAllPrivateNotes (transport : Option NoteTransport) : TransportM Unit := do
  let tags ← getUniqueNoteTags
  fetchTransportNotes node transport 0 tags

/-- The part of a sync that comes after the note transport. -/
def stateSync (environment : ClientStore.SyncEnvironment) : TransportM Unit :=
  onStore fun store =>
    match store.syncState environment with
    | .ok next => .ok () next
    | .error error => .error error store

/-- What a sync takes from outside: whether the genesis block and the limits of the node are in
place, and what the state sync needs. -/
structure SyncSetting where
  inPlace : Except ClientError Unit
  environment : ClientStore.SyncEnvironment

/-- Syncs the client's state, after an update from the note transport if it is enabled. -/
def syncState (transport : Option NoteTransport) (setting : SyncSetting) : TransportM Unit := do
  attempt (setting.inPlace.mapError .clientError)
  if transport.isSome then
    let cursor ← getNoteTransportCursor
    let tags ← getUniqueNoteTags
    fetchTransportNotes node transport cursor tags
  stateSync setting.environment

end Reader

end TransportClient

end MidenClient
