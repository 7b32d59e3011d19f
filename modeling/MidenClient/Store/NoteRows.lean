/-
This file models the rows in which both stores keep notes (`sqlite-store/src/note/mod.rs` and
`idxdb-store/src/note/utils.rs`), and the table of scripts that the rows of input notes share.

A row holds the parts of a note as bytes and, next to them, columns that are computed from the
note when the row is written: its nullifier, the discriminant of its state and how the note was
consumed. The queries select and order rows by these columns, and read the note back from the
parts alone. The script of an input note is not in its row, which only has the root of the script.
Words, identifiers and numbers that are stored as text are kept as they are.
-/

import MidenClient.Library.OrderedRead
import MidenClient.Store.Serialization

namespace MidenClient

open Std (ExtTreeMap)
open Codecs
open ProtocolCodecs

/-- The codecs of the parts of notes. A script has a root, which another script may have too; the
storage of a note is given by its commitment. -/
class NoteCodecs extends ProtocolCodecs where
  NoteScript : Type
  root : NoteScript → Word
  noteScript : Codec NoteScript
  noteStorage : Codec Word
  noteAssets : Codec (List Asset)

/-- Why a row is not read as a note. -/
inductive NoteReadError where
  | dataDeserialization (reason : ReadError)
  /-- There is no script for the root of the row. -/
  | missingScript (scriptRoot : Word)
  | integralValueOutOfRange (value : ℤ)
  | queryError (message : String)
  deriving DecidableEq, Repr

/-- `read_from_bytes`, which does not look at what is left. -/
def readFromBytes {α : Type} (reader : Reader α) (bytes : List UInt8) : Except NoteReadError α :=
  match reader bytes with
  | .ok (value, _) => .ok value
  | .error reason => .error (.dataDeserialization reason)

theorem readFromBytes_of_readsBack {α : Type} {reader : Reader α} {bytes : List UInt8} {value : α}
    (reads : ReadsBack reader bytes value) : readFromBytes reader bytes = .ok value := by
  unfold readFromBytes
  rw [reads.complete]

/-! ### Input notes -/

/-- The columns of an input note. -/
structure InputNoteRow (time : Type) where
  id : NoteId
  assets : List UInt8
  serialNumber : List UInt8
  inputs : List UInt8
  scriptRoot : Word
  nullifier : Nullifier
  stateDiscriminant : ℕ
  state : List UInt8
  createdAt : time
  consumedBlockHeight : Option BlockNumber
  consumedTxOrder : Option ℕ
  consumerAccountId : Option AccountId
  deriving DecidableEq, Repr

/-- An input note as it is written: its columns, and the bytes of its script. -/
structure SerializedInputNoteData (time : Type) extends InputNoteRow time where
  script : List UInt8
  deriving DecidableEq, Repr

namespace InputNoteRow

/-- The row with another time. -/
def withTime {time other : Type} (row : InputNoteRow time) (createdAt : other) :
    InputNoteRow other :=
  { row with createdAt := createdAt }

/-- Where a consumed note stands in the order of a query: by block, a missing height first, then
by transaction, an unknown position last, then by id. -/
def consumptionKey {time : Type} (row : InputNoteRow time) : WithBot ℕ ×ₗ WithTop ℕ ×ₗ NoteId :=
  toLex (row.consumedBlockHeight, toLex (row.consumedTxOrder, row.id))

/-- Where a row stands in the index of the states. -/
def stateKey {time : Type} (row : InputNoteRow time) : ℕ ×ₗ NoteId :=
  toLex (row.stateDiscriminant, row.id)

/-- The columns that are queried are those of the note. -/
structure Indexes [NoteLibrary] {time : Type} (row : InputNoteRow time) (note : InputNoteRecord) :
    Prop where
  nullifier : row.nullifier = note.nullifier
  stateDiscriminant : row.stateDiscriminant = note.state.discriminant
  consumedBlockHeight : row.consumedBlockHeight = note.state.consumedBlockHeight
  consumedTxOrder : row.consumedTxOrder = note.state.consumedTxOrder
  consumerAccountId : row.consumerAccountId = note.consumerAccount

end InputNoteRow

/-- An input note that was read, with its script. -/
abbrev ReadInputNote [NoteCodecs] := InputNoteRecord × NoteCodecs.NoteScript

/-- An input note record with the script of its recipient. -/
structure ScriptedNote [NoteCodecs] where
  record : InputNoteRecord
  script : NoteCodecs.NoteScript
  sameRoot : NoteCodecs.root script = record.details.recipient.scriptRoot

section Input

variable [NoteCodecs]

open NoteCodecs

/-- The row of a note with the time it is stored with. -/
def InputNoteRecord.row [NoteLibrary] {time : Type} (note : InputNoteRecord) (createdAt : time) :
    InputNoteRow time where
  id := note.id
  assets := noteAssets.write note.details.assets
  serialNumber := word.write note.details.recipient.serialNum
  inputs := noteStorage.write note.details.recipient.storageCommitment
  scriptRoot := note.details.recipient.scriptRoot
  nullifier := note.nullifier
  stateDiscriminant := note.state.discriminant
  state := note.state.writeInto
  createdAt := createdAt
  consumedBlockHeight := note.state.consumedBlockHeight
  consumedTxOrder := note.state.consumedTxOrder
  consumerAccountId := note.consumerAccount

/-- Reads the parts of a note from its columns and the bytes of its script. The recipient is made of
the script that was read. -/
def InputNoteRow.parseParts {time : Type} (row : InputNoteRow time) (script : List UInt8) :
    Except NoteReadError (NoteDetails × NoteScript × InputNoteState) := do
  let assets ← readFromBytes noteAssets.read row.assets
  let serialNum ← readFromBytes word.read row.serialNumber
  let script ← readFromBytes noteScript.read script
  let storage ← readFromBytes noteStorage.read row.inputs
  let state ← readFromBytes InputNoteState.readFrom row.state
  return (⟨assets, ⟨serialNum, root script, storage⟩⟩, script, state)

/-- All parts come back, and the root is that of the script that is there. -/
theorem InputNoteRecord.parseParts_row [NoteLibrary] {time : Type} (note : InputNoteRecord)
    (createdAt : time) (script : NoteScript) :
    (note.row createdAt).parseParts (noteScript.write script) =
      .ok (⟨note.details.assets, { note.details.recipient with scriptRoot := root script }⟩, script,
        note.state) := by
  unfold InputNoteRow.parseParts InputNoteRecord.row
  rw [readFromBytes_of_readsBack (noteAssets.readsBack _),
    readFromBytes_of_readsBack (word.readsBack _),
    readFromBytes_of_readsBack (noteScript.readsBack _),
    readFromBytes_of_readsBack (noteStorage.readsBack _),
    readFromBytes_of_readsBack (InputNoteState.readsBack _)]
  rfl

end Input

/-! ### Output notes -/

/-- The columns of an output note. -/
structure OutputNoteRow where
  id : NoteId
  assets : List UInt8
  recipientDigest : Word
  metadata : List UInt8
  nullifier : Option Nullifier
  expectedHeight : BlockNumber
  stateDiscriminant : UInt8
  state : List UInt8
  deriving DecidableEq, Repr

/-- The columns that are queried are those of the note. -/
structure OutputNoteRow.Indexes [NoteLibrary] (row : OutputNoteRow) (note : OutputNoteRecord) :
    Prop where
  nullifier : row.nullifier = note.nullifier
  stateDiscriminant : row.stateDiscriminant = note.state.discriminant

section Output

variable [NoteCodecs]

open NoteCodecs

/-- The row of a note. -/
def OutputNoteRecord.row [NoteLibrary] (note : OutputNoteRecord) : OutputNoteRow where
  id := note.id
  assets := noteAssets.write note.assets
  recipientDigest := note.recipientDigest
  metadata := noteMetadata.write note.metadata
  nullifier := note.nullifier
  expectedHeight := note.expectedHeight
  stateDiscriminant := note.state.discriminant
  state := note.state.writeInto

/-- Parse a note from its columns. -/
def OutputNoteRow.parse (row : OutputNoteRow) : Except NoteReadError OutputNoteRecord := do
  let assets ← readFromBytes noteAssets.read row.assets
  let metadata ← readFromBytes noteMetadata.read row.metadata
  let state ← readFromBytes OutputNoteState.readFrom row.state
  return ⟨assets, metadata, row.recipientDigest, state, row.expectedHeight⟩

/-- A note comes back, whatever nullifier its row has. -/
theorem OutputNoteRecord.parse_row [NoteLibrary] (note : OutputNoteRecord)
    (nullifier : Option Nullifier) : { note.row with nullifier := nullifier }.parse = .ok note := by
  unfold OutputNoteRow.parse OutputNoteRecord.row
  rw [readFromBytes_of_readsBack (noteAssets.readsBack _),
    readFromBytes_of_readsBack (noteMetadata.readsBack _),
    readFromBytes_of_readsBack (OutputNoteState.readsBack _)]
  rfl

end Output

/-! ### The tables -/

/-- The tables of notes under their ids, and of scripts under their roots. -/
structure NoteTables (time : Type) where
  inputNotes : ExtTreeMap NoteId (InputNoteRow time)
  outputNotes : ExtTreeMap NoteId OutputNoteRow
  notesScripts : ExtTreeMap Word (List UInt8)

namespace NoteTables

variable {time : Type}

/-- The tables of a new store. -/
def empty : NoteTables time :=
  ⟨∅, ∅, ∅⟩

/-- Every row stands under its id and is the row of a note, except that the nullifier of an output
note may be another one. The scripts of all input notes are there, under their roots. -/
structure Rendered [NoteLibrary] [NoteCodecs] (tables : NoteTables time) : Prop where
  inputNotes : ∀ (noteId : NoteId) row, tables.inputNotes[noteId]? = some row →
    ∃ (note : InputNoteRecord) (createdAt : time), note.id = noteId ∧ row = note.row createdAt
  outputNotes : ∀ (noteId : NoteId) row, tables.outputNotes[noteId]? = some row →
    ∃ (note : OutputNoteRecord) (nullifier : Option Nullifier), note.id = noteId ∧
      row = { note.row with nullifier := nullifier }
  notesScripts : ∀ (scriptRoot : Word) bytes, tables.notesScripts[scriptRoot]? = some bytes →
    ∃ script, NoteCodecs.root script = scriptRoot ∧ bytes = NoteCodecs.noteScript.write script
  scriptsThere : ∀ (noteId : NoteId) row, tables.inputNotes[noteId]? = some row →
    tables.notesScripts[row.scriptRoot]? ≠ none

/-- Every row has the id that it stands under. -/
theorem Rendered.inputsKeyed [NoteLibrary] [NoteCodecs] {tables : NoteTables time}
    (rendered : tables.Rendered) (noteId : NoteId) (row : InputNoteRow time)
    (found : tables.inputNotes[noteId]? = some row) : row.id = noteId := by
  obtain ⟨note, createdAt, same, rfl⟩ := rendered.inputNotes noteId row found
  exact same

theorem Rendered.outputsKeyed [NoteLibrary] [NoteCodecs] {tables : NoteTables time}
    (rendered : tables.Rendered) (noteId : NoteId) (row : OutputNoteRow)
    (found : tables.outputNotes[noteId]? = some row) : row.id = noteId := by
  obtain ⟨note, nullifier, same, rfl⟩ := rendered.outputNotes noteId row found
  exact same

theorem rendered_empty [NoteLibrary] [NoteCodecs] : (empty : NoteTables time).Rendered where
  inputNotes noteId row found := by
    rw [show (empty : NoteTables time).inputNotes[noteId]? = none from
      ExtTreeMap.getElem?_empty] at found
    cases found
  outputNotes noteId row found := by
    rw [show (empty : NoteTables time).outputNotes[noteId]? = none from
      ExtTreeMap.getElem?_empty] at found
    cases found
  notesScripts scriptRoot bytes found := by
    rw [show (empty : NoteTables time).notesScripts[scriptRoot]? = none from
      ExtTreeMap.getElem?_empty] at found
    cases found
  scriptsThere noteId row found := by
    rw [show (empty : NoteTables time).inputNotes[noteId]? = none from
      ExtTreeMap.getElem?_empty] at found
    cases found

end NoteTables

/-! ### Notes of a tracker -/

namespace NoteUpdate

variable {record row : Type}

/-- What an update makes of the stored row: a new row, a changed one, or the same. -/
def writtenRow (rowOf : record → row) (change : record → row → row) (update : NoteUpdate record)
    (stored : Option row) : Option row :=
  match update.updateType with
  | .insert => some (rowOf update.note)
  | .update => stored.map (change update.note)
  | .none => stored

/-- Writing the new notes of a tracker and then the changed ones does to each row what the update of
its note says. -/
theorem getElem?_writes {tracked : ExtTreeMap NoteId (NoteUpdate record)} {idOf : record → NoteId}
    (keyed : ∀ (noteId : NoteId) (update : NoteUpdate record), tracked[noteId]? = some update →
      idOf update.note = noteId)
    (rowOf : record → row) (change : record → row → row) (table : ExtTreeMap NoteId row)
    (noteId : NoteId) :
    let updates := (OrderedMap.values tracked).filter isUpdated
    ((updates.filter fun update => update.updateType = .update).foldl
        (fun rows update => rows.modify (idOf update.note) (change update.note))
      ((updates.filter fun update => update.updateType = .insert).foldl
        (fun rows update => rows.insert (idOf update.note) (rowOf update.note)) table))[noteId]? =
      (tracked[noteId]?.filter isUpdated).elim table[noteId]? fun update =>
        update.writtenRow rowOf change table[noteId]? := by
  intro updates
  have distinct : updates.Pairwise fun first second => idOf first.note ≠ idOf second.note :=
    (OrderedMap.pairwise_values keyed).filter _
  have found : ∀ updateType, ((updates.filter fun update =>
      update.updateType = updateType).find? fun update => idOf update.note = noteId) =
        tracked[noteId]?.filter fun update =>
          update.updateType = updateType && update.isUpdated := by
    intro updateType
    rw [List.filter_filter]
    exact OrderedMap.find?_values_filter keyed _ noteId
  have modified : ∀ (table : ExtTreeMap NoteId row) (update : NoteUpdate record) (key : NoteId),
      (table.modify (idOf update.note) (change update.note))[key]? =
        if idOf update.note = key then table[key]?.map (change update.note) else table[key]? := by
    intro table update key
    rw [ExtTreeMap.getElem?_modify]
    by_cases same : idOf update.note = key
    · subst same
      rw [if_pos (Std.compare_eq_iff_eq.mpr rfl), if_pos rfl]
    · rw [if_neg fun equal => same (Std.compare_eq_iff_eq.mp equal), if_neg same]
  have inserted : ∀ (table : ExtTreeMap NoteId row) (update : NoteUpdate record) (key : NoteId),
      (table.insert (idOf update.note) (rowOf update.note))[key]? =
        if idOf update.note = key then some (rowOf update.note) else table[key]? := by
    intro table update key
    rw [ExtTreeMap.getElem?_insert]
    simp only [Std.compare_eq_iff_eq]
  rw [OrderedMap.getElem?_foldl_touch (fun (update : NoteUpdate record) stored =>
      stored.map (change update.note)) modified (distinct.filter _),
    OrderedMap.getElem?_foldl_touch (fun (update : NoteUpdate record) _ =>
      some (rowOf update.note)) inserted (distinct.filter _), found, found]
  cases tracked[noteId]? with
  | none => rfl
  | some update =>
    obtain ⟨note, updateType⟩ := update
    cases updateType <;> rfl

/-- Writing all notes of a tracker that were updated gives each of them its row. -/
theorem getElem?_insertAll_values {tracked : ExtTreeMap NoteId (NoteUpdate record)}
    {idOf : record → NoteId}
    (keyed : ∀ (noteId : NoteId) (update : NoteUpdate record), tracked[noteId]? = some update →
      idOf update.note = noteId) (rowOf : record → row) (table : ExtTreeMap NoteId row)
    (noteId : NoteId) :
    (OrderedMap.insertAll table (((OrderedMap.values tracked).filter isUpdated).map
        fun update => (idOf update.note, rowOf update.note)))[noteId]? =
      ((tracked[noteId]?.filter isUpdated).map fun update => rowOf update.note).or
        table[noteId]? := by
  have inserted : ∀ (table : ExtTreeMap NoteId row) (update : NoteUpdate record) (key : NoteId),
      (table.insert (idOf update.note) (rowOf update.note))[key]? =
        if idOf update.note = key then some (rowOf update.note) else table[key]? := by
    intro table update key
    rw [ExtTreeMap.getElem?_insert]
    simp only [Std.compare_eq_iff_eq]
  have distinct : ((OrderedMap.values tracked).filter isUpdated).Pairwise
      fun first second => idOf first.note ≠ idOf second.note :=
    (OrderedMap.pairwise_values keyed).filter _
  unfold OrderedMap.insertAll
  rw [List.foldl_map, OrderedMap.getElem?_foldl_touch (fun (update : NoteUpdate record) _ =>
    some (rowOf update.note)) inserted distinct, OrderedMap.find?_values_filter keyed]
  cases tracked[noteId]?.filter isUpdated with
  | none => rfl
  | some update => rfl

end NoteUpdate

/-! ### What a call writes -/

section Writes

variable [NoteLibrary] [NoteCodecs]

open NoteCodecs

/-- Note updates with the scripts of the input notes. -/
structure ScriptedUpdates where
  updates : NoteUpdateTracker
  script : NoteId → NoteScript
  inputsKeyed : ∀ (noteId : NoteId) update, updates.inputNotes[noteId]? = some update →
    update.note.id = noteId
  outputsKeyed : ∀ (noteId : NoteId) update, updates.outputNotes[noteId]? = some update →
    update.note.id = noteId
  sameRoot : ∀ (noteId : NoteId) update, updates.inputNotes[noteId]? = some update →
    root (script noteId) = update.note.details.recipient.scriptRoot

/-- A call that writes notes. -/
inductive NoteWrite where
  | upsertInputNotes (notes : List ScriptedNote)
  | applyNoteUpdates (updates : ScriptedUpdates)

namespace NoteWrite

/-- How the call writes the input note with an id, if it does. -/
def inputNote? (noteId : NoteId) : NoteWrite → Option (NoteUpdateType × ReadInputNote)
  | upsertInputNotes notes =>
    (notes.reverse.find? fun note => note.record.id = noteId).map fun note =>
      (.insert, note.record, note.script)
  | applyNoteUpdates updates =>
    (updates.updates.inputNotes[noteId]?.filter NoteUpdate.isUpdated).map fun update =>
      (update.updateType, update.note, updates.script noteId)

/-- How the call writes the output note with an id, if it does. -/
def outputNote? (noteId : NoteId) : NoteWrite → Option OutputNoteUpdate
  | upsertInputNotes _ => none
  | applyNoteUpdates updates => updates.updates.outputNotes[noteId]?.filter NoteUpdate.isUpdated

/-- The script that the call writes last under a root, when only notes with some types of updates
are written with their scripts. -/
def lastScript (withScript : NoteUpdateType → Bool) (scriptRoot : Word) :
    NoteWrite → Option NoteScript
  | upsertInputNotes notes =>
    (notes.reverse.find? fun note =>
      note.record.details.recipient.scriptRoot = scriptRoot).map ScriptedNote.script
  | applyNoteUpdates updates =>
    ((updates.updates.updatedInputNotes.filter fun update =>
      withScript update.updateType).reverse.find? fun update =>
        update.note.details.recipient.scriptRoot = scriptRoot).map fun update =>
          updates.script update.note.id

/-- Each script stands under its own root. -/
theorem root_lastScript {withScript : NoteUpdateType → Bool} {scriptRoot : Word} {write : NoteWrite}
    {script : NoteScript} (found : write.lastScript withScript scriptRoot = some script) :
    root script = scriptRoot := by
  cases write with
  | upsertInputNotes notes =>
    obtain ⟨note, chosen, rfl⟩ := Option.map_eq_some_iff.mp found
    have same := List.find?_some chosen
    rw [note.sameRoot]
    exact of_decide_eq_true same
  | applyNoteUpdates updates =>
    obtain ⟨update, chosen, rfl⟩ := Option.map_eq_some_iff.mp found
    have same := List.find?_some chosen
    have listed := List.mem_reverse.mp (List.mem_of_find?_eq_some chosen)
    obtain ⟨noteId, tracked⟩ := OrderedMap.mem_values_iff.mp
      (List.mem_of_mem_filter (List.mem_of_mem_filter listed))
    rw [updates.inputsKeyed noteId update tracked, updates.sameRoot noteId update tracked]
    exact of_decide_eq_true same

/-- A note that is written with its script comes with a script. -/
theorem lastScript_ne_none {withScript : NoteUpdateType → Bool} {write : NoteWrite}
    {noteId : NoteId}
    {updateType : NoteUpdateType} {note : ReadInputNote}
    (written : write.inputNote? noteId = some (updateType, note))
    (scripted : withScript updateType = true) :
    write.lastScript withScript note.1.details.recipient.scriptRoot ≠ none := by
  intro absent
  cases write with
  | upsertInputNotes notes =>
    obtain ⟨chosen, found, same⟩ := Option.map_eq_some_iff.mp written
    cases same
    have missing := List.find?_eq_none.mp (Option.map_eq_none_iff.mp absent) chosen
      (List.mem_of_find?_eq_some found)
    exact missing (decide_eq_true rfl)
  | applyNoteUpdates updates =>
    obtain ⟨update, found, same⟩ := Option.map_eq_some_iff.mp written
    cases same
    obtain ⟨tracked, updated⟩ := Option.filter_eq_some_iff.mp found
    have listed : update ∈ updates.updates.updatedInputNotes.filter fun update =>
        withScript update.updateType :=
      List.mem_filter.mpr ⟨List.mem_filter.mpr
        ⟨OrderedMap.mem_values_iff.mpr ⟨noteId, tracked⟩, updated⟩, scripted⟩
    have missing := List.find?_eq_none.mp (Option.map_eq_none_iff.mp absent) update
      (List.mem_reverse.mpr listed)
    exact missing (decide_eq_true rfl)

/-- A note is written under its own id. -/
theorem id_of_inputNote? {write : NoteWrite} {noteId : NoteId} {updateType : NoteUpdateType}
    {note : ReadInputNote} (written : write.inputNote? noteId = some (updateType, note)) :
    note.1.id = noteId := by
  cases write with
  | upsertInputNotes notes =>
    obtain ⟨chosen, found, same⟩ := Option.map_eq_some_iff.mp written
    cases same
    have selected := List.find?_some found
    exact of_decide_eq_true selected
  | applyNoteUpdates updates =>
    obtain ⟨update, found, same⟩ := Option.map_eq_some_iff.mp written
    cases same
    exact updates.inputsKeyed noteId update (Option.filter_eq_some_iff.mp found).1

theorem id_of_outputNote? {write : NoteWrite} {noteId : NoteId} {update : OutputNoteUpdate}
    (written : write.outputNote? noteId = some update) : update.note.id = noteId := by
  cases write with
  | upsertInputNotes notes => cases written
  | applyNoteUpdates updates =>
    exact updates.outputsKeyed noteId update (Option.filter_eq_some_iff.mp written).1

end NoteWrite

end Writes

end MidenClient
