/-
This file models the notes of the IndexedDB store (`idxdb-store/src/note/mod.rs`,
`idxdb-store/src/note/utils.rs` and `idxdb-store/src/ts/notes.ts`).

A note is always written with all its columns, and with the time of the write. The rows of a query
come in the order of the index that it uses. The bytes of the columns pass to the client as base64,
which loses nothing.
-/

import MidenClient.Store.NoteRows

namespace MidenClient

open Std (ExtTreeMap)
open Codecs
open OrderedRead

namespace IdxdbNotes

/-! ### Writes -/

/-- `upsertInputNote`. -/
def upsertInputNote (tables : NoteTables ℤ) (data : SerializedInputNoteData ℤ) : NoteTables ℤ :=
  { tables with
    inputNotes := tables.inputNotes.insert data.id data.toInputNoteRow
    notesScripts := tables.notesScripts.insert data.scriptRoot data.script }

/-- `upsertOutputNote`. -/
def upsertOutputNote (tables : NoteTables ℤ) (row : OutputNoteRow) : NoteTables ℤ :=
  { tables with outputNotes := tables.outputNotes.insert row.id row }

section Writes

variable [NoteLibrary] [NoteCodecs]

open NoteCodecs

/-- Serializes the note, with the time of the clock instead of the time of the record. -/
def serializeInputNote (now : ℤ) (note : InputNoteRecord) (script : NoteScript) :
    SerializedInputNoteData ℤ :=
  { note.row now with script := noteScript.write script }

def upsertInputNoteTx (now : ℤ) (tables : NoteTables ℤ) (note : InputNoteRecord)
    (script : NoteScript) : NoteTables ℤ :=
  upsertInputNote tables (serializeInputNote now note script)

def upsertOutputNoteTx (tables : NoteTables ℤ) (note : OutputNoteRecord) : NoteTables ℤ :=
  upsertOutputNote tables note.row

/-- The clock gives the time at which each note is written. -/
def upsertInputNotes (clock : NoteId → ℤ) (tables : NoteTables ℤ) (notes : List ScriptedNote) :
    NoteTables ℤ :=
  notes.foldl (fun tables note =>
    upsertInputNoteTx (clock note.record.id) tables note.record note.script) tables

/-- Writes the notes that a tracker reports, whether they are new or not. -/
def applyNoteUpdatesTx (clock : NoteId → ℤ) (tables : NoteTables ℤ)
    (noteUpdates : ScriptedUpdates) :
    NoteTables ℤ :=
  let inputsWritten := noteUpdates.updates.updatedInputNotes.foldl (fun tables update =>
    upsertInputNoteTx (clock update.note.id) tables update.note
      (noteUpdates.script update.note.id)) tables
  noteUpdates.updates.updatedOutputNotes.foldl (fun tables update =>
    upsertOutputNoteTx tables update.note) inputsWritten

def perform (clock : NoteId → ℤ) (tables : NoteTables ℤ) : NoteWrite → NoteTables ℤ
  | .upsertInputNotes notes => upsertInputNotes clock tables notes
  | .applyNoteUpdates updates => applyNoteUpdatesTx clock tables updates

/-- The tables after some calls, each with its own clock. -/
def run (tables : NoteTables ℤ) (writes : List ((NoteId → ℤ) × NoteWrite)) : NoteTables ℤ :=
  writes.foldl (fun tables write => perform write.1 tables write.2) tables

end Writes

/-! ### Queries -/

section Queries

open InputNoteState

/-- The input note state discriminants for a state-based filter, or nothing for filters that
operate on ids or nullifiers. -/
def inputNoteStateDiscriminants : NoteFilter → Option (List ℕ)
  | .all => some []
  | .consumed => some [stateConsumedAuthenticatedLocal, stateConsumedUnauthenticatedLocal,
      stateConsumedExternal]
  | .committed => some [stateCommitted]
  | .expected => some [stateExpected]
  | .processing => some [stateProcessingAuthenticated, stateProcessingUnauthenticated]
  | .unverified => some [stateUnverified]
  | .unspent => some [stateExpected, stateCommitted, stateUnverified, stateProcessingAuthenticated,
      stateProcessingUnauthenticated]
  | .list _ | .unique _ | .nullifiers _ => none

/-- `getInputNotes`: all rows, or those with the states, in the order of the index. -/
def getInputNotesByStates (tables : NoteTables ℤ) (states : List ℕ) : List (InputNoteRow ℤ) :=
  if states = [] then OrderedMap.values tables.inputNotes
  else orderBy InputNoteRow.stateKey
    ((OrderedMap.values tables.inputNotes).filter fun row => row.stateDiscriminant ∈ states)

def getInputNotesFromIds (tables : NoteTables ℤ) (noteIds : List NoteId) : List (InputNoteRow ℤ) :=
  (OrderedMap.values tables.inputNotes).filter fun row => row.id ∈ noteIds

def getInputNotesFromNullifiers (tables : NoteTables ℤ) (nullifiers : List Nullifier) :
    List (InputNoteRow ℤ) :=
  orderBy (fun row => toLex (row.nullifier, row.id))
    ((OrderedMap.values tables.inputNotes).filter fun row => row.nullifier ∈ nullifiers)

/-- `to_input_notes_promise`. -/
def toInputNotesPromise (tables : NoteTables ℤ) : NoteFilter → List (InputNoteRow ℤ)
  | .list noteIds => getInputNotesFromIds tables noteIds
  | .unique noteId => getInputNotesFromIds tables [noteId]
  | .nullifiers nullifiers => getInputNotesFromNullifiers tables nullifiers
  | filter => getInputNotesByStates tables ((inputNoteStateDiscriminants filter).getD [])

/-- The row passes the filter of `getInputNoteByOffset`. -/
def offsetFilter (states : List ℕ) (consumer : AccountId)
    (blockStart blockEnd : Option BlockNumber) (row : InputNoteRow ℤ) : Bool :=
  (states = [] || row.stateDiscriminant ∈ states) && row.consumerAccountId = some consumer &&
    blockStart.all (fun start => row.consumedBlockHeight.any fun height => start ≤ height) &&
    blockEnd.all fun stop => row.consumedBlockHeight.any fun height => height ≤ stop

/-- `getInputNoteByOffset`: the rows that pass come in the order of the compound index. Rows without
a height or a position are not in the index. -/
def getInputNotesAtOffset (tables : NoteTables ℤ) (states : List ℕ) (consumer : AccountId)
    (blockStart blockEnd : Option BlockNumber) (offset : ℕ) : List (InputNoteRow ℤ) :=
  (((orderBy InputNoteRow.consumptionKey ((OrderedMap.values tables.inputNotes).filter fun row =>
    row.consumedBlockHeight.isSome && row.consumedTxOrder.isSome)).filter
      (offsetFilter states consumer blockStart blockEnd)).drop offset).take 1

/-- The nullifiers of the notes in three of the states. -/
def getUnspentInputNoteNullifiers (tables : NoteTables ℤ) : List Nullifier :=
  (orderBy InputNoteRow.stateKey ((OrderedMap.values tables.inputNotes).filter fun row =>
    row.stateDiscriminant ∈ [2, 4, 5])).map InputNoteRow.nullifier

/-- `getOutputNotes`. -/
def getOutputNotesByStates (tables : NoteTables ℤ) (states : List UInt8) : List OutputNoteRow :=
  if states = [] then OrderedMap.values tables.outputNotes
  else orderBy (fun row => toLex (row.stateDiscriminant.toNat, row.id))
    ((OrderedMap.values tables.outputNotes).filter fun row => row.stateDiscriminant ∈ states)

def getOutputNotesFromIds (tables : NoteTables ℤ) (noteIds : List NoteId) : List OutputNoteRow :=
  (OrderedMap.values tables.outputNotes).filter fun row => row.id ∈ noteIds

/-- Rows without a nullifier are not in the index. -/
def getOutputNotesFromNullifiers (tables : NoteTables ℤ) (nullifiers : List Nullifier) :
    List OutputNoteRow :=
  orderBy (fun row => toLex (row.nullifier.getD 0, row.id))
    ((OrderedMap.values tables.outputNotes).filter fun row => row.nullifier.any (· ∈ nullifiers))

/-- `to_output_note_promise`. -/
def toOutputNotePromise (tables : NoteTables ℤ) : NoteFilter → List OutputNoteRow
  | .all => getOutputNotesByStates tables []
  | .consumed => getOutputNotesByStates tables [OutputNoteState.stateConsumed]
  | .committed => getOutputNotesByStates tables [OutputNoteState.stateCommittedFull,
      OutputNoteState.stateCommittedPartial]
  | .expected => getOutputNotesByStates tables [OutputNoteState.stateExpectedFull,
      OutputNoteState.stateExpectedPartial]
  | .unspent => getOutputNotesByStates tables [OutputNoteState.stateExpectedPartial,
      OutputNoteState.stateExpectedFull, OutputNoteState.stateCommittedPartial,
      OutputNoteState.stateCommittedFull]
  | .processing | .unverified => []
  | .list noteIds => getOutputNotesFromIds tables noteIds
  | .unique noteId => getOutputNotesFromIds tables [noteId]
  | .nullifiers nullifiers => getOutputNotesFromNullifiers tables nullifiers

variable [NoteCodecs]

/-- The time of a row is parsed as a `u64`. -/
def parseCreatedAt (createdAt : ℤ) : Except NoteReadError ℕ :=
  if 0 ≤ createdAt then .ok createdAt.toNat
  else .error (.queryError "Failed to parse created_at timestamp")

/-- `parse_input_note_idxdb_object`, where the script of a missing row has no bytes. -/
def parseInputNoteIdxdbObject (tables : NoteTables ℤ) (row : InputNoteRow ℤ) :
    Except NoteReadError ReadInputNote := do
  let (details, script, state) ← row.parseParts (tables.notesScripts[row.scriptRoot]?.getD [])
  let createdAt ← parseCreatedAt row.createdAt
  return (⟨details, some createdAt, state⟩, script)

def getInputNotes (tables : NoteTables ℤ) (filter : NoteFilter) :
    Except NoteReadError (List ReadInputNote) :=
  (toInputNotesPromise tables filter).mapM (parseInputNoteIdxdbObject tables)

def getInputNoteByOffset (tables : NoteTables ℤ) (filter : NoteFilter) (consumer : AccountId)
    (blockStart blockEnd : Option BlockNumber) (offset : ℕ) :
    Except NoteReadError (Option ReadInputNote) :=
  match inputNoteStateDiscriminants filter with
  | none => .error (.queryError "get_input_note_by_offset only supports state-based filters")
  | some states =>
    (getInputNotesAtOffset tables states consumer blockStart blockEnd offset).head?.mapM
      (parseInputNoteIdxdbObject tables)

/-- `parse_output_note_idxdb_object` for each row. -/
def getOutputNotes (tables : NoteTables ℤ) (filter : NoteFilter) :
    Except NoteReadError (List OutputNoteRecord) :=
  (toOutputNotePromise tables filter).mapM OutputNoteRow.parse

end Queries

/-! ### What a call leaves -/

section Written

variable [NoteLibrary] [NoteCodecs]

open NoteCodecs

/-- The script that the call writes last under a root. Every note is written with its script. -/
def lastScript (scriptRoot : Word) (write : NoteWrite) : Option NoteScript :=
  write.lastScript (fun _ => true) scriptRoot

/-- Notes are written one after the other, each with its script. -/
theorem foldl_upsertInputNoteTx {ι : Type} (clock : NoteId → ℤ) (noteOf : ι → InputNoteRecord)
    (scriptOf : ι → NoteScript) (items : List ι) (tables : NoteTables ℤ) :
    items.foldl (fun tables item =>
        upsertInputNoteTx (clock (noteOf item).id) tables (noteOf item) (scriptOf item)) tables =
      { tables with
        inputNotes := OrderedMap.insertAll tables.inputNotes (items.map fun item =>
          ((noteOf item).id, (noteOf item).row (clock (noteOf item).id)))
        notesScripts := OrderedMap.insertAll tables.notesScripts (items.map fun item =>
          ((noteOf item).details.recipient.scriptRoot, noteScript.write (scriptOf item))) } := by
  induction items generalizing tables with
  | nil => rfl
  | cons item rest inductionHypothesis =>
    rw [List.foldl_cons, inductionHypothesis]
    rfl

theorem foldl_upsertOutputNoteTx (updates : List OutputNoteUpdate) (tables : NoteTables ℤ) :
    updates.foldl (fun tables update => upsertOutputNoteTx tables update.note) tables =
      { tables with
        outputNotes := OrderedMap.insertAll tables.outputNotes (updates.map fun update =>
          (update.note.id, update.note.row)) } := by
  induction updates generalizing tables with
  | nil => rfl
  | cons update rest inductionHypothesis =>
    rw [List.foldl_cons, inductionHypothesis]
    rfl

variable (clock : NoteId → ℤ) (tables : NoteTables ℤ) (write : NoteWrite)

theorem perform_inputNotes (noteId : NoteId) :
    (perform clock tables write).inputNotes[noteId]? =
      ((write.inputNote? noteId).map fun note => note.2.1.row (clock noteId)).or
        tables.inputNotes[noteId]? := by
  cases write with
  | upsertInputNotes notes =>
    have clocked : ∀ found : Option ScriptedNote,
        (∀ note, found = some note → note.record.id = noteId) →
          (found.map fun note => note.record.row (clock note.record.id)) =
            found.map fun note => note.record.row (clock noteId) := by
      rintro (_ | note) same
      · rfl
      · rw [Option.map_some, Option.map_some, same note rfl]
    show (upsertInputNotes clock tables notes).inputNotes[noteId]? = Option.or (Option.map _
      (Option.map _ (notes.reverse.find? fun note => note.record.id = noteId))) _
    unfold upsertInputNotes
    rw [foldl_upsertInputNoteTx clock ScriptedNote.record ScriptedNote.script]
    dsimp only
    rw [OrderedMap.getElem?_insertAll, ← List.map_reverse, List.find?_map, Option.map_map,
      Option.map_map]
    refine congrArg (Option.or · _) (clocked _ fun note found => ?_)
    have selected := List.find?_some found
    exact of_decide_eq_true selected
  | applyNoteUpdates updates =>
    show (applyNoteUpdatesTx clock tables updates).inputNotes[noteId]? = Option.or (Option.map _
      (Option.map _ (updates.updates.inputNotes[noteId]?.filter NoteUpdate.isUpdated))) _
    unfold applyNoteUpdatesTx
    dsimp only
    rw [foldl_upsertOutputNoteTx, foldl_upsertInputNoteTx clock NoteUpdate.note
      fun update => updates.script update.note.id]
    dsimp only
    unfold NoteUpdateTracker.updatedInputNotes
    rw [NoteUpdate.getElem?_insertAll_values updates.inputsKeyed fun note =>
      note.row (clock note.id)]
    cases found : updates.updates.inputNotes[noteId]?.filter NoteUpdate.isUpdated with
    | none => rfl
    | some update =>
      have same := updates.inputsKeyed noteId update (Option.filter_eq_some_iff.mp found).1
      rw [Option.map_some, Option.map_some, Option.map_some, same]

theorem perform_outputNotes (noteId : NoteId) :
    (perform clock tables write).outputNotes[noteId]? =
      ((write.outputNote? noteId).map fun update => update.note.row).or
        tables.outputNotes[noteId]? := by
  cases write with
  | upsertInputNotes notes =>
    show (upsertInputNotes clock tables notes).outputNotes[noteId]? = _
    unfold upsertInputNotes
    rw [foldl_upsertInputNoteTx clock ScriptedNote.record ScriptedNote.script]
    rfl
  | applyNoteUpdates updates =>
    show (applyNoteUpdatesTx clock tables updates).outputNotes[noteId]? = Option.or (Option.map _
      (updates.updates.outputNotes[noteId]?.filter NoteUpdate.isUpdated)) _
    unfold applyNoteUpdatesTx
    dsimp only
    rw [foldl_upsertOutputNoteTx, foldl_upsertInputNoteTx clock NoteUpdate.note
      fun update => updates.script update.note.id]
    dsimp only
    unfold NoteUpdateTracker.updatedOutputNotes
    exact NoteUpdate.getElem?_insertAll_values updates.outputsKeyed OutputNoteRecord.row
      tables.outputNotes
      noteId

theorem perform_notesScripts (scriptRoot : Word) :
    (perform clock tables write).notesScripts[scriptRoot]? =
      ((lastScript scriptRoot write).map noteScript.write).or tables.notesScripts[scriptRoot]? := by
  cases write with
  | upsertInputNotes notes =>
    show (upsertInputNotes clock tables notes).notesScripts[scriptRoot]? = Option.or (Option.map _
      (Option.map _ (notes.reverse.find? fun note =>
        note.record.details.recipient.scriptRoot = scriptRoot))) _
    unfold upsertInputNotes
    rw [foldl_upsertInputNoteTx clock ScriptedNote.record ScriptedNote.script]
    dsimp only
    rw [OrderedMap.getElem?_insertAll, ← List.map_reverse, List.find?_map, Option.map_map,
      Option.map_map]
    rfl
  | applyNoteUpdates updates =>
    show (applyNoteUpdatesTx clock tables updates).notesScripts[scriptRoot]? = Option.or
      (Option.map _ (Option.map _ ((updates.updates.updatedInputNotes.filter fun _ =>
        true).reverse.find? fun update =>
          update.note.details.recipient.scriptRoot = scriptRoot))) _
    rw [List.filter_true]
    unfold applyNoteUpdatesTx
    dsimp only
    rw [foldl_upsertOutputNoteTx, foldl_upsertInputNoteTx clock NoteUpdate.note
      fun update => updates.script update.note.id]
    dsimp only
    rw [OrderedMap.getElem?_insertAll, ← List.map_reverse, List.find?_map, Option.map_map,
      Option.map_map]
    rfl

/-! ### What is read -/

variable {tables}

/-- The rows that a call leaves are rows of notes, and their scripts are there. -/
theorem perform_rendered (rendered : tables.Rendered) :
    (perform clock tables write).Rendered where
  inputNotes noteId row found := by
    rw [perform_inputNotes] at found
    cases change : write.inputNote? noteId with
    | none =>
      rw [change] at found
      exact rendered.inputNotes noteId row found
    | some note =>
      rw [change] at found
      cases found
      exact ⟨note.2.1, _, NoteWrite.id_of_inputNote? change, rfl⟩
  outputNotes noteId row found := by
    rw [perform_outputNotes] at found
    cases change : write.outputNote? noteId with
    | none =>
      rw [change] at found
      exact rendered.outputNotes noteId row found
    | some update =>
      rw [change] at found
      cases found
      exact ⟨update.note, update.note.nullifier, NoteWrite.id_of_outputNote? change, rfl⟩
  notesScripts scriptRoot bytes found := by
    rw [perform_notesScripts] at found
    cases last : lastScript scriptRoot write with
    | none =>
      rw [last] at found
      exact rendered.notesScripts scriptRoot bytes found
    | some script =>
      rw [last] at found
      cases found
      exact ⟨script, NoteWrite.root_lastScript last, rfl⟩
  scriptsThere noteId row found := by
    rw [perform_notesScripts, Ne, Option.or_eq_none_iff, Option.map_eq_none_iff]
    rintro ⟨notWritten, notStored⟩
    rw [perform_inputNotes] at found
    cases change : write.inputNote? noteId with
    | none =>
      rw [change] at found
      exact rendered.scriptsThere noteId row found notStored
    | some note =>
      rw [change] at found
      cases found
      exact NoteWrite.lastScript_ne_none change rfl notWritten

theorem run_rendered (rendered : tables.Rendered) (writes : List ((NoteId → ℤ) × NoteWrite)) :
    (run tables writes).Rendered := by
  induction writes generalizing tables with
  | nil => exact rendered
  | cons write rest inductionHypothesis =>
    exact inductionHypothesis (perform_rendered write.1 write.2 rendered)

/-- Reading by id gives the note of the row with this id. -/
theorem getInputNotes_unique (rendered : tables.Rendered) {noteId : NoteId} {note : ReadInputNote} :
    getInputNotes tables (.unique noteId) = .ok [note] ↔
      ∃ row, tables.inputNotes[noteId]? = some row ∧
        parseInputNoteIdxdbObject tables row = .ok note := by
  have rows : getInputNotesFromIds tables [noteId] = tables.inputNotes[noteId]?.toList := by
    rw [← OrderedMap.filter_values_key rendered.inputsKeyed]
    refine List.filter_congr fun row _ => ?_
    exact decide_eq_decide.mpr List.mem_singleton
  show (getInputNotesFromIds tables [noteId]).mapM _ = _ ↔ _
  rw [rows]
  exact Fallible.mapM_toList_eq_singleton

theorem getOutputNotes_unique (rendered : tables.Rendered) {noteId : NoteId}
    {note : OutputNoteRecord} :
    getOutputNotes tables (.unique noteId) = .ok [note] ↔
      ∃ row, tables.outputNotes[noteId]? = some row ∧ row.parse = .ok note := by
  have rows : getOutputNotesFromIds tables [noteId] = tables.outputNotes[noteId]?.toList := by
    rw [← OrderedMap.filter_values_key rendered.outputsKeyed]
    refine List.filter_congr fun row _ => ?_
    exact decide_eq_decide.mpr List.mem_singleton
  show (getOutputNotesFromIds tables [noteId]).mapM _ = _ ↔ _
  rw [rows]
  exact Fallible.mapM_toList_eq_singleton

/-- The row of a note is read back as the note with the time of the row, if that can be read. -/
theorem parseInputNoteIdxdbObject_row {note : InputNoteRecord} {createdAt : ℤ} {script : NoteScript}
    (there : tables.notesScripts[note.details.recipient.scriptRoot]? =
      some (noteScript.write script))
    (sameRoot : root script = note.details.recipient.scriptRoot) :
    parseInputNoteIdxdbObject tables (note.row createdAt) =
      (parseCreatedAt createdAt).map fun time =>
        ({ note with createdAt := some time }, script) := by
  have parts := note.parseParts_row createdAt script
  rw [sameRoot] at parts
  unfold parseInputNoteIdxdbObject
  rw [show (note.row createdAt).scriptRoot = note.details.recipient.scriptRoot from rfl, there,
    Option.getD_some, parts]
  show (parseCreatedAt createdAt >>= _) = _
  cases parseCreatedAt createdAt with
  | error reason => rfl
  | ok time => rfl

end Written

end IdxdbNotes

end MidenClient
