/-
This file models the notes of the SQLite store (`sqlite-store/src/note/mod.rs` and
`sqlite-store/src/note/filters.rs`): how they are written, and the SQL by which they are
queried.

A new note is written with all its columns; of a note that is there already, a tracker only
writes the columns of its state. A query without an `ORDER BY` promises no order of its rows; here
such rows come in the order of the table.
-/

import MidenClient.Store.NoteRows

namespace MidenClient

open Std (ExtTreeMap)
open Codecs
open OrderedRead

namespace SqliteNotes

/-! ### Integers -/

/-- A note is not written because its time is no SQLite integer. -/
inductive NoteWriteError where
  | toSqlConversionFailure (value : ℕ)
  deriving DecidableEq, Repr

/-- A `u64` as a parameter of a statement. -/
def toSql (value : ℕ) : Except NoteWriteError ℤ :=
  if value < 2 ^ 63 then .ok value else .error (.toSqlConversionFailure value)

/-- `as i64`. -/
def asI64 (value : ℕ) : ℤ :=
  Int.bmod value (2 ^ 64)

/-- A column that is read as a `u64`. -/
def columnU64 (value : ℤ) : Except NoteReadError ℕ :=
  if 0 ≤ value then .ok value.toNat else .error (.integralValueOutOfRange value)

theorem toSql_eq_ok {value : ℕ} {column : ℤ} :
    toSql value = .ok column ↔ value < 2 ^ 63 ∧ column = value := by
  unfold toSql
  split
  · rename_i fits
    exact ⟨fun same => ⟨fits, (Except.ok.inj same).symm⟩, fun ⟨_, same⟩ => congrArg _ same.symm⟩
  · rename_i tooLarge
    exact ⟨fun failed => (nomatch failed), fun ⟨fits, _⟩ => absurd fits tooLarge⟩

theorem columnU64_natCast (value : ℕ) : columnU64 value = .ok value :=
  if_pos (Int.natCast_nonneg value)

/-- The cast keeps just the numbers that are read back. -/
theorem columnU64_asI64 (value : ℕ) : columnU64 (asI64 value) = .ok value ↔ value < 2 ^ 63 := by
  unfold columnU64 asI64
  constructor
  · intro read
    split at read
    · have same := Except.ok.inj read
      have bound := Int.bmod_lt (x := value) (m := 2 ^ 64) (by decide)
      omega
    · cases read
  · intro fits
    have kept : Int.bmod value (2 ^ 64) = value :=
      Int.bmod_eq_of_le (by omega) (by omega)
    rw [kept]
    exact columnU64_natCast value

/-! ### Writes -/

/-- Represents the fields needed to update an existing input note's state. -/
structure SerializedInputNoteStateUpdate where
  id : NoteId
  stateDiscriminant : ℕ
  state : List UInt8
  consumedBlockHeight : Option BlockNumber
  consumedTxOrder : Option ℕ
  consumerAccountId : Option AccountId
  deriving DecidableEq, Repr

/-- The row after its state columns were set; the parts of the note and the time stay. -/
def SerializedInputNoteStateUpdate.apply (update : SerializedInputNoteStateUpdate)
    (row : InputNoteRow ℤ) : InputNoteRow ℤ :=
  { row with
    stateDiscriminant := update.stateDiscriminant
    state := update.state
    consumedBlockHeight := update.consumedBlockHeight
    consumedTxOrder := update.consumedTxOrder
    consumerAccountId := update.consumerAccountId }

/-- Represents the fields needed to update an existing output note's state. -/
structure SerializedOutputNoteStateUpdate where
  id : NoteId
  stateDiscriminant : UInt8
  state : List UInt8
  deriving DecidableEq, Repr

def SerializedOutputNoteStateUpdate.apply (update : SerializedOutputNoteStateUpdate)
    (row : OutputNoteRow) : OutputNoteRow :=
  { row with
    stateDiscriminant := update.stateDiscriminant
    state := update.state }

/-- Batch-insert note scripts. -/
def batchUpsertScripts (tables : NoteTables ℤ) (scripts : ExtTreeMap Word (List UInt8)) :
    NoteTables ℤ :=
  { tables with notesScripts := OrderedMap.insertAll tables.notesScripts scripts.toList }

/-- Batch-insert new input notes. Their times are cast. -/
def batchInsertInputNotes (tables : NoteTables ℤ) (notes : List (SerializedInputNoteData ℕ)) :
    NoteTables ℤ :=
  { tables with
    inputNotes := notes.foldl (fun rows note =>
      rows.insert note.id (note.withTime (asI64 note.createdAt))) tables.inputNotes }

/-- Batch-update input note states. An update of a note that is not there does nothing. -/
def batchUpdateInputNoteStates (tables : NoteTables ℤ)
    (updates : List SerializedInputNoteStateUpdate) : NoteTables ℤ :=
  { tables with
    inputNotes := updates.foldl (fun rows update => rows.modify update.id update.apply)
      tables.inputNotes }

/-- Batch-insert new output notes. -/
def batchInsertOutputNotes (tables : NoteTables ℤ) (notes : List OutputNoteRow) : NoteTables ℤ :=
  { tables with
    outputNotes := notes.foldl (fun rows note => rows.insert note.id note) tables.outputNotes }

/-- Batch-update output note states. -/
def batchUpdateOutputNoteStates (tables : NoteTables ℤ)
    (updates : List SerializedOutputNoteStateUpdate) : NoteTables ℤ :=
  { tables with
    outputNotes := updates.foldl (fun rows update => rows.modify update.id update.apply)
      tables.outputNotes }

section Writes

variable [NoteLibrary] [NoteCodecs]

open NoteCodecs

/-- Serialize the provided input note into database compatible types. -/
def serializeInputNote (note : InputNoteRecord) (script : NoteScript) : SerializedInputNoteData ℕ :=
  { note.row (note.createdAt.getD 0) with script := noteScript.write script }

/-- Serialize the provided input note state into a lightweight update. -/
def serializeInputNoteState (note : InputNoteRecord) : SerializedInputNoteStateUpdate where
  id := note.id
  stateDiscriminant := note.state.discriminant
  state := note.state.writeInto
  consumedBlockHeight := note.state.consumedBlockHeight
  consumedTxOrder := note.state.consumedTxOrder
  consumerAccountId := note.consumerAccount

/-- Serialize the provided output note state into a lightweight state-only update. -/
def serializeOutputNoteState (note : OutputNoteRecord) : SerializedOutputNoteStateUpdate where
  id := note.id
  stateDiscriminant := note.state.discriminant
  state := note.state.writeInto

/-- Inserts the provided input note into the database, if the note already exists, it will be
replaced. -/
def upsertInputNoteTx (tables : NoteTables ℤ) (note : ScriptedNote) :
    Except NoteWriteError (NoteTables ℤ) := do
  let data := serializeInputNote note.record note.script
  let createdAt ← toSql data.createdAt
  return { tables with
    notesScripts := tables.notesScripts.insert data.scriptRoot data.script
    inputNotes := tables.inputNotes.insert data.id (data.withTime createdAt) }

/-- All notes are written, or none. -/
def upsertInputNotes (tables : NoteTables ℤ) (notes : List ScriptedNote) :
    Except NoteWriteError (NoteTables ℤ) :=
  notes.foldlM upsertInputNoteTx tables

/-- Writes the notes that a tracker reports: the new ones with their scripts, and the states of the
others. -/
def applyNoteUpdatesTx (tables : NoteTables ℤ) (noteUpdates : ScriptedUpdates) : NoteTables ℤ :=
  let inputInserts := (noteUpdates.updates.updatedInputNotes.filter fun update =>
    update.updateType = .insert).map fun update =>
      serializeInputNote update.note (noteUpdates.script update.note.id)
  let inputUpdates := (noteUpdates.updates.updatedInputNotes.filter fun update =>
    update.updateType = .update).map fun update => serializeInputNoteState update.note
  let scripts : ExtTreeMap Word (List UInt8) := OrderedMap.insertAll ∅
    (inputInserts.map fun data => (data.scriptRoot, data.script))
  let outputInserts := (noteUpdates.updates.updatedOutputNotes.filter fun update =>
    update.updateType = .insert).map fun update => update.note.row
  let outputUpdates := (noteUpdates.updates.updatedOutputNotes.filter fun update =>
    update.updateType = .update).map fun update => serializeOutputNoteState update.note
  let inputsWritten := batchUpdateInputNoteStates
    (batchInsertInputNotes (batchUpsertScripts tables scripts) inputInserts) inputUpdates
  batchUpdateOutputNoteStates (batchInsertOutputNotes inputsWritten outputInserts) outputUpdates

/-- One call, as a transaction. -/
def perform (tables : NoteTables ℤ) : NoteWrite → Except NoteWriteError (NoteTables ℤ)
  | .upsertInputNotes notes => upsertInputNotes tables notes
  | .applyNoteUpdates updates => .ok (applyNoteUpdatesTx tables updates)

/-- The tables after some calls. A call that fails leaves them. -/
def run (tables : NoteTables ℤ) (writes : List NoteWrite) : NoteTables ℤ :=
  writes.foldl (fun tables write => ((perform tables write).toOption).getD tables) tables

end Writes

/-! ### Queries -/

section Queries

open InputNoteState

/-- Returns the WHERE clause for the input note filter. -/
def noteFilterInputNotesCondition (filter : NoteFilter) (row : InputNoteRow ℤ) : Bool :=
  match filter with
  | .all => true
  | .committed => row.stateDiscriminant = stateCommitted
  | .consumed => row.stateDiscriminant ∈ [stateConsumedAuthenticatedLocal,
      stateConsumedUnauthenticatedLocal, stateConsumedExternal]
  | .expected => row.stateDiscriminant = stateExpected
  | .processing => row.stateDiscriminant ∈ [stateProcessingAuthenticated,
      stateProcessingUnauthenticated]
  | .unique noteId => row.id ∈ [noteId]
  | .list noteIds => row.id ∈ noteIds
  | .nullifiers nullifiers => row.nullifier ∈ nullifiers
  | .unverified => row.stateDiscriminant = stateUnverified
  | .unspent => row.stateDiscriminant ∈ [stateExpected, stateProcessingAuthenticated,
      stateProcessingUnauthenticated, stateUnverified, stateCommitted]

/-- The rows of the query for a filter; only the consumed notes are ordered. -/
def noteFilterToQueryInputNotes (filter : NoteFilter) (rows : List (InputNoteRow ℤ)) :
    List (InputNoteRow ℤ) :=
  if filter = .consumed then
    orderBy InputNoteRow.consumptionKey (rows.filter (noteFilterInputNotesCondition filter))
  else rows.filter (noteFilterInputNotesCondition filter)

/-- The row passes the query by offset: it passes the filter, was consumed by the account at a known
position, and in the block range. -/
def offsetCondition (filter : NoteFilter) (consumer : AccountId)
    (blockStart blockEnd : Option BlockNumber) (row : InputNoteRow ℤ) : Bool :=
  noteFilterInputNotesCondition filter row && row.consumerAccountId = some consumer &&
    row.consumedTxOrder.isSome &&
    blockStart.all (fun start => row.consumedBlockHeight.any fun height => start ≤ height) &&
    blockEnd.all fun stop => row.consumedBlockHeight.any fun height => height ≤ stop

/-- The row at an offset among the notes an account consumed, in a block range. -/
def noteFilterToQueryInputNoteByOffset (filter : NoteFilter) (consumer : AccountId)
    (blockStart blockEnd : Option BlockNumber) (offset : ℕ) (rows : List (InputNoteRow ℤ)) :
    Option (InputNoteRow ℤ) :=
  (orderBy InputNoteRow.consumptionKey
    (rows.filter (offsetCondition filter consumer blockStart blockEnd)))[offset]?

/-- The nullifiers of the notes that are in no consumed state. -/
def getUnspentInputNoteNullifiers (tables : NoteTables ℤ) : List Nullifier :=
  ((OrderedMap.values tables.inputNotes).filter fun row => row.stateDiscriminant ∉
    [stateConsumedAuthenticatedLocal, stateConsumedUnauthenticatedLocal,
      stateConsumedExternal]).map InputNoteRow.nullifier

/-- Returns the WHERE clause for the output note filter. -/
def noteFilterOutputNotesCondition (filter : NoteFilter) (row : OutputNoteRow) : Bool :=
  match filter with
  | .all => true
  | .committed => row.stateDiscriminant ∈ [OutputNoteState.stateCommittedPartial,
      OutputNoteState.stateCommittedFull]
  | .consumed => row.stateDiscriminant = OutputNoteState.stateConsumed
  | .expected => row.stateDiscriminant ∈ [OutputNoteState.stateExpectedPartial,
      OutputNoteState.stateExpectedFull]
  | .processing | .unverified => false
  | .unique noteId => row.id ∈ [noteId]
  | .list noteIds => row.id ∈ noteIds
  | .nullifiers nullifiers => row.nullifier.any (· ∈ nullifiers)
  | .unspent => row.stateDiscriminant ∈ [OutputNoteState.stateExpectedPartial,
      OutputNoteState.stateExpectedFull, OutputNoteState.stateCommittedPartial,
      OutputNoteState.stateCommittedFull]

variable [NoteCodecs]

/-- The script that is joined to a row. -/
def joinedScript (tables : NoteTables ℤ) (row : InputNoteRow ℤ) :
    Except NoteReadError (List UInt8) :=
  match tables.notesScripts[row.scriptRoot]? with
  | some script => .ok script
  | none => .error (.missingScript row.scriptRoot)

/-- Parse a note from its row and its script. -/
def parseInputNote (tables : NoteTables ℤ) (row : InputNoteRow ℤ) :
    Except NoteReadError ReadInputNote := do
  let script ← joinedScript tables row
  let createdAt ← columnU64 row.createdAt
  let (details, script, state) ← row.parseParts script
  return (⟨details, some createdAt, state⟩, script)

def getInputNotes (tables : NoteTables ℤ) (filter : NoteFilter) :
    Except NoteReadError (List ReadInputNote) :=
  (noteFilterToQueryInputNotes filter (OrderedMap.values tables.inputNotes)).mapM
    (parseInputNote tables)

def getInputNoteByOffset (tables : NoteTables ℤ) (filter : NoteFilter) (consumer : AccountId)
    (blockStart blockEnd : Option BlockNumber) (offset : ℕ) :
    Except NoteReadError (Option ReadInputNote) :=
  (noteFilterToQueryInputNoteByOffset filter consumer blockStart blockEnd offset
    (OrderedMap.values tables.inputNotes)).mapM (parseInputNote tables)

def getOutputNotes (tables : NoteTables ℤ) (filter : NoteFilter) :
    Except NoteReadError (List OutputNoteRecord) :=
  ((OrderedMap.values tables.outputNotes).filter (noteFilterOutputNotesCondition filter)).mapM
    OutputNoteRow.parse

end Queries

/-! ### What a call leaves -/

section Written

variable [NoteLibrary] [NoteCodecs]

open NoteCodecs

omit [NoteLibrary] [NoteCodecs] in
theorem asI64_of_lt {value : ℕ} (fits : value < 2 ^ 63) : asI64 value = value := by
  unfold asI64
  exact Int.bmod_eq_of_le (by omega) (by omega)

/-- The row that an insert writes. -/
def insertedRow (note : InputNoteRecord) : InputNoteRow ℤ :=
  note.row (asI64 (note.createdAt.getD 0))

/-- What the write of an input note makes of the stored row. -/
def writtenInputRow (write : NoteUpdateType × ReadInputNote) (stored : Option (InputNoteRow ℤ)) :
    Option (InputNoteRow ℤ) :=
  NoteUpdate.writtenRow insertedRow (fun note => (serializeInputNoteState note).apply)
    ⟨write.2.1, write.1⟩ stored

/-- What the write of an output note makes of the stored row. -/
def writtenOutputRow (update : OutputNoteUpdate) (stored : Option OutputNoteRow) :
    Option OutputNoteRow :=
  update.writtenRow OutputNoteRecord.row (fun note => (serializeOutputNoteState note).apply) stored

/-- The script that the call writes last under a root. Only new notes are written with scripts. -/
def lastScript (scriptRoot : Word) (write : NoteWrite) : Option NoteScript :=
  write.lastScript (· = .insert) scriptRoot

/-- A call that writes all its notes writes their rows and their scripts one after the other. -/
theorem upsertInputNotes_eq_ok {tables after : NoteTables ℤ} {notes : List ScriptedNote}
    (written : upsertInputNotes tables notes = .ok after) :
    (∀ note ∈ notes, note.record.createdAt.getD 0 < 2 ^ 63) ∧
      after = { tables with
        inputNotes := OrderedMap.insertAll tables.inputNotes
          (notes.map fun note => (note.record.id, insertedRow note.record))
        notesScripts := OrderedMap.insertAll tables.notesScripts
          (notes.map fun note =>
            (note.record.details.recipient.scriptRoot, noteScript.write note.script)) } := by
  induction notes generalizing tables with
  | nil =>
    cases written
    exact ⟨fun _ absent => absurd absent List.not_mem_nil, rfl⟩
  | cons note rest inductionHypothesis =>
    unfold upsertInputNotes at written
    rw [List.foldlM_cons] at written
    obtain ⟨next, first, others⟩ := Fallible.bind_eq_ok.mp written
    obtain ⟨createdAt, converted, made⟩ := Fallible.bind_eq_ok.mp first
    cases made
    obtain ⟨fits, rfl⟩ := toSql_eq_ok.mp converted
    obtain ⟨othersFit, rfl⟩ := inductionHypothesis others
    refine ⟨List.forall_mem_cons.mpr ⟨fits, othersFit⟩, ?_⟩
    have row : insertedRow note.record = note.record.row ((note.record.createdAt.getD 0 : ℕ) : ℤ) :=
      congrArg note.record.row (asI64_of_lt fits)
    rw [List.map_cons, List.map_cons, row]
    rfl

variable {tables after : NoteTables ℤ} {write : NoteWrite}

theorem perform_inputNotes (written : perform tables write = .ok after) (noteId : NoteId) :
    after.inputNotes[noteId]? = (write.inputNote? noteId).elim tables.inputNotes[noteId]?
      fun note => writtenInputRow note tables.inputNotes[noteId]? := by
  cases write with
  | upsertInputNotes notes =>
    obtain ⟨-, rfl⟩ := upsertInputNotes_eq_ok written
    show (OrderedMap.insertAll _ _)[noteId]? = _
    rw [OrderedMap.getElem?_insertAll, ← List.map_reverse, List.find?_map]
    show Option.or (Option.map Prod.snd (Option.map _ (notes.reverse.find? fun note =>
      note.record.id = noteId))) _ = Option.elim (Option.map _ (notes.reverse.find? fun note =>
        note.record.id = noteId)) _ _
    cases notes.reverse.find? fun note => note.record.id = noteId with
    | none => rfl
    | some note => rfl
  | applyNoteUpdates updates =>
    cases written
    unfold applyNoteUpdatesTx NoteWrite.inputNote?
    dsimp only [batchUpdateOutputNoteStates, batchInsertOutputNotes, batchUpdateInputNoteStates,
      batchInsertInputNotes, batchUpsertScripts]
    rw [List.foldl_map, List.foldl_map]
    refine (NoteUpdate.getElem?_writes updates.inputsKeyed insertedRow
      (fun note => (serializeInputNoteState note).apply) tables.inputNotes noteId).trans ?_
    cases updates.updates.inputNotes[noteId]?.filter NoteUpdate.isUpdated with
    | none => rfl
    | some update => rfl

theorem perform_outputNotes (written : perform tables write = .ok after) (noteId : NoteId) :
    after.outputNotes[noteId]? = (write.outputNote? noteId).elim tables.outputNotes[noteId]?
      fun update => writtenOutputRow update tables.outputNotes[noteId]? := by
  cases write with
  | upsertInputNotes notes =>
    obtain ⟨-, rfl⟩ := upsertInputNotes_eq_ok written
    rfl
  | applyNoteUpdates updates =>
    cases written
    unfold applyNoteUpdatesTx NoteWrite.outputNote?
    dsimp only [batchUpdateOutputNoteStates, batchInsertOutputNotes, batchUpdateInputNoteStates,
      batchInsertInputNotes, batchUpsertScripts]
    rw [List.foldl_map, List.foldl_map]
    exact NoteUpdate.getElem?_writes updates.outputsKeyed OutputNoteRecord.row
      (fun note => (serializeOutputNoteState note).apply) tables.outputNotes noteId

theorem perform_notesScripts (written : perform tables write = .ok after) (scriptRoot : Word) :
    after.notesScripts[scriptRoot]? =
      ((lastScript scriptRoot write).map noteScript.write).or tables.notesScripts[scriptRoot]? := by
  cases write with
  | upsertInputNotes notes =>
    obtain ⟨-, rfl⟩ := upsertInputNotes_eq_ok written
    show (OrderedMap.insertAll _ _)[scriptRoot]? = _
    rw [OrderedMap.getElem?_insertAll, ← List.map_reverse, List.find?_map]
    unfold lastScript NoteWrite.lastScript
    show Option.or (Option.map Prod.snd (Option.map _ (notes.reverse.find? fun note =>
      note.record.details.recipient.scriptRoot = scriptRoot))) _ = _
    rw [Option.map_map, Option.map_map]
    rfl
  | applyNoteUpdates updates =>
    cases written
    unfold applyNoteUpdatesTx lastScript NoteWrite.lastScript
    dsimp only [batchUpdateOutputNoteStates, batchInsertOutputNotes, batchUpdateInputNoteStates,
      batchInsertInputNotes, batchUpsertScripts]
    rw [OrderedMap.getElem?_insertAll_toList, OrderedMap.getElem?_insertAll, List.map_map,
      ← List.map_reverse, List.find?_map, ExtTreeMap.getElem?_empty, Option.or_none, Option.map_map,
      Option.map_map]
    rfl

/-! ### What is read -/

/-- Setting the state columns of the row of a note gives the row of the note in the other state. -/
theorem apply_serializeInputNoteState (stored note : InputNoteRecord) (createdAt : ℤ) :
    (serializeInputNoteState note).apply (stored.row createdAt) =
      ({ stored with state := note.state } : InputNoteRecord).row createdAt :=
  rfl

/-- The rows that a call leaves are rows of notes, and their scripts are there. -/
theorem perform_rendered (rendered : tables.Rendered) (written : perform tables write = .ok after) :
    after.Rendered where
  inputNotes noteId row found := by
    rw [perform_inputNotes written] at found
    cases change : write.inputNote? noteId with
    | none =>
      rw [change] at found
      exact rendered.inputNotes noteId row found
    | some note =>
      rw [change] at found
      obtain ⟨updateType, note⟩ := note
      cases updateType with
      | none => exact rendered.inputNotes noteId row found
      | insert =>
        cases found
        exact ⟨note.1, _, NoteWrite.id_of_inputNote? change, rfl⟩
      | update =>
        obtain ⟨before, stored, rfl⟩ := Option.map_eq_some_iff.mp found
        obtain ⟨old, createdAt, same, rfl⟩ := rendered.inputNotes noteId before stored
        exact ⟨{ old with state := note.1.state }, createdAt, same, rfl⟩
  outputNotes noteId row found := by
    rw [perform_outputNotes written] at found
    cases change : write.outputNote? noteId with
    | none =>
      rw [change] at found
      exact rendered.outputNotes noteId row found
    | some update =>
      rw [change] at found
      have same := NoteWrite.id_of_outputNote? change
      obtain ⟨note, updateType⟩ := update
      cases updateType with
      | none => exact rendered.outputNotes noteId row found
      | insert =>
        cases found
        exact ⟨note, note.nullifier, same, rfl⟩
      | update =>
        obtain ⟨before, stored, rfl⟩ := Option.map_eq_some_iff.mp found
        obtain ⟨old, nullifier, same, rfl⟩ := rendered.outputNotes noteId before stored
        exact ⟨{ old with state := note.state }, nullifier, same, rfl⟩
  notesScripts scriptRoot bytes found := by
    rw [perform_notesScripts written] at found
    cases last : lastScript scriptRoot write with
    | none =>
      rw [last] at found
      exact rendered.notesScripts scriptRoot bytes found
    | some script =>
      rw [last] at found
      cases found
      exact ⟨script, NoteWrite.root_lastScript last, rfl⟩
  scriptsThere noteId row found := by
    have kept : ∀ scriptRoot, tables.notesScripts[scriptRoot]? ≠ none ∨
        lastScript scriptRoot write ≠ none → after.notesScripts[scriptRoot]? ≠ none := by
      intro scriptRoot there absent
      rw [perform_notesScripts written, Option.or_eq_none_iff, Option.map_eq_none_iff] at absent
      exact there.elim (· absent.2) (· absent.1)
    rw [perform_inputNotes written] at found
    cases change : write.inputNote? noteId with
    | none =>
      rw [change] at found
      exact kept _ (Or.inl (rendered.scriptsThere noteId row found))
    | some note =>
      rw [change] at found
      obtain ⟨updateType, note⟩ := note
      cases updateType with
      | none => exact kept _ (Or.inl (rendered.scriptsThere noteId row found))
      | insert =>
        cases found
        exact kept _ (Or.inr (NoteWrite.lastScript_ne_none change rfl))
      | update =>
        obtain ⟨before, stored, rfl⟩ := Option.map_eq_some_iff.mp found
        exact kept _ (Or.inl (rendered.scriptsThere noteId before stored))

theorem run_rendered (rendered : tables.Rendered) (writes : List NoteWrite) :
    (run tables writes).Rendered := by
  induction writes generalizing tables with
  | nil => exact rendered
  | cons write rest inductionHypothesis =>
    refine inductionHypothesis ?_
    show ((perform tables write).toOption.getD tables).Rendered
    cases written : perform tables write with
    | error reason => exact rendered
    | ok after => exact perform_rendered rendered written

/-- Reading by id gives the note of the row with this id. -/
theorem getInputNotes_unique (rendered : tables.Rendered) {noteId : NoteId} {note : ReadInputNote} :
    getInputNotes tables (.unique noteId) = .ok [note] ↔
      ∃ row, tables.inputNotes[noteId]? = some row ∧ parseInputNote tables row = .ok note := by
  have rows : noteFilterToQueryInputNotes (.unique noteId) (OrderedMap.values tables.inputNotes) =
      tables.inputNotes[noteId]?.toList := by
    rw [← OrderedMap.filter_values_key rendered.inputsKeyed]
    refine List.filter_congr fun row _ => ?_
    exact decide_eq_decide.mpr List.mem_singleton
  unfold getInputNotes
  rw [rows]
  exact Fallible.mapM_toList_eq_singleton

theorem getOutputNotes_unique (rendered : tables.Rendered) {noteId : NoteId}
    {note : OutputNoteRecord} :
    getOutputNotes tables (.unique noteId) = .ok [note] ↔
      ∃ row, tables.outputNotes[noteId]? = some row ∧ row.parse = .ok note := by
  have rows : (OrderedMap.values tables.outputNotes).filter
      (noteFilterOutputNotesCondition (.unique noteId)) = tables.outputNotes[noteId]?.toList := by
    rw [← OrderedMap.filter_values_key rendered.outputsKeyed]
    refine List.filter_congr fun row _ => ?_
    exact decide_eq_decide.mpr List.mem_singleton
  unfold getOutputNotes
  rw [rows]
  exact Fallible.mapM_toList_eq_singleton

/-- The row of a note is read back as the note with the time of the row, if that can be read. -/
theorem parseInputNote_row {note : InputNoteRecord} {createdAt : ℤ} {script : NoteScript}
    (there : tables.notesScripts[note.details.recipient.scriptRoot]? =
      some (noteScript.write script))
    (sameRoot : root script = note.details.recipient.scriptRoot) :
    parseInputNote tables (note.row createdAt) =
      (columnU64 createdAt).map fun time => ({ note with createdAt := some time }, script) := by
  have joined : joinedScript tables (note.row createdAt) = .ok (noteScript.write script) := by
    unfold joinedScript
    rw [show (note.row createdAt).scriptRoot = note.details.recipient.scriptRoot from rfl, there]
  have parts := note.parseParts_row createdAt script
  rw [sameRoot] at parts
  unfold parseInputNote
  rw [joined]
  cases read : columnU64 createdAt with
  | error reason =>
    show (columnU64 createdAt >>= _) = _
    rw [read]
    rfl
  | ok time =>
    show (columnU64 createdAt >>= fun _ => (note.row createdAt).parseParts _ >>= _) = _
    rw [read, parts]
    rfl

end Written

end SqliteNotes

end MidenClient
