/-
This file says when the stores return the notes that were written to them
(`sqlite-store/src/note/mod.rs` and `idxdb-store/src/note/utils.rs`).

SQLite stores a missing creation time as zero, and casts the times of the new notes of a tracker to
signed integers. The state-only path leaves the other columns as they are. IndexedDB stores the time
of each write as the creation time. In both stores a script is replaced by any script with the same
root that is written after it.
-/

import MidenClient.Idxdb.Notes
import MidenClient.Note.TrackedStates
import MidenClient.Sqlite.Notes

namespace MidenClient

open Std (ExtTreeMap)

section Returned

variable [NoteLibrary] [NoteCodecs]

open NoteCodecs

/-- Reading an input note by its id gives just the note, and it is found by what it is. -/
structure ReturnsInput (getInputNotes : NoteTables ℤ → NoteFilter →
    Except NoteReadError (List ReadInputNote)) (tables : NoteTables ℤ) (note : ReadInputNote) :
    Prop where
  read : getInputNotes tables (.unique note.1.id) = .ok [note]
  indexed : ∃ row, tables.inputNotes[note.1.id]? = some row ∧ row.Indexes note.1

/-- Reading an output note by its id gives just the note, and it is found by what it is. -/
structure ReturnsOutput (getOutputNotes : NoteTables ℤ → NoteFilter →
    Except NoteReadError (List OutputNoteRecord)) (tables : NoteTables ℤ)
    (note : OutputNoteRecord) : Prop where
  read : getOutputNotes tables (.unique note.id) = .ok [note]
  indexed : ∃ row, tables.outputNotes[note.id]? = some row ∧ row.Indexes note

/-- The row of a note has the columns of it. -/
theorem InputNoteRecord.row_indexes (note : InputNoteRecord) (createdAt : ℤ) :
    (note.row createdAt).Indexes note :=
  ⟨rfl, rfl, rfl, rfl, rfl⟩

/-- A note that is written is a new one or one that was changed. -/
theorem NoteWrite.updateType_ne_none {write : NoteWrite} {noteId : NoteId}
    {updateType : NoteUpdateType} {note : ReadInputNote}
    (wrote : write.inputNote? noteId = some (updateType, note)) : updateType ≠ .none := by
  cases write with
  | upsertInputNotes notes =>
    obtain ⟨chosen, -, same⟩ := Option.map_eq_some_iff.mp wrote
    cases same
    exact NoteUpdateType.noConfusion
  | applyNoteUpdates updates =>
    obtain ⟨update, found, same⟩ := Option.map_eq_some_iff.mp wrote
    cases same
    exact of_decide_eq_true (Option.filter_eq_some_iff.mp found).2

theorem NoteWrite.outputType_ne_none {write : NoteWrite} {noteId : NoteId}
    {update : OutputNoteUpdate} (wrote : write.outputNote? noteId = some update) :
    update.updateType ≠ .none := by
  cases write with
  | upsertInputNotes notes => cases wrote
  | applyNoteUpdates updates => exact of_decide_eq_true (Option.filter_eq_some_iff.mp wrote).2

/-! ### SQLite -/

namespace SqliteNotes

/-- A new note has a creation time that fits into a signed integer, and its script is the last that
the call writes under the root. -/
def KeepsInserted (write : NoteWrite) (note : ReadInputNote) : Prop :=
  (∃ time < 2 ^ 63, note.1.createdAt = some time) ∧
    lastScript note.1.details.recipient.scriptRoot write = some note.2

/-- A changed note is read from the tables with the same details and the same time before, and its
script is the last that the call writes under the root, or else the one that was read. -/
def KeepsUpdated (tables : NoteTables ℤ) (write : NoteWrite) (note : ReadInputNote) : Prop :=
  ∃ old, getInputNotes tables (.unique note.1.id) = .ok [old] ∧
    old.1.details = note.1.details ∧ old.1.createdAt = note.1.createdAt ∧
      (lastScript note.1.details.recipient.scriptRoot write).getD old.2 = note.2

/-- The write of an input note keeps all of it. -/
def KeepsInput (tables : NoteTables ℤ) (write : NoteWrite) (note : ReadInputNote) :
    NoteUpdateType → Prop
  | .insert => KeepsInserted write note
  | .update => KeepsUpdated tables write note
  | .none => True

/-- The write of an output note keeps all of it: the note is new, or differs from the stored one in
the state alone, and is stored with its nullifier. -/
def KeepsOutput (tables : NoteTables ℤ) (update : OutputNoteUpdate) : Prop :=
  update.updateType = .insert ∨ ∃ row old, tables.outputNotes[update.note.id]? = some row ∧
    row.parse = .ok old ∧ update.note = { old with state := update.note.state } ∧
      row.nullifier = update.note.nullifier

variable {tables after : NoteTables ℤ} {write : NoteWrite} {noteId : NoteId}

/-- The script of a rendered row. -/
theorem exists_script (rendered : tables.Rendered) {note : InputNoteRecord} {createdAt : ℤ}
    (stored : tables.inputNotes[noteId]? = some (note.row createdAt)) :
    ∃ script, root script = note.details.recipient.scriptRoot ∧
      tables.notesScripts[note.details.recipient.scriptRoot]? = some (noteScript.write script) := by
  obtain ⟨bytes, found⟩ := Option.ne_none_iff_exists'.mp (rendered.scriptsThere noteId _ stored)
  obtain ⟨script, same, rfl⟩ := rendered.notesScripts _ bytes found
  exact ⟨script, same, found⟩

/-- What is read of a row is its note with the time of the row and the script under its root. -/
theorem read_row_iff (rendered : tables.Rendered) {stored : InputNoteRecord} {createdAt : ℤ}
    {script : NoteScript} (row : tables.inputNotes[noteId]? = some (stored.row createdAt))
    (sameRoot : root script = stored.details.recipient.scriptRoot)
    (there : tables.notesScripts[stored.details.recipient.scriptRoot]? =
      some (noteScript.write script)) {note : ReadInputNote} :
    getInputNotes tables (.unique noteId) = .ok [note] ↔
      ∃ time, columnU64 createdAt = .ok time ∧
        note = ({ stored with createdAt := some time }, script) := by
  rw [getInputNotes_unique rendered, row]
  simp only [Option.some.injEq, exists_eq_left']
  rw [parseInputNote_row there sameRoot]
  cases columnU64 createdAt with
  | error reason => exact ⟨fun failed => (nomatch failed), fun ⟨_, failed, _⟩ => (nomatch failed)⟩
  | ok time =>
    refine ⟨fun read => ⟨time, rfl, (Except.ok.inj read).symm⟩, ?_⟩
    rintro ⟨_, ⟨⟩, rfl⟩
    rfl

/-- A row that is read as a note is found by what the note is. -/
theorem returns_row_iff (rendered : tables.Rendered) {stored : InputNoteRecord} {createdAt : ℤ}
    {script : NoteScript} {note : ReadInputNote}
    (row : tables.inputNotes[note.1.id]? = some (stored.row createdAt))
    (sameRoot : root script = stored.details.recipient.scriptRoot)
    (there : tables.notesScripts[stored.details.recipient.scriptRoot]? =
      some (noteScript.write script)) :
    ReturnsInput getInputNotes tables note ↔
      ∃ time, columnU64 createdAt = .ok time ∧
        note = ({ stored with createdAt := some time }, script) := by
  constructor
  · exact fun returns => (read_row_iff rendered row sameRoot there).mp returns.read
  · intro reads
    refine ⟨(read_row_iff rendered row sameRoot there).mpr reads, _, row, ?_⟩
    obtain ⟨time, _, rfl⟩ := reads
    exact ({ stored with createdAt := some time } : InputNoteRecord).row_indexes createdAt

theorem inserted_returned_iff (rendered : tables.Rendered)
    (written : perform tables write = .ok after) {note : ReadInputNote}
    (wrote : write.inputNote? noteId = some (.insert, note)) :
    ReturnsInput getInputNotes after note ↔ KeepsInserted write note := by
  have same : note.1.id = noteId := NoteWrite.id_of_inputNote? wrote
  have row : after.inputNotes[note.1.id]? = some (insertedRow note.1) := by
    rw [perform_inputNotes written, same, wrote]
    rfl
  have writes : lastScript note.1.details.recipient.scriptRoot write ≠ none :=
    NoteWrite.lastScript_ne_none wrote rfl
  obtain ⟨script, last⟩ := Option.ne_none_iff_exists'.mp writes
  have there : after.notesScripts[note.1.details.recipient.scriptRoot]? =
      some (noteScript.write script) := by
    rw [perform_notesScripts written, last]
    rfl
  rw [returns_row_iff (perform_rendered rendered written) row (NoteWrite.root_lastScript last)
    there, KeepsInserted, last]
  constructor
  · rintro ⟨time, read, same⟩
    have sameTime : note.1.createdAt = some time := congrArg (fun note => note.1.createdAt) same
    have sameScript : note.2 = script := congrArg Prod.snd same
    rw [sameTime] at read
    exact ⟨⟨time, (columnU64_asI64 time).mp read, sameTime⟩, congrArg some sameScript.symm⟩
  · rintro ⟨⟨time, small, sameTime⟩, sameScript⟩
    refine ⟨time, ?_, ?_⟩
    · rw [sameTime]
      exact (columnU64_asI64 time).mpr small
    · rw [Option.some.inj sameScript, ← sameTime]

theorem updated_returned_iff (rendered : tables.Rendered)
    (written : perform tables write = .ok after) {note : ReadInputNote}
    (wrote : write.inputNote? noteId = some (.update, note)) :
    ReturnsInput getInputNotes after note ↔ KeepsUpdated tables write note := by
  have same : note.1.id = noteId := NoteWrite.id_of_inputNote? wrote
  have row : after.inputNotes[note.1.id]? =
      tables.inputNotes[note.1.id]?.map (serializeInputNoteState note.1).apply := by
    rw [perform_inputNotes written, same, wrote]
    rfl
  cases found : tables.inputNotes[note.1.id]? with
  | none =>
    rw [found] at row
    refine iff_of_false (fun returns => ?_) fun keeps => ?_
    · obtain ⟨_, there, _⟩ := returns.indexed
      rw [row] at there
      cases there
    · obtain ⟨old, read, _⟩ := keeps
      obtain ⟨_, there, _⟩ := (getInputNotes_unique rendered).mp read
      rw [found] at there
      cases there
  | some stored =>
    obtain ⟨old, createdAt, sameId, rfl⟩ := rendered.inputNotes _ stored found
    obtain ⟨script, sameRoot, there⟩ := exists_script rendered found
    rw [found, Option.map_some, apply_serializeInputNoteState] at row
    have last : after.notesScripts[old.details.recipient.scriptRoot]? = some (noteScript.write
        ((lastScript old.details.recipient.scriptRoot write).getD script)) := by
      rw [perform_notesScripts written, there]
      cases lastScript old.details.recipient.scriptRoot write <;> rfl
    have lastRoot : root ((lastScript old.details.recipient.scriptRoot write).getD script) =
        old.details.recipient.scriptRoot := by
      cases chosen : lastScript old.details.recipient.scriptRoot write with
      | none => exact sameRoot
      | some other => exact NoteWrite.root_lastScript chosen
    rw [returns_row_iff (perform_rendered rendered written) row lastRoot last, KeepsUpdated]
    simp only [read_row_iff rendered found sameRoot there]
    constructor
    · rintro ⟨time, read, same⟩
      have sameDetails : note.1.details = old.details := congrArg (fun note => note.1.details) same
      have sameTime : note.1.createdAt = some time := congrArg (fun note => note.1.createdAt) same
      have sameScript := congrArg Prod.snd same
      refine ⟨_, ⟨time, read, rfl⟩, sameDetails.symm, sameTime.symm, ?_⟩
      rw [sameDetails]
      exact sameScript.symm
    · rintro ⟨_, ⟨time, read, rfl⟩, sameDetails, sameTime, sameScript⟩
      refine ⟨time, read, Prod.ext ?_ ?_⟩
      · obtain ⟨⟨details, noteTime, state⟩, noteScript⟩ := note
        cases sameDetails
        cases sameTime
        rfl
      · rw [← sameScript, ← sameDetails]

theorem input_returned_iff (rendered : tables.Rendered)
    (written : perform tables write = .ok after) {updateType : NoteUpdateType}
    {note : ReadInputNote} (wrote : write.inputNote? noteId = some (updateType, note)) :
    ReturnsInput getInputNotes after note ↔ KeepsInput tables write note updateType := by
  cases updateType with
  | insert => exact inserted_returned_iff rendered written wrote
  | update => exact updated_returned_iff rendered written wrote
  | none => exact absurd rfl (NoteWrite.updateType_ne_none wrote)

/-- An output note is read from its row whatever the nullifier of the row is. -/
theorem output_row_iff (rendered : tables.Rendered) {stored note : OutputNoteRecord}
    {nullifier : Option Nullifier}
    (row : tables.outputNotes[note.id]? = some { stored.row with nullifier := nullifier }) :
    ReturnsOutput getOutputNotes tables note ↔ note = stored ∧ nullifier = note.nullifier := by
  have reads : getOutputNotes tables (.unique note.id) = .ok [note] ↔ note = stored := by
    rw [getOutputNotes_unique rendered, row]
    simp only [Option.some.injEq, exists_eq_left', OutputNoteRecord.parse_row, Except.ok.injEq]
    exact eq_comm
  constructor
  · rintro ⟨read, found, there, indexes⟩
    rw [row] at there
    cases there
    exact ⟨reads.mp read, indexes.nullifier⟩
  · rintro ⟨same, sameNullifier⟩
    refine ⟨reads.mpr same, _, row, sameNullifier, ?_⟩
    rw [same]
    rfl

theorem output_returned_iff (rendered : tables.Rendered)
    (written : perform tables write = .ok after) {update : OutputNoteUpdate}
    (wrote : write.outputNote? noteId = some update) :
    ReturnsOutput getOutputNotes after update.note ↔ KeepsOutput tables update := by
  have same : update.note.id = noteId := NoteWrite.id_of_outputNote? wrote
  have row : after.outputNotes[update.note.id]? =
      writtenOutputRow update tables.outputNotes[update.note.id]? := by
    rw [perform_outputNotes written, same, wrote]
    rfl
  have renderedAfter := perform_rendered rendered written
  obtain ⟨note, updateType⟩ := update
  unfold KeepsOutput
  cases updateType with
  | none => exact absurd rfl (NoteWrite.outputType_ne_none wrote)
  | insert =>
    rw [output_row_iff renderedAfter row]
    exact iff_of_true ⟨rfl, rfl⟩ (Or.inl rfl)
  | update =>
    cases found : tables.outputNotes[note.id]? with
    | none =>
      rw [found] at row
      refine iff_of_false (fun returns => ?_) fun keeps => ?_
      · obtain ⟨_, there, _⟩ := returns.indexed
        rw [show after.outputNotes[note.id]? = none from row] at there
        cases there
      · obtain absurdity | ⟨_, _, there, _⟩ := keeps
        · cases absurdity
        · cases there
    | some stored =>
      obtain ⟨old, nullifier, sameId, rfl⟩ := rendered.outputNotes _ stored found
      rw [found] at row
      have changed : after.outputNotes[note.id]? = some
          { ({ old with state := note.state } : OutputNoteRecord).row with
            nullifier := nullifier } := row
      rw [output_row_iff renderedAfter changed]
      constructor
      · rintro ⟨same, sameNullifier⟩
        exact Or.inr ⟨_, old, rfl, old.parse_row nullifier, same, sameNullifier⟩
      · rintro (absurdity | ⟨_, read, ⟨⟩, parsed, same, sameNullifier⟩)
        · cases absurdity
        · rw [old.parse_row nullifier] at parsed
          cases parsed
          exact ⟨same, sameNullifier⟩

/-- A note that a query returns is also read by its id. -/
theorem read_of_query (rendered : tables.Rendered) {filter : NoteFilter}
    {notes : List ReadInputNote} (queried : getInputNotes tables filter = .ok notes)
    {note : ReadInputNote} (listed : note ∈ notes) :
    getInputNotes tables (.unique note.1.id) = .ok [note] := by
  obtain ⟨row, selected, parsed⟩ := Fallible.exists_of_mapM queried listed
  have there : row ∈ OrderedMap.values tables.inputNotes := by
    unfold noteFilterToQueryInputNotes at selected
    split at selected
    · exact List.mem_of_mem_filter (OrderedRead.mem_orderBy.mp selected)
    · exact List.mem_of_mem_filter selected
  obtain ⟨noteId, found⟩ := OrderedMap.mem_values_iff.mp there
  obtain ⟨stored, createdAt, sameId, rfl⟩ := rendered.inputNotes noteId row found
  obtain ⟨script, sameRoot, scriptThere⟩ := exists_script rendered found
  have read : getInputNotes tables (.unique noteId) = .ok [note] :=
    (getInputNotes_unique rendered).mpr ⟨_, found, parsed⟩
  obtain ⟨time, _, rfl⟩ := (read_row_iff rendered found sameRoot scriptThere).mp read
  rw [← sameId] at read
  exact read

theorem read_of_output_query (rendered : tables.Rendered) {filter : NoteFilter}
    {notes : List OutputNoteRecord} (queried : getOutputNotes tables filter = .ok notes)
    {note : OutputNoteRecord} (listed : note ∈ notes) :
    ∃ row, tables.outputNotes[note.id]? = some row ∧ row.parse = .ok note := by
  obtain ⟨row, selected, parsed⟩ := Fallible.exists_of_mapM queried listed
  obtain ⟨noteId, found⟩ := OrderedMap.mem_values_iff.mp (List.mem_of_mem_filter selected)
  obtain ⟨stored, nullifier, sameId, rfl⟩ := rendered.outputNotes noteId row found
  rw [stored.parse_row nullifier] at parsed
  cases parsed
  rw [sameId]
  exact ⟨_, found, note.parse_row nullifier⟩

/-- A tracker that was built with notes from queries, and then got any calls, changes only notes
that are stored, with their details and times. -/
theorem tracked_read (rendered : tables.Rendered) {filter : NoteFilter}
    {inputs : List ReadInputNote} (queried : getInputNotes tables filter = .ok inputs)
    (outputs : List OutputNoteRecord) (calls : List NoteUpdateTracker.Call)
    {noteUpdates : NoteUpdateTracker}
    (tracked : noteUpdates = (NoteUpdateTracker.new (inputs.map Prod.fst) outputs).run calls)
    {update : InputNoteUpdate} (trackedAt : noteUpdates.inputNotes[noteId]? = some update)
    (changed : update.updateType = .update) :
    ∃ old ∈ inputs, old.1.id = noteId ∧
      getInputNotes tables (.unique update.note.id) = .ok [old] ∧
        update.note.details = old.1.details ∧ update.note.createdAt = old.1.createdAt := by
  rw [tracked] at trackedAt
  have drawn := (NoteUpdateTracker.run_onlyStates (inputs.map Prod.fst) outputs calls).inputNotes
    noteId update trackedAt
  obtain inserted | ⟨record, listed, sameId, differs⟩ := drawn
  · rw [changed] at inserted
    cases inserted
  obtain ⟨old, oldListed, rfl⟩ := List.mem_map.mp listed
  have ids : update.note.id = old.1.id := congrArg NoteDetails.id differs.details
  refine ⟨old, oldListed, sameId, ?_, differs.details, differs.createdAt⟩
  rw [ids]
  exact read_of_query rendered queried oldListed

/-- A tracker that was built with notes from queries, and then got any calls, updates notes in their
states alone: an input note is returned just when its script is not replaced by another one that the
same call writes under its root. -/
theorem tracked_input_returned_iff (rendered : tables.Rendered) {filter : NoteFilter}
    {inputs : List ReadInputNote} (queried : getInputNotes tables filter = .ok inputs)
    (outputs : List OutputNoteRecord) (calls : List NoteUpdateTracker.Call)
    {noteUpdates : ScriptedUpdates}
    (tracked : noteUpdates.updates =
      (NoteUpdateTracker.new (inputs.map Prod.fst) outputs).run calls)
    (ownScripts : ∀ note ∈ inputs, noteUpdates.script note.1.id = note.2)
    (written : perform tables (.applyNoteUpdates noteUpdates) = .ok after) {note : ReadInputNote}
    (wrote : (NoteWrite.applyNoteUpdates noteUpdates).inputNote? noteId = some (.update, note)) :
    ReturnsInput getInputNotes after note ↔
      ∀ script ∈ lastScript note.1.details.recipient.scriptRoot (.applyNoteUpdates noteUpdates),
        script = note.2 := by
  obtain ⟨update, found, same⟩ := Option.map_eq_some_iff.mp wrote
  obtain ⟨trackedAt, _⟩ := Option.filter_eq_some_iff.mp found
  have changed : update.updateType = .update := congrArg Prod.fst same
  have sameNote : (update.note, noteUpdates.script noteId) = note := congrArg Prod.snd same
  subst sameNote
  obtain ⟨old, oldListed, sameId, read, sameDetails, sameTime⟩ :=
    tracked_read rendered queried outputs calls tracked trackedAt changed
  have ownScript : noteUpdates.script noteId = old.2 := by rw [← sameId, ownScripts old oldListed]
  rw [updated_returned_iff rendered written wrote, KeepsUpdated]
  constructor
  · rintro ⟨other, otherRead, -, -, sameScript⟩ script last
    rw [last] at sameScript
    exact sameScript
  · intro unreplaced
    refine ⟨old, read, sameDetails.symm, sameTime.symm, ?_⟩
    cases last : lastScript update.note.details.recipient.scriptRoot
        (.applyNoteUpdates noteUpdates) with
    | none => exact ownScript.symm
    | some script => exact unreplaced script last

/-- The output notes of such a tracker are all returned. -/
theorem tracked_output_returned (rendered : tables.Rendered) {filter : NoteFilter}
    (inputs : List InputNoteRecord) {outputs : List OutputNoteRecord}
    (queried : getOutputNotes tables filter = .ok outputs) (calls : List NoteUpdateTracker.Call)
    {noteUpdates : ScriptedUpdates}
    (tracked : noteUpdates.updates = (NoteUpdateTracker.new inputs outputs).run calls)
    (nullifiersStored : ∀ (noteId : NoteId) row note, tables.outputNotes[noteId]? = some row →
      row.parse = .ok note → row.nullifier = note.nullifier)
    (written : perform tables (.applyNoteUpdates noteUpdates) = .ok after)
    {update : OutputNoteUpdate}
    (wrote : (NoteWrite.applyNoteUpdates noteUpdates).outputNote? noteId = some update) :
    ReturnsOutput getOutputNotes after update.note := by
  obtain ⟨trackedAt, _⟩ := Option.filter_eq_some_iff.mp wrote
  rw [tracked] at trackedAt
  have drawn := (NoteUpdateTracker.run_onlyStates inputs outputs calls).outputNotes noteId update
    trackedAt
  refine (output_returned_iff rendered written wrote).mpr ?_
  obtain inserted | ⟨old, listed, sameId, differs⟩ := drawn
  · exact Or.inl inserted
  · obtain ⟨row, found, parsed⟩ := read_of_output_query rendered queried listed
    have ids : update.note.id = old.id := by
      rw [differs.rest]
      rfl
    refine Or.inr ⟨row, old, by rw [ids]; exact found, parsed, differs.rest, ?_⟩
    rw [nullifiersStored _ row old found parsed]
    exact differs.nullifier.symm

end SqliteNotes

/-! ### IndexedDB -/

namespace IdxdbNotes

/-- The clock gives the creation time of the note, and the script of the note is the last that the
call writes under the root. -/
def KeepsInput (clock : NoteId → ℤ) (write : NoteWrite) (note : ReadInputNote) : Prop :=
  (∃ time : ℕ, clock note.1.id = time ∧ note.1.createdAt = some time) ∧
    lastScript note.1.details.recipient.scriptRoot write = some note.2

variable {tables : NoteTables ℤ} {clock : NoteId → ℤ} {write : NoteWrite} {noteId : NoteId}

omit [NoteLibrary] [NoteCodecs] in
theorem parseCreatedAt_eq_ok {createdAt : ℤ} {time : ℕ} :
    parseCreatedAt createdAt = .ok time ↔ createdAt = time := by
  unfold parseCreatedAt
  split
  · rename_i positive
    rw [Except.ok.injEq]
    omega
  · rename_i negative
    refine ⟨fun failed => (nomatch failed), fun same => absurd ?_ negative⟩
    rw [same]
    exact Int.natCast_nonneg time

/-- A note is returned as it was written, with the time of the clock and the last script. -/
theorem input_returned_iff (rendered : tables.Rendered) {updateType : NoteUpdateType}
    {note : ReadInputNote} (wrote : write.inputNote? noteId = some (updateType, note)) :
    ReturnsInput getInputNotes (perform clock tables write) note ↔ KeepsInput clock write note := by
  have same : note.1.id = noteId := NoteWrite.id_of_inputNote? wrote
  have row : (perform clock tables write).inputNotes[note.1.id]? =
      some (note.1.row (clock note.1.id)) := by
    rw [perform_inputNotes, same, wrote]
    rfl
  have writes : lastScript note.1.details.recipient.scriptRoot write ≠ none :=
    NoteWrite.lastScript_ne_none wrote rfl
  obtain ⟨script, last⟩ := Option.ne_none_iff_exists'.mp writes
  have there : (perform clock tables write).notesScripts[note.1.details.recipient.scriptRoot]? =
      some (noteScript.write script) := by
    rw [perform_notesScripts, last]
    rfl
  have reads : getInputNotes (perform clock tables write) (.unique note.1.id) = .ok [note] ↔
      KeepsInput clock write note := by
    rw [getInputNotes_unique (perform_rendered clock write rendered), row, KeepsInput, last]
    simp only [Option.some.injEq, exists_eq_left']
    rw [parseInputNoteIdxdbObject_row there (NoteWrite.root_lastScript last)]
    constructor
    · intro read
      cases parsed : parseCreatedAt (clock note.1.id) with
      | error reason =>
        rw [parsed] at read
        cases read
      | ok time =>
        rw [parsed] at read
        have whole := Except.ok.inj read
        exact ⟨⟨time, parseCreatedAt_eq_ok.mp parsed,
          (congrArg (fun note => note.1.createdAt) whole).symm⟩, congrArg Prod.snd whole⟩
    · rintro ⟨⟨time, clocked, sameTime⟩, sameScript⟩
      obtain ⟨⟨details, createdAt, state⟩, noteScript⟩ := note
      cases sameScript
      cases sameTime
      rw [parseCreatedAt_eq_ok.mpr clocked]
      rfl
  refine ⟨fun returns => reads.mp returns.read, fun keeps => ⟨reads.mpr keeps, _, row, ?_⟩⟩
  exact note.1.row_indexes (clock note.1.id)

theorem output_returned (rendered : tables.Rendered) {update : OutputNoteUpdate}
    (wrote : write.outputNote? noteId = some update) :
    ReturnsOutput getOutputNotes (perform clock tables write) update.note := by
  have same : update.note.id = noteId := NoteWrite.id_of_outputNote? wrote
  have row : (perform clock tables write).outputNotes[update.note.id]? = some update.note.row := by
    rw [perform_outputNotes, same, wrote]
    rfl
  refine ⟨?_, _, row, rfl, rfl⟩
  rw [getOutputNotes_unique (perform_rendered clock write rendered)]
  exact ⟨_, row, update.note.parse_row update.note.nullifier⟩

end IdxdbNotes

/-! ### Both stores -/

/-- After any writes before it, SQLite returns what a write stored just when the write keeps all of
the note: a new note with a time that fits and the last script, and a changed one that differs from
the stored one in its state alone. IndexedDB returns an input note just when the clock gives its
creation time and its script is the last, and output notes always. -/
theorem notes_returned_iff :
    (∀ earlier write after,
      SqliteNotes.perform (SqliteNotes.run .empty earlier) write = .ok after →
        (∀ noteId updateType note, write.inputNote? noteId = some (updateType, note) →
          (ReturnsInput SqliteNotes.getInputNotes after note ↔
            SqliteNotes.KeepsInput (SqliteNotes.run .empty earlier) write note updateType)) ∧
        ∀ noteId update, write.outputNote? noteId = some update →
          (ReturnsOutput SqliteNotes.getOutputNotes after update.note ↔
            SqliteNotes.KeepsOutput (SqliteNotes.run .empty earlier) update)) ∧
    ∀ earlier clock write,
      (∀ noteId updateType note, write.inputNote? noteId = some (updateType, note) →
        (ReturnsInput IdxdbNotes.getInputNotes
            (IdxdbNotes.perform clock (IdxdbNotes.run .empty earlier) write) note ↔
          IdxdbNotes.KeepsInput clock write note)) ∧
      ∀ noteId update, write.outputNote? noteId = some update →
        ReturnsOutput IdxdbNotes.getOutputNotes
          (IdxdbNotes.perform clock (IdxdbNotes.run .empty earlier) write) update.note := by
  constructor
  · intro earlier write after written
    have rendered := SqliteNotes.run_rendered NoteTables.rendered_empty earlier
    exact ⟨fun _ _ _ wrote => SqliteNotes.input_returned_iff rendered written wrote,
      fun _ _ wrote => SqliteNotes.output_returned_iff rendered written wrote⟩
  · intro earlier clock write
    have rendered := IdxdbNotes.run_rendered NoteTables.rendered_empty earlier
    exact ⟨fun _ _ _ wrote => IdxdbNotes.input_returned_iff rendered wrote,
      fun _ _ wrote => IdxdbNotes.output_returned rendered wrote⟩

end Returned

/-! ### A note with a time and one without -/

namespace Sample

open Codecs Codec

/-- Scripts with a root and a body. -/
scoped instance noteCodecs : NoteCodecs where
  NoteScript := Word × ℕ
  root := Prod.fst
  noteScript := pair unary unary
  noteStorage := unary
  noteAssets := list unary assetCodec

/-- An expected note, with a time or without. -/
def awaitedNote (createdAt : Option ℕ) : ScriptedNote where
  record := ⟨⟨[], ⟨3, 1, 1⟩⟩, createdAt, .expected ⟨none, 4, none⟩⟩
  script := (1, 8)
  sameRoot := rfl

def awaitedWrite (createdAt : Option ℕ) : NoteWrite :=
  .upsertInputNotes [awaitedNote createdAt]

/-- The tables of SQLite after the note was written. -/
def awaitedTables (createdAt : Option ℕ) : NoteTables ℤ :=
  ((SqliteNotes.perform .empty (awaitedWrite createdAt)).toOption).getD .empty

/-- The note is consumed by somebody else, and an output note is written with it. -/
def takenNote : InputNoteRecord :=
  { (awaitedNote (some 5)).record with state := .consumedExternal ⟨9, some 2⟩ }

def handedNote : OutputNoteRecord :=
  ⟨[], ⟨2, .isPublic, 3, 0⟩, 6, .expectedFull ⟨1, 2, 3⟩, 8⟩

def takenUpdates : ScriptedUpdates where
  updates := ⟨(∅ : ExtTreeMap NoteId InputNoteUpdate).insert takenNote.id ⟨takenNote, .update⟩,
    (∅ : ExtTreeMap NoteId OutputNoteUpdate).insert handedNote.id ⟨handedNote, .insert⟩, ∅, ∅, ∅⟩
  script _ := (1, 8)
  inputsKeyed noteId update found := by
    rw [ExtTreeMap.getElem?_insert] at found
    split at found
    · rename_i same
      rw [← Option.some_inj.mp found, Std.compare_eq_iff_eq.mp same]
    · simp at found
  outputsKeyed noteId update found := by
    rw [ExtTreeMap.getElem?_insert] at found
    split at found
    · rename_i same
      rw [← Option.some_inj.mp found, Std.compare_eq_iff_eq.mp same]
    · simp at found
  sameRoot noteId update found := by
    rw [ExtTreeMap.getElem?_insert] at found
    split at found
    · rw [← Option.some_inj.mp found]
      rfl
    · simp at found

/-- The tables of SQLite after both writes. -/
def takenTables : NoteTables ℤ :=
  ((SqliteNotes.perform (SqliteNotes.run .empty [awaitedWrite (some 5)])
    (.applyNoteUpdates takenUpdates)).toOption).getD .empty

/-- The tables of IndexedDB after both writes, the second of them at the time of the note. -/
def idxdbTakenTables : NoteTables ℤ :=
  IdxdbNotes.perform (fun _ => 5)
    (IdxdbNotes.run .empty [((fun _ => 4), awaitedWrite (some 5))]) (.applyNoteUpdates takenUpdates)

/-- Both stores return both notes of the second write. -/
theorem notes_returned_iff_taken :
    ReturnsInput SqliteNotes.getInputNotes takenTables (takenNote, (1, 8)) ∧
    ReturnsOutput SqliteNotes.getOutputNotes takenTables handedNote ∧
    ReturnsInput IdxdbNotes.getInputNotes idxdbTakenTables (takenNote, (1, 8)) ∧
    ReturnsOutput IdxdbNotes.getOutputNotes idxdbTakenTables handedNote := by
  obtain ⟨sqlite, idxdb⟩ := notes_returned_iff
  have wrote : (NoteWrite.applyNoteUpdates takenUpdates).inputNote? takenNote.id =
      some (.update, takenNote, (1, 8)) := rfl
  have sent : (NoteWrite.applyNoteUpdates takenUpdates).outputNote? handedNote.id =
      some ⟨handedNote, .insert⟩ := rfl
  have read : SqliteNotes.getInputNotes (SqliteNotes.run .empty [awaitedWrite (some 5)])
      (.unique takenNote.id) = .ok [((awaitedNote (some 5)).record, (1, 8))] := rfl
  obtain ⟨inputs, outputs⟩ := sqlite [awaitedWrite (some 5)] (.applyNoteUpdates takenUpdates)
    takenTables rfl
  obtain ⟨idxdbInputs, idxdbOutputs⟩ := idxdb [((fun _ => 4), awaitedWrite (some 5))] (fun _ => 5)
    (.applyNoteUpdates takenUpdates)
  refine ⟨?_, ?_, ?_, ?_⟩
  · exact (inputs _ _ _ wrote).mpr ⟨_, read, rfl, rfl, rfl⟩
  · exact (outputs _ _ sent).mpr (.inl rfl)
  · exact (idxdbInputs _ _ _ wrote).mpr ⟨⟨5, rfl, rfl⟩, rfl⟩
  · exact idxdbOutputs _ _ sent

/-- A note without a time comes back with the time zero from SQLite, and a note with a time comes
back with the time of the write from IndexedDB. -/
theorem notes_changed_awaited :
    (SqliteNotes.perform .empty (awaitedWrite none) = .ok (awaitedTables none) ∧
      ¬ReturnsInput SqliteNotes.getInputNotes (awaitedTables none)
        ((awaitedNote none).record, (awaitedNote none).script)) ∧
    ¬ReturnsInput IdxdbNotes.getInputNotes
      (IdxdbNotes.perform (fun _ => 7) .empty (awaitedWrite (some 5)))
      ((awaitedNote (some 5)).record, (awaitedNote (some 5)).script) := by
  have wrote : ∀ createdAt, (awaitedWrite createdAt).inputNote? (awaitedNote none).record.id =
      some (.insert, (awaitedNote createdAt).record, (awaitedNote createdAt).script) :=
    fun _ => rfl
  refine ⟨⟨rfl, fun returns => ?_⟩, fun returns => ?_⟩
  · obtain ⟨⟨time, -, same⟩, -⟩ :=
      (SqliteNotes.input_returned_iff NoteTables.rendered_empty rfl (wrote none)).mp returns
    cases same
  · obtain ⟨⟨time, clocked, same⟩, -⟩ :=
      (IdxdbNotes.input_returned_iff NoteTables.rendered_empty (wrote (some 5))).mp returns
    cases same
    cases clocked

end Sample

end MidenClient
