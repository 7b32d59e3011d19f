/-
This file compares the answers of the two stores to queries for input notes
(`sqlite-store/src/note/filters.rs` and `idxdb-store/src/ts/notes.ts`).

After a common sequence of writes the rows of both stores are the same but for the times. The
stores then agree on every filter, up to the order. IndexedDB returns the consumed notes by
the number of their state, refuses to count through notes that are given by ids, and takes three
of the states for all unspent ones.
-/

import MidenClient.Store.NoteContent

namespace MidenClient

open Std (ExtTreeMap)
open OrderedRead

/-- Where a note stands on chain: by the block it was consumed in and the position of the
transaction, an unknown one last. -/
def InputNoteRecord.chainPosition (note : InputNoteRecord) : WithBot ℕ ×ₗ WithTop ℕ :=
  toLex (note.state.consumedBlockHeight, note.state.consumedTxOrder)

/-- Where the note of a row stands on chain. -/
def InputNoteRow.chainPosition {time : Type} (row : InputNoteRow time) : WithBot ℕ ×ₗ WithTop ℕ :=
  toLex (row.consumedBlockHeight, row.consumedTxOrder)

/-- The order of the consumed notes is the one on chain, but for notes at the same position. -/
theorem InputNoteRow.chainPosition_le {time : Type} {first second : InputNoteRow time}
    (before : first.consumptionKey ≤ second.consumptionKey) :
    first.chainPosition ≤ second.chainPosition := by
  unfold consumptionKey chainPosition at *
  rw [Prod.Lex.toLex_le_toLex] at before ⊢
  dsimp only at before ⊢
  refine before.imp (fun earlier => earlier) fun later => ⟨later.1, ?_⟩
  have order := later.2
  rw [Prod.Lex.toLex_le_toLex] at order
  exact order.elim le_of_lt fun same => same.1.le

/-- A query for input notes. -/
inductive NoteQuery where
  | inputNotes (filter : NoteFilter)
  | inputNoteByOffset (filter : NoteFilter) (consumer : AccountId)
    (blockStart blockEnd : Option BlockNumber) (offset : ℕ)
  | unspentNullifiers
  deriving DecidableEq, Repr

section Queries

variable [NoteLibrary] [NoteCodecs]

open NoteCodecs

/-! ### Reading rows -/

/-- The note of a row as both stores read it, when they do. -/
def NoteTables.readRow (tables : NoteTables ℤ) (row : InputNoteRow ℤ) : Option ReadInputNote :=
  (tables.notesScripts[row.scriptRoot]?.bind fun script => (row.parseParts script).toOption).map
    fun parts => (⟨parts.1, some row.createdAt.toNat, parts.2.2⟩, parts.2.1)

/-- Every stored time can be read. -/
def NoteTables.TimesRead (tables : NoteTables ℤ) : Prop :=
  ∀ (noteId : NoteId) row, tables.inputNotes[noteId]? = some row → 0 ≤ row.createdAt

/-- What is read of a row: its note, with the columns by which it is queried. -/
structure Reads (tables : NoteTables ℤ) (row : InputNoteRow ℤ) (note : ReadInputNote) : Prop where
  parts : some note = tables.readRow row
  chainPosition : note.1.chainPosition = row.chainPosition
  nullifier : note.1.nullifier = row.nullifier

variable {tables : NoteTables ℤ}

/-- Both stores read the same note of a row. -/
theorem NoteTables.Rendered.exists_reads (rendered : tables.Rendered) (times : tables.TimesRead)
    {row : InputNoteRow ℤ} (stored : row ∈ OrderedMap.values tables.inputNotes) :
    ∃ note, SqliteNotes.parseInputNote tables row = .ok note ∧
      IdxdbNotes.parseInputNoteIdxdbObject tables row = .ok note ∧ Reads tables row note := by
  obtain ⟨noteId, found⟩ := OrderedMap.mem_values_iff.mp stored
  obtain ⟨note, createdAt, same, rfl⟩ := rendered.inputNotes noteId row found
  have readable : 0 ≤ createdAt := times noteId _ found
  obtain ⟨bytes, there⟩ := Option.ne_none_iff_exists'.mp (rendered.scriptsThere noteId _ found)
  obtain ⟨script, sameRoot, rfl⟩ := rendered.notesScripts _ bytes there
  have root : root script = note.details.recipient.scriptRoot := sameRoot
  refine ⟨({ note with createdAt := some createdAt.toNat }, script), ?_, ?_, ?_⟩
  · rw [SqliteNotes.parseInputNote_row there root, SqliteNotes.columnU64, if_pos readable]
    rfl
  · rw [IdxdbNotes.parseInputNoteIdxdbObject_row there root, IdxdbNotes.parseCreatedAt,
      if_pos readable]
    rfl
  · refine ⟨?_, rfl, rfl⟩
    have parts := note.parseParts_row createdAt script
    rw [root] at parts
    unfold NoteTables.readRow
    rw [there, Option.bind_some, parts]
    rfl

/-- What is read of rows is read of each of them. -/
theorem forall₂_reads {rows : List (InputNoteRow ℤ)} {notes : List ReadInputNote}
    (reads : List.Forall₂ (Reads tables) rows notes) :
    notes.map some = rows.map tables.readRow ∧
      notes.map (fun note => note.1.chainPosition) = rows.map InputNoteRow.chainPosition ∧
      notes.map (fun note => note.1.nullifier) = rows.map InputNoteRow.nullifier := by
  induction reads with
  | nil => exact ⟨rfl, rfl, rfl⟩
  | cons first _ inductionHypothesis =>
    obtain ⟨parts, positions, nullifiers⟩ := inductionHypothesis
    rw [List.map_cons, List.map_cons, List.map_cons, List.map_cons, List.map_cons, List.map_cons,
      parts, positions, nullifiers, first.parts, first.chainPosition, first.nullifier]
    exact ⟨rfl, rfl, rfl⟩

/-- The rows that a query selects are read as notes by SQLite. -/
theorem SqliteNotes.mapM_parseInputNote (rendered : tables.Rendered) (times : tables.TimesRead)
    {rows : List (InputNoteRow ℤ)}
    (stored : ∀ row ∈ rows, row ∈ OrderedMap.values tables.inputNotes) :
    ∃ notes, rows.mapM (parseInputNote tables) = .ok notes ∧
      List.Forall₂ (Reads tables) rows notes := by
  refine Fallible.mapM_forall₂ _ _ rows fun row listed => ?_
  obtain ⟨note, parsed, -, reads⟩ := rendered.exists_reads times (stored row listed)
  exact ⟨note, parsed, reads⟩

/-- The rows that a query selects are read as notes by IndexedDB. -/
theorem IdxdbNotes.mapM_parseInputNote (rendered : tables.Rendered) (times : tables.TimesRead)
    {rows : List (InputNoteRow ℤ)}
    (stored : ∀ row ∈ rows, row ∈ OrderedMap.values tables.inputNotes) :
    ∃ notes, rows.mapM (parseInputNoteIdxdbObject tables) = .ok notes ∧
      List.Forall₂ (Reads tables) rows notes := by
  refine Fallible.mapM_forall₂ _ _ rows fun row listed => ?_
  obtain ⟨note, -, parsed, reads⟩ := rendered.exists_reads times (stored row listed)
  exact ⟨note, parsed, reads⟩

/-! ### The same rows but for the times -/

/-- The IndexedDB tables have the rows of the SQLite tables with other times, and all times can be
read. -/
structure Mirrors (time : NoteId → ℤ) (sqlite idxdb : NoteTables ℤ) : Prop where
  inputNotes : ∀ noteId : NoteId, idxdb.inputNotes[noteId]? =
    sqlite.inputNotes[noteId]?.map fun row => row.withTime (time noteId)
  notesScripts : ∀ scriptRoot : Word,
    idxdb.notesScripts[scriptRoot]? = sqlite.notesScripts[scriptRoot]?
  sqliteTimes : sqlite.TimesRead
  idxdbTimes : idxdb.TimesRead

variable {time : NoteId → ℤ} {sqlite idxdb : NoteTables ℤ}

/-- The row as IndexedDB has it. -/
def retimed (time : NoteId → ℤ) (row : InputNoteRow ℤ) : InputNoteRow ℤ :=
  row.withTime (time row.id)

/-- The rows of IndexedDB are those of SQLite with other times, in the same order. -/
theorem Mirrors.values_eq (mirrors : Mirrors time sqlite idxdb) (rendered : sqlite.Rendered) :
    OrderedMap.values idxdb.inputNotes =
      (OrderedMap.values sqlite.inputNotes).map (retimed time) := by
  have tables : idxdb.inputNotes =
      sqlite.inputNotes.map fun noteId row => row.withTime (time noteId) := by
    refine ExtTreeMap.ext_getElem? fun noteId => ?_
    rw [mirrors.inputNotes, ExtTreeMap.getElem?_map]
  rw [tables]
  unfold OrderedMap.values
  rw [ExtTreeMap.toList_map, List.map_map, List.map_map]
  refine List.map_congr_left fun entry listed => ?_
  have found := ExtTreeMap.mem_toList_iff_getElem?_eq_some.mp listed
  show entry.2.withTime (time entry.1) = entry.2.withTime (time entry.2.id)
  rw [rendered.inputsKeyed _ _ found]

omit [NoteLibrary] in
/-- Nothing but the time changes in what is read. -/
theorem Mirrors.readRow_retimed (mirrors : Mirrors time sqlite idxdb) (row : InputNoteRow ℤ) :
    idxdb.readRow (retimed time row) = (sqlite.readRow row).map fun note =>
      ({ note.1 with createdAt := some (time row.id).toNat }, note.2) := by
  unfold NoteTables.readRow
  rw [show (retimed time row).scriptRoot = row.scriptRoot from rfl, mirrors.notesScripts,
    Option.map_map]
  rfl

/-! ### A common write -/

/-- The times of the new notes fit into signed integers. -/
def NoteWrite.TimesFit : NoteWrite → Prop
  | upsertInputNotes notes => ∀ note ∈ notes, note.record.createdAt.getD 0 < 2 ^ 63
  | applyNoteUpdates updates => ∀ (noteId : NoteId) update,
      updates.updates.inputNotes[noteId]? = some update → update.updateType = .insert →
        update.note.createdAt.getD 0 < 2 ^ 63

/-- A write that leaves the same notes in both stores: the times of the new notes fit and the clock
shows no negative time, a changed note is stored with its details, and the last script under a root
is that of a new note or the one that is stored. -/
structure CommonWrite (sqlite : NoteTables ℤ) (clock : NoteId → ℤ) (write : NoteWrite) : Prop where
  timesFit : write.TimesFit
  clock : ∀ noteId : NoteId, write.inputNote? noteId ≠ none → 0 ≤ clock noteId
  changed : ∀ (noteId : NoteId) (note : ReadInputNote),
    write.inputNote? noteId = some (.update, note) →
      ∃ (old : InputNoteRecord) (createdAt : ℤ),
        sqlite.inputNotes[noteId]? = some (old.row createdAt) ∧ old.details = note.1.details
  scripts : ∀ (scriptRoot : Word) (script : NoteScript),
    IdxdbNotes.lastScript scriptRoot write = some script →
      ((SqliteNotes.lastScript scriptRoot write).map noteScript.write).or
        sqlite.notesScripts[scriptRoot]? = some (noteScript.write script)

/-- Adding notes whose times fit is a common write. -/
theorem CommonWrite.upsertInputNotes {sqlite : NoteTables ℤ} {clock : NoteId → ℤ}
    {notes : List ScriptedNote} (fit : ∀ note ∈ notes, note.record.createdAt.getD 0 < 2 ^ 63)
    (clocked : ∀ noteId : NoteId, (NoteWrite.upsertInputNotes notes).inputNote? noteId ≠ none →
      0 ≤ clock noteId) : CommonWrite sqlite clock (.upsertInputNotes notes) where
  timesFit := fit
  clock := clocked
  changed := by
    intro noteId note wrote
    obtain ⟨_, -, same⟩ := Option.map_eq_some_iff.mp wrote
    cases same
  scripts := by
    intro scriptRoot script last
    rw [show SqliteNotes.lastScript scriptRoot (.upsertInputNotes notes) = some script from last]
    rfl

/-- SQLite writes notes whose times fit. -/
theorem SqliteNotes.perform_of_timesFit {write : NoteWrite} (fit : write.TimesFit)
    (tables : NoteTables ℤ) : ∃ after, perform tables write = .ok after := by
  cases write with
  | applyNoteUpdates updates => exact ⟨_, rfl⟩
  | upsertInputNotes notes =>
    show ∃ after, upsertInputNotes tables notes = .ok after
    induction notes generalizing tables with
    | nil => exact ⟨tables, rfl⟩
    | cons note rest inductionHypothesis =>
      have ⟨fits, othersFit⟩ := List.forall_mem_cons.mp fit
      have first : ∃ next, upsertInputNoteTx tables note = .ok next :=
        ⟨_, Fallible.bind_eq_ok.mpr ⟨_, toSql_eq_ok.mpr ⟨fits, rfl⟩, rfl⟩⟩
      obtain ⟨next, written⟩ := first
      obtain ⟨after, others⟩ := inductionHypothesis next othersFit
      refine ⟨after, ?_⟩
      unfold upsertInputNotes
      rw [List.foldlM_cons]
      exact Fallible.bind_eq_ok.mpr ⟨next, written, others⟩

/-- A new note has a time that fits. -/
theorem NoteWrite.TimesFit.inserted {write : NoteWrite} (fit : write.TimesFit) {noteId : NoteId}
    {note : ReadInputNote} (written : write.inputNote? noteId = some (.insert, note)) :
    note.1.createdAt.getD 0 < 2 ^ 63 := by
  cases write with
  | upsertInputNotes notes =>
    obtain ⟨chosen, found, same⟩ := Option.map_eq_some_iff.mp written
    cases same
    exact fit chosen (List.mem_reverse.mp (List.mem_of_find?_eq_some found))
  | applyNoteUpdates updates =>
    obtain ⟨update, found, same⟩ := Option.map_eq_some_iff.mp written
    obtain ⟨inserted, rfl⟩ := Prod.mk.inj same
    exact fit noteId update (Option.filter_eq_some_iff.mp found).1 inserted

/-- A script that is written with the new notes is one that is written at all. -/
theorem NoteWrite.lastScript_eq_none {write : NoteWrite} {scriptRoot : Word}
    (absent : IdxdbNotes.lastScript scriptRoot write = none) :
    SqliteNotes.lastScript scriptRoot write = none := by
  cases write with
  | upsertInputNotes notes => exact absent
  | applyNoteUpdates updates =>
    have missing := List.find?_eq_none.mp (Option.map_eq_none_iff.mp absent)
    refine Option.map_eq_none_iff.mpr (List.find?_eq_none.mpr fun update listed => ?_)
    refine missing update (List.mem_reverse.mpr (List.mem_filter.mpr ⟨?_, rfl⟩))
    exact List.mem_of_mem_filter (List.mem_reverse.mp listed)

/-- The row that a common write leaves in SQLite. -/
theorem CommonWrite.perform_inputNotes {clock : NoteId → ℤ} {write : NoteWrite}
    {after : NoteTables ℤ}
    (common : CommonWrite sqlite clock write)
    (written : SqliteNotes.perform sqlite write = .ok after) {noteId : NoteId}
    {updateType : NoteUpdateType} {note : ReadInputNote}
    (wrote : write.inputNote? noteId = some (updateType, note)) :
    ∃ createdAt : ℤ, after.inputNotes[noteId]? = some (note.1.row createdAt) ∧
      (sqlite.TimesRead → 0 ≤ createdAt) := by
  rw [SqliteNotes.perform_inputNotes written, wrote]
  cases updateType with
  | none => exact absurd rfl (NoteWrite.updateType_ne_none wrote)
  | insert =>
    refine ⟨_, rfl, fun _ => ?_⟩
    rw [SqliteNotes.asI64_of_lt (common.timesFit.inserted wrote)]
    exact Int.natCast_nonneg _
  | update =>
    obtain ⟨old, createdAt, stored, sameDetails⟩ := common.changed noteId note wrote
    refine ⟨createdAt, ?_, fun times => times noteId _ stored⟩
    show Option.map (SqliteNotes.serializeInputNoteState note.1).apply _ = _
    rw [stored, Option.map_some, SqliteNotes.apply_serializeInputNoteState]
    obtain ⟨⟨details, noteTime, state⟩, script⟩ := note
    cases sameDetails
    rfl

/-- After a common write the stores have the same rows again. -/
theorem Mirrors.perform {clock : NoteId → ℤ} {write : NoteWrite} {after : NoteTables ℤ}
    (mirrors : Mirrors time sqlite idxdb) (common : CommonWrite sqlite clock write)
    (written : SqliteNotes.perform sqlite write = .ok after) :
    Mirrors (fun noteId => if write.inputNote? noteId = none then time noteId else clock noteId)
      after (IdxdbNotes.perform clock idxdb write) := by
  have rows : ∀ noteId : NoteId, (IdxdbNotes.perform clock idxdb write).inputNotes[noteId]? =
      after.inputNotes[noteId]?.map fun row => row.withTime
        (if write.inputNote? noteId = none then time noteId else clock noteId) := by
    intro noteId
    rw [IdxdbNotes.perform_inputNotes]
    cases wrote : write.inputNote? noteId with
    | none =>
      rw [SqliteNotes.perform_inputNotes written, wrote]
      exact mirrors.inputNotes noteId
    | some note =>
      obtain ⟨createdAt, stored, -⟩ := common.perform_inputNotes written wrote
      rw [stored]
      rfl
  have readable : after.TimesRead := by
    intro noteId row found
    cases wrote : write.inputNote? noteId with
    | none =>
      rw [SqliteNotes.perform_inputNotes written, wrote] at found
      exact mirrors.sqliteTimes noteId row found
    | some note =>
      obtain ⟨createdAt, stored, kept⟩ := common.perform_inputNotes written wrote
      rw [stored] at found
      cases found
      exact kept mirrors.sqliteTimes
  refine ⟨rows, fun scriptRoot => ?_, readable, fun noteId row found => ?_⟩
  · rw [IdxdbNotes.perform_notesScripts, SqliteNotes.perform_notesScripts written,
      mirrors.notesScripts]
    cases last : IdxdbNotes.lastScript scriptRoot write with
    | none => rw [NoteWrite.lastScript_eq_none last]
    | some script =>
      rw [common.scripts scriptRoot script last]
      rfl
  · cases wrote : write.inputNote? noteId with
    | none =>
      rw [IdxdbNotes.perform_inputNotes, wrote] at found
      exact mirrors.idxdbTimes noteId row found
    | some note =>
      rw [IdxdbNotes.perform_inputNotes, wrote] at found
      cases found
      exact common.clock noteId (by rw [wrote]; exact Option.some_ne_none _)

/-! ### What the stores answer -/

/-- The notes come in their order on chain. -/
def InChainOrder (notes : List ReadInputNote) : Prop :=
  notes.Pairwise fun first second => first.1.chainPosition ≤ second.1.chainPosition

/-- Both stores answer the query, and their answers look the same. The consumed notes come in chain
order, and the nullifiers of unspent notes are those of the notes that are read as unspent. -/
def Alike (view : ReadInputNote → ReadInputNote) (sqlite idxdb : NoteTables ℤ) :
    NoteQuery → Prop
  | .inputNotes filter => ∃ first second, SqliteNotes.getInputNotes sqlite filter = .ok first ∧
      IdxdbNotes.getInputNotes idxdb filter = .ok second ∧
        (first.map view).Perm (second.map view) ∧
          (filter = .consumed → InChainOrder first ∧ InChainOrder second)
  | .inputNoteByOffset filter consumer blockStart blockEnd offset => ∃ first second,
      SqliteNotes.getInputNoteByOffset sqlite filter consumer blockStart blockEnd offset =
          .ok first ∧
        IdxdbNotes.getInputNoteByOffset idxdb filter consumer blockStart blockEnd offset =
          .ok second ∧
        first.map view = second.map view
  | .unspentNullifiers => ∃ first second, SqliteNotes.getInputNotes sqlite .unspent = .ok first ∧
      IdxdbNotes.getInputNotes idxdb .unspent = .ok second ∧
        (SqliteNotes.getUnspentInputNoteNullifiers sqlite).Perm
          (IdxdbNotes.getUnspentInputNoteNullifiers idxdb) ∧
        (SqliteNotes.getUnspentInputNoteNullifiers sqlite).Perm
          (first.map fun note => note.1.nullifier) ∧
        (IdxdbNotes.getUnspentInputNoteNullifiers idxdb).Perm
          (second.map fun note => note.1.nullifier)

/-- The stored notes and the query do not reach a place where the stores differ: the consumed notes
lie on chain in the order of their states and ids, notes are counted through by a filter on states,
and no stored note is expected, unverified or invalid when the unspent nullifiers are asked for. -/
def AnsweredAlike (sqlite : NoteTables ℤ) : NoteQuery → Prop
  | .inputNotes filter => filter = .consumed →
      ∀ first ∈ OrderedMap.values sqlite.inputNotes, ∀ second ∈ OrderedMap.values sqlite.inputNotes,
        SqliteNotes.noteFilterInputNotesCondition .consumed first = true →
          SqliteNotes.noteFilterInputNotesCondition .consumed second = true →
            first.stateKey < second.stateKey → first.chainPosition ≤ second.chainPosition
  | .inputNoteByOffset filter _ _ _ _ => (IdxdbNotes.inputNoteStateDiscriminants filter).isSome
  | .unspentNullifiers => ∀ row ∈ OrderedMap.values sqlite.inputNotes,
      row.stateDiscriminant ∉ [InputNoteState.stateExpected, InputNoteState.stateUnverified,
        InputNoteState.stateInvalid]

/-- The view does not see the difference of the times. -/
def SeesNoTimes (view : ReadInputNote → ReadInputNote) (time : NoteId → ℤ)
    (sqlite idxdb : NoteTables ℤ) : Prop :=
  ∀ row ∈ OrderedMap.values sqlite.inputNotes,
    (idxdb.readRow (retimed time row)).map view = (sqlite.readRow row).map view

variable {view : ReadInputNote → ReadInputNote}

/-- Rows with other times give notes that look the same. -/
theorem perm_map_view {rows others : List (InputNoteRow ℤ)} {first second : List ReadInputNote}
    (blind : SeesNoTimes view time sqlite idxdb)
    (stored : ∀ row ∈ rows, row ∈ OrderedMap.values sqlite.inputNotes)
    (same : others.Perm (rows.map (retimed time)))
    (firstReads : List.Forall₂ (Reads sqlite) rows first)
    (secondReads : List.Forall₂ (Reads idxdb) others second) :
    (first.map view).Perm (second.map view) := by
  refine (List.map_perm_map_iff (Option.some_injective _)).mp ?_
  have viewed : ∀ notes : List ReadInputNote, (notes.map view).map some =
      (notes.map some).map (Option.map view) := by
    intro notes
    rw [List.map_map, List.map_map]
    rfl
  rw [viewed, viewed, (forall₂_reads firstReads).1, (forall₂_reads secondReads).1, List.map_map,
    List.map_map]
  refine List.Perm.symm ((same.map _).trans ?_)
  rw [List.map_map]
  exact List.Perm.of_eq (List.map_congr_left fun row listed => blind row (stored row listed))

/-- The notes are in chain order when their rows are. -/
theorem inChainOrder_iff {rows : List (InputNoteRow ℤ)} {notes : List ReadInputNote}
    (reads : List.Forall₂ (Reads tables) rows notes) :
    InChainOrder notes ↔
      rows.Pairwise fun first second => first.chainPosition ≤ second.chainPosition := by
  unfold InChainOrder
  have positions := (forall₂_reads reads).2.1
  rw [← List.pairwise_map (f := fun note : ReadInputNote => note.1.chainPosition) (R := (· ≤ ·)),
    positions, List.pairwise_map]

/-! ### Filters -/

omit [NoteLibrary] [NoteCodecs] in
/-- The states of a filter are those that its condition accepts; no states are all states. -/
theorem IdxdbNotes.inputNoteStateDiscriminants_iff {filter : NoteFilter} {states : List ℕ}
    (known : inputNoteStateDiscriminants filter = some states) (row : InputNoteRow ℤ) :
    (states = [] ∨ row.stateDiscriminant ∈ states) ↔
      SqliteNotes.noteFilterInputNotesCondition filter row = true := by
  have listed : ∀ {state : ℕ} {others : List ℕ} {condition : Prop},
      (row.stateDiscriminant ∈ state :: others ↔ condition) →
        (state :: others = [] ∨ row.stateDiscriminant ∈ state :: others ↔ condition) :=
    fun same => (or_iff_right (List.cons_ne_nil _ _)).trans same
  cases filter with
  | list noteIds => cases known
  | unique noteId => cases known
  | nullifiers nullifiers => cases known
  | all =>
    cases known
    exact iff_of_true (Or.inl rfl) rfl
  | committed =>
    cases known
    exact listed (List.mem_singleton.trans decide_eq_true_iff.symm)
  | expected =>
    cases known
    exact listed (List.mem_singleton.trans decide_eq_true_iff.symm)
  | unverified =>
    cases known
    exact listed (List.mem_singleton.trans decide_eq_true_iff.symm)
  | consumed =>
    cases known
    exact listed decide_eq_true_iff.symm
  | processing =>
    cases known
    exact listed decide_eq_true_iff.symm
  | unspent =>
    cases known
    -- the states are listed in another order
    exact listed ((List.Perm.mem_iff (by decide)).trans decide_eq_true_iff.symm)

omit [NoteLibrary] [NoteCodecs] in
/-- A scan of the index of the states finds the rows with one of the states. -/
theorem IdxdbNotes.getInputNotesByStates_perm (tables : NoteTables ℤ) {filter : NoteFilter}
    {states : List ℕ} (known : inputNoteStateDiscriminants filter = some states) :
    (getInputNotesByStates tables states).Perm ((OrderedMap.values tables.inputNotes).filter
      (SqliteNotes.noteFilterInputNotesCondition filter)) := by
  have selects := inputNoteStateDiscriminants_iff known
  unfold getInputNotesByStates
  split
  · rename_i every
    refine List.Perm.of_eq (List.filter_eq_self.mpr fun row _ => ?_).symm
    exact (selects row).mp (Or.inl every)
  · rename_i some_
    refine (orderBy_perm _ _).trans (List.Perm.of_eq (List.filter_congr fun row _ => ?_))
    refine Bool.eq_iff_iff.mpr (decide_eq_true_iff.trans (Iff.trans ?_ (selects row)))
    exact (or_iff_right some_).symm

omit [NoteLibrary] [NoteCodecs] in
/-- IndexedDB finds the rows that pass the condition of SQLite. -/
theorem IdxdbNotes.toInputNotesPromise_perm (tables : NoteTables ℤ) (filter : NoteFilter) :
    (toInputNotesPromise tables filter).Perm ((OrderedMap.values tables.inputNotes).filter
      (SqliteNotes.noteFilterInputNotesCondition filter)) := by
  cases filter with
  | list noteIds => exact List.Perm.refl _
  | unique noteId => exact List.Perm.refl _
  | nullifiers nullifiers => exact orderBy_perm _ _
  | all => exact getInputNotesByStates_perm tables rfl
  | committed => exact getInputNotesByStates_perm tables rfl
  | consumed => exact getInputNotesByStates_perm tables rfl
  | expected => exact getInputNotesByStates_perm tables rfl
  | processing => exact getInputNotesByStates_perm tables rfl
  | unspent => exact getInputNotesByStates_perm tables rfl
  | unverified => exact getInputNotesByStates_perm tables rfl

omit [NoteLibrary] [NoteCodecs] in
/-- The columns of a row do not change with its time. -/
theorem condition_retimed (time : NoteId → ℤ) (filter : NoteFilter) (row : InputNoteRow ℤ) :
    SqliteNotes.noteFilterInputNotesCondition filter (retimed time row) =
      SqliteNotes.noteFilterInputNotesCondition filter row := by
  cases filter <;> rfl

/-- The rows that IndexedDB finds are those that SQLite finds. -/
theorem Mirrors.toInputNotesPromise_perm (mirrors : Mirrors time sqlite idxdb)
    (rendered : sqlite.Rendered) (filter : NoteFilter) :
    (IdxdbNotes.toInputNotesPromise idxdb filter).Perm
      (((OrderedMap.values sqlite.inputNotes).filter
        (SqliteNotes.noteFilterInputNotesCondition filter)).map (retimed time)) := by
  refine (IdxdbNotes.toInputNotesPromise_perm idxdb filter).trans (List.Perm.of_eq ?_)
  rw [mirrors.values_eq rendered, List.filter_map]
  exact congrArg (List.map _) (List.filter_congr fun row _ => condition_retimed time filter row)

omit [NoteLibrary] [NoteCodecs] in
theorem SqliteNotes.noteFilterToQueryInputNotes_perm (filter : NoteFilter)
    (rows : List (InputNoteRow ℤ)) : (noteFilterToQueryInputNotes filter rows).Perm
      (rows.filter (noteFilterInputNotesCondition filter)) := by
  unfold noteFilterToQueryInputNotes
  split
  · exact orderBy_perm _ _
  · exact List.Perm.refl _

/-- Rows under their ids are told apart by their states and ids, and by their consumption. -/
theorem NoteTables.Rendered.pairwise_stateKey (rendered : tables.Rendered) :
    (OrderedMap.values tables.inputNotes).Pairwise (·.stateKey ≠ ·.stateKey) := by
  refine (OrderedMap.pairwise_values rendered.inputsKeyed).imp fun different same => ?_
  exact different (congrArg (fun key => (ofLex key).2) same)

theorem NoteTables.Rendered.pairwise_consumptionKey (rendered : tables.Rendered) :
    (OrderedMap.values tables.inputNotes).Pairwise (·.consumptionKey ≠ ·.consumptionKey) := by
  refine (OrderedMap.pairwise_values rendered.inputsKeyed).imp fun different same => ?_
  exact different (congrArg (fun key => (ofLex (ofLex key).2).2) same)

/-- The consumed notes of IndexedDB, which come by state and id, lie in chain order just when their
rows do. -/
theorem Mirrors.pairwise_consumed_iff (mirrors : Mirrors time sqlite idxdb)
    (rendered : sqlite.Rendered) (renderedToo : idxdb.Rendered) :
    ((IdxdbNotes.toInputNotesPromise idxdb .consumed).Pairwise fun first second =>
      first.chainPosition ≤ second.chainPosition) ↔
        AnsweredAlike sqlite (.inputNotes .consumed) := by
  show (orderBy InputNoteRow.stateKey ((OrderedMap.values idxdb.inputNotes).filter
    (SqliteNotes.noteFilterInputNotesCondition .consumed))).Pairwise _ ↔ _
  rw [pairwise_orderBy_iff (renderedToo.pairwise_stateKey.filter _), mirrors.values_eq rendered]
  constructor
  · intro ordered _ first firstStored second secondStored firstConsumed secondConsumed before
    exact ordered (retimed time first)
      (List.mem_filter.mpr ⟨List.mem_map_of_mem firstStored, firstConsumed⟩) (retimed time second)
      (List.mem_filter.mpr ⟨List.mem_map_of_mem secondStored, secondConsumed⟩) before
  · intro ordered first firstListed second secondListed before
    obtain ⟨firstStored, firstConsumed⟩ := List.mem_filter.mp firstListed
    obtain ⟨secondStored, secondConsumed⟩ := List.mem_filter.mp secondListed
    obtain ⟨firstRow, firstKept, rfl⟩ := List.mem_map.mp firstStored
    obtain ⟨secondRow, secondKept, rfl⟩ := List.mem_map.mp secondStored
    exact ordered rfl firstRow firstKept secondRow secondKept firstConsumed secondConsumed before

/-- SQLite lists the consumed notes in chain order. -/
theorem SqliteNotes.inChainOrder_consumed {rows : List (InputNoteRow ℤ)}
    {notes : List ReadInputNote}
    (reads : List.Forall₂ (Reads tables) (noteFilterToQueryInputNotes .consumed rows) notes) :
    InChainOrder notes := by
  have ordered := orderBy_pairwise InputNoteRow.consumptionKey
    (rows.filter (noteFilterInputNotesCondition .consumed))
  exact (inChainOrder_iff reads).mpr (ordered.imp InputNoteRow.chainPosition_le)

theorem Mirrors.inputNotes_alike_iff (mirrors : Mirrors time sqlite idxdb)
    (rendered : sqlite.Rendered) (renderedToo : idxdb.Rendered)
    (blind : SeesNoTimes view time sqlite idxdb) (filter : NoteFilter) :
    Alike view sqlite idxdb (.inputNotes filter) ↔ AnsweredAlike sqlite (.inputNotes filter) := by
  have found := SqliteNotes.noteFilterToQueryInputNotes_perm filter
    (OrderedMap.values sqlite.inputNotes)
  have foundToo := IdxdbNotes.toInputNotesPromise_perm idxdb filter
  have stored : ∀ row ∈ SqliteNotes.noteFilterToQueryInputNotes filter
      (OrderedMap.values sqlite.inputNotes), row ∈ OrderedMap.values sqlite.inputNotes :=
    fun row listed => List.mem_of_mem_filter (found.mem_iff.mp listed)
  obtain ⟨first, firstRead, firstReads⟩ :=
    SqliteNotes.mapM_parseInputNote rendered mirrors.sqliteTimes stored
  obtain ⟨second, secondRead, secondReads⟩ :=
    IdxdbNotes.mapM_parseInputNote renderedToo mirrors.idxdbTimes
      fun row listed => List.mem_of_mem_filter (foundToo.mem_iff.mp listed)
  have same : (first.map view).Perm (second.map view) := by
    refine perm_map_view blind stored ?_ firstReads secondReads
    exact (mirrors.toInputNotesPromise_perm rendered filter).trans (found.symm.map _)
  constructor
  · rintro ⟨_, _, -, read, -, ordered⟩ consumed
    cases secondRead.symm.trans read
    subst consumed
    exact (mirrors.pairwise_consumed_iff rendered renderedToo).mp
      ((inChainOrder_iff secondReads).mp (ordered rfl).2) rfl
  · intro ordered
    refine ⟨first, second, firstRead, secondRead, same, ?_⟩
    rintro rfl
    exact ⟨SqliteNotes.inChainOrder_consumed firstReads, (inChainOrder_iff secondReads).mpr
      ((mirrors.pairwise_consumed_iff rendered renderedToo).mpr ordered)⟩

/-! ### Counting through consumed notes -/

/-- A row with the position of a transaction has the height of a block. -/
theorem NoteTables.Rendered.isSome_height (rendered : tables.Rendered) {row : InputNoteRow ℤ}
    (stored : row ∈ OrderedMap.values tables.inputNotes) (positioned : row.consumedTxOrder.isSome) :
    row.consumedBlockHeight.isSome := by
  obtain ⟨noteId, found⟩ := OrderedMap.mem_values_iff.mp stored
  obtain ⟨note, createdAt, -, rfl⟩ := rendered.inputNotes noteId row found
  change note.state.consumedTxOrder.isSome at positioned
  show note.state.consumedBlockHeight.isSome
  cases state : note.state <;> rw [state] at positioned <;> first | rfl | cases positioned

/-- The row passes the filter of IndexedDB and is in its index just when it passes the condition of
SQLite. -/
theorem NoteTables.Rendered.offsetFilter_iff (rendered : tables.Rendered) {filter : NoteFilter}
    {states : List ℕ} (known : IdxdbNotes.inputNoteStateDiscriminants filter = some states)
    (consumer : AccountId) (blockStart blockEnd : Option BlockNumber) {row : InputNoteRow ℤ}
    (stored : row ∈ OrderedMap.values tables.inputNotes) :
    (IdxdbNotes.offsetFilter states consumer blockStart blockEnd row &&
        (row.consumedBlockHeight.isSome && row.consumedTxOrder.isSome)) =
      SqliteNotes.offsetCondition filter consumer blockStart blockEnd row := by
  have selects := IdxdbNotes.inputNoteStateDiscriminants_iff known row
  have height := rendered.isSome_height stored
  unfold IdxdbNotes.offsetFilter SqliteNotes.offsetCondition
  rw [Bool.eq_iff_iff]
  simp only [Bool.and_eq_true, Bool.or_eq_true, decide_eq_true_eq]
  rw [selects]
  constructor
  · rintro ⟨⟨⟨⟨passes, consumed⟩, after⟩, before⟩, -, positioned⟩
    exact ⟨⟨⟨⟨passes, consumed⟩, positioned⟩, after⟩, before⟩
  · rintro ⟨⟨⟨⟨passes, consumed⟩, positioned⟩, after⟩, before⟩
    exact ⟨⟨⟨⟨passes, consumed⟩, after⟩, before⟩, height positioned, positioned⟩

/-- IndexedDB finds the same row at an offset as SQLite. -/
theorem Mirrors.head?_getInputNotesAtOffset (mirrors : Mirrors time sqlite idxdb)
    (rendered : sqlite.Rendered) {filter : NoteFilter} {states : List ℕ}
    (known : IdxdbNotes.inputNoteStateDiscriminants filter = some states) (consumer : AccountId)
    (blockStart blockEnd : Option BlockNumber) (offset : ℕ) :
    (IdxdbNotes.getInputNotesAtOffset idxdb states consumer blockStart blockEnd offset).head? =
      (SqliteNotes.noteFilterToQueryInputNoteByOffset filter consumer blockStart blockEnd offset
        (OrderedMap.values sqlite.inputNotes)).map (retimed time) := by
  unfold IdxdbNotes.getInputNotesAtOffset SqliteNotes.noteFilterToQueryInputNoteByOffset
  rw [List.head?_take, if_neg Nat.one_ne_zero, List.head?_drop, mirrors.values_eq rendered,
    List.filter_map, ← map_orderBy (retimed time) _ fun _ _ _ _ => Iff.rfl, List.filter_map,
    List.getElem?_map]
  refine congrArg (fun rows => Option.map (retimed time) rows[offset]?) ?_
  refine (filter_orderBy (rendered.pairwise_consumptionKey.filter _) _).trans
    (congrArg (orderBy _) ?_)
  rw [List.filter_filter]
  refine List.filter_congr fun row stored => ?_
  have same := rendered.offsetFilter_iff known consumer blockStart blockEnd stored
  exact same

theorem Mirrors.inputNoteByOffset_alike_iff (mirrors : Mirrors time sqlite idxdb)
    (rendered : sqlite.Rendered) (renderedToo : idxdb.Rendered)
    (blind : SeesNoTimes view time sqlite idxdb) (filter : NoteFilter) (consumer : AccountId)
    (blockStart blockEnd : Option BlockNumber) (offset : ℕ) :
    Alike view sqlite idxdb (.inputNoteByOffset filter consumer blockStart blockEnd offset) ↔
      AnsweredAlike sqlite (.inputNoteByOffset filter consumer blockStart blockEnd offset) := by
  constructor
  · rintro ⟨first, second, -, read, -⟩
    unfold IdxdbNotes.getInputNoteByOffset at read
    show (IdxdbNotes.inputNoteStateDiscriminants filter).isSome
    cases known : IdxdbNotes.inputNoteStateDiscriminants filter with
    | none =>
      rw [known] at read
      cases read
    | some states => rfl
  · intro stateBased
    obtain ⟨states, known⟩ := Option.isSome_iff_exists.mp stateBased
    have same := mirrors.head?_getInputNotesAtOffset rendered known consumer blockStart blockEnd
      offset
    show ∃ first second, SqliteNotes.getInputNoteByOffset sqlite filter consumer blockStart blockEnd
      offset = .ok first ∧ IdxdbNotes.getInputNoteByOffset idxdb filter consumer blockStart blockEnd
        offset = .ok second ∧ first.map view = second.map view
    unfold SqliteNotes.getInputNoteByOffset IdxdbNotes.getInputNoteByOffset
    rw [known]
    dsimp only
    rw [same]
    cases found : SqliteNotes.noteFilterToQueryInputNoteByOffset filter consumer blockStart blockEnd
      offset (OrderedMap.values sqlite.inputNotes) with
    | none => exact ⟨none, none, rfl, rfl, rfl⟩
    | some row =>
      have stored : row ∈ OrderedMap.values sqlite.inputNotes :=
        List.mem_of_mem_filter (mem_orderBy.mp (List.mem_of_getElem? found))
      have storedToo : retimed time row ∈ OrderedMap.values idxdb.inputNotes := by
        rw [mirrors.values_eq rendered]
        exact List.mem_map_of_mem stored
      obtain ⟨first, firstRead, -, firstReads⟩ := rendered.exists_reads mirrors.sqliteTimes stored
      obtain ⟨second, -, secondRead, secondReads⟩ :=
        renderedToo.exists_reads mirrors.idxdbTimes storedToo
      have seen := blind row stored
      rw [← firstReads.parts, ← secondReads.parts] at seen
      refine ⟨some first, some second, ?_, ?_, seen.symm⟩
      · show (SqliteNotes.parseInputNote sqlite row >>= _) = _
        rw [firstRead]
        rfl
      · show (IdxdbNotes.parseInputNoteIdxdbObject idxdb (retimed time row) >>= _) = _
        rw [secondRead]
        rfl

/-! ### Unspent notes -/

omit [NoteCodecs] [NoteLibrary] in
/-- A selection that is contained in another one and as long selects the same rows. -/
theorem filter_of_perm {α β : Type} {rows : List α} {view : α → β} {wide narrow : α → Bool}
    (contained : ∀ row ∈ rows, narrow row = true → wide row = true)
    (same : ((rows.filter wide).map view).Perm ((rows.filter narrow).map view)) :
    ∀ row ∈ rows, wide row = true → narrow row = true := by
  have both : (rows.filter wide).filter narrow = rows.filter narrow := by
    rw [List.filter_filter]
    refine List.filter_congr fun row listed => Bool.eq_iff_iff.mpr ?_
    rw [Bool.and_eq_true]
    exact ⟨fun selected => selected.1, fun selected => ⟨selected, contained row listed selected⟩⟩
  have lengths := same.length_eq
  rw [List.length_map, List.length_map, ← both] at lengths
  have every := List.length_filter_eq_length_iff.mp lengths.symm
  exact fun row listed selected => every row (List.mem_filter.mpr ⟨listed, selected⟩)

/-- The notes that SQLite reads for a filter have the nullifiers of the rows that pass it. -/
theorem SqliteNotes.exists_getInputNotes (rendered : tables.Rendered) (times : tables.TimesRead)
    (filter : NoteFilter) :
    ∃ notes, getInputNotes tables filter = .ok notes ∧
      (notes.map fun note => note.1.nullifier).Perm (((OrderedMap.values tables.inputNotes).filter
        (noteFilterInputNotesCondition filter)).map InputNoteRow.nullifier) := by
  have found := noteFilterToQueryInputNotes_perm filter (OrderedMap.values tables.inputNotes)
  obtain ⟨notes, read, reads⟩ := mapM_parseInputNote rendered times
    fun row listed => List.mem_of_mem_filter (found.mem_iff.mp listed)
  refine ⟨notes, read, ?_⟩
  rw [(forall₂_reads reads).2.2]
  exact found.map _

/-- The notes that IndexedDB reads for a filter have the nullifiers of the rows that pass it. -/
theorem IdxdbNotes.exists_getInputNotes (rendered : tables.Rendered) (times : tables.TimesRead)
    (filter : NoteFilter) :
    ∃ notes, getInputNotes tables filter = .ok notes ∧
      (notes.map fun note => note.1.nullifier).Perm (((OrderedMap.values tables.inputNotes).filter
        (SqliteNotes.noteFilterInputNotesCondition filter)).map InputNoteRow.nullifier) := by
  have found := toInputNotesPromise_perm tables filter
  obtain ⟨notes, read, reads⟩ := mapM_parseInputNote rendered times
    fun row listed => List.mem_of_mem_filter (found.mem_iff.mp listed)
  refine ⟨notes, read, ?_⟩
  rw [(forall₂_reads reads).2.2]
  exact found.map _

/-- The nullifiers of the rows whose state passes a test. -/
def rowNullifiers (rows : List (InputNoteRow ℤ)) (passes : ℕ → Bool) : List Nullifier :=
  (rows.filter fun row => passes row.stateDiscriminant).map InputNoteRow.nullifier

/-- Other times do not change them. -/
theorem Mirrors.rowNullifiers_values (mirrors : Mirrors time sqlite idxdb)
    (rendered : sqlite.Rendered) (passes : ℕ → Bool) :
    rowNullifiers (OrderedMap.values idxdb.inputNotes) passes =
      rowNullifiers (OrderedMap.values sqlite.inputNotes) passes := by
  unfold rowNullifiers
  rw [mirrors.values_eq rendered, List.filter_map, List.map_map]
  rfl

/-- The state of a stored note is one of nine. -/
theorem NoteTables.Rendered.stateDiscriminant_lt (rendered : tables.Rendered)
    {row : InputNoteRow ℤ} (stored : row ∈ OrderedMap.values tables.inputNotes) :
    row.stateDiscriminant < 9 := by
  obtain ⟨noteId, found⟩ := OrderedMap.mem_values_iff.mp stored
  obtain ⟨note, createdAt, -, rfl⟩ := rendered.inputNotes noteId row found
  show note.state.discriminant < 9
  cases note.state <;> exact of_decide_eq_true rfl

/-! The tests by which SQLite, the filter and IndexedDB select unspent notes. -/

open InputNoteState in
def notConsumed (state : ℕ) : Bool :=
  state ∉ [stateConsumedAuthenticatedLocal, stateConsumedUnauthenticatedLocal,
    stateConsumedExternal]

open InputNoteState in
def isUnspent (state : ℕ) : Bool :=
  state ∈ [stateExpected, stateProcessingAuthenticated, stateProcessingUnauthenticated,
    stateUnverified, stateCommitted]

def isOneOfThree (state : ℕ) : Bool :=
  state ∈ [2, 4, 5]

open InputNoteState in
theorem Mirrors.unspentNullifiers_alike_iff (mirrors : Mirrors time sqlite idxdb)
    (rendered : sqlite.Rendered) (renderedToo : idxdb.Rendered) :
    Alike view sqlite idxdb .unspentNullifiers ↔ AnsweredAlike sqlite .unspentNullifiers := by
  obtain ⟨first, firstRead, firstNullifiers⟩ :=
    SqliteNotes.exists_getInputNotes rendered mirrors.sqliteTimes .unspent
  obtain ⟨second, secondRead, secondNullifiers⟩ :=
    IdxdbNotes.exists_getInputNotes renderedToo mirrors.idxdbTimes .unspent
  have wide : SqliteNotes.getUnspentInputNoteNullifiers sqlite =
      rowNullifiers (OrderedMap.values sqlite.inputNotes) notConsumed := rfl
  have narrow : (IdxdbNotes.getUnspentInputNoteNullifiers idxdb).Perm
      (rowNullifiers (OrderedMap.values sqlite.inputNotes) isOneOfThree) := by
    rw [← mirrors.rowNullifiers_values rendered]
    exact (orderBy_perm _ _).map _
  constructor
  · rintro ⟨_, _, -, -, same, -, -⟩ row stored missed
    -- a note that only SQLite lists makes its list the longer one
    have three : ∀ state ∈ [2, 4, 5], notConsumed state = true := by decide
    have contained : ∀ state, isOneOfThree state = true → notConsumed state = true :=
      fun state chosen => three state (of_decide_eq_true chosen)
    have missing : ∀ state ∈ [stateExpected, stateUnverified, stateInvalid],
        notConsumed state = true ∧ isOneOfThree state ≠ true := by decide
    rw [wide] at same
    exact (missing _ missed).2 (filter_of_perm (fun row _ => contained row.stateDiscriminant)
      (same.trans narrow) row stored (missing _ missed).1)
  · intro absent
    have agree : ∀ state < 9, state ∉ [stateExpected, stateUnverified, stateInvalid] →
        notConsumed state = isOneOfThree state ∧ isUnspent state = isOneOfThree state := by decide
    have selected : ∀ passes : ℕ → Bool, (∀ row ∈ OrderedMap.values sqlite.inputNotes,
        passes row.stateDiscriminant = isOneOfThree row.stateDiscriminant) →
        rowNullifiers (OrderedMap.values sqlite.inputNotes) passes =
          rowNullifiers (OrderedMap.values sqlite.inputNotes) isOneOfThree :=
      fun passes same => congrArg (List.map _) (List.filter_congr same)
    have wideSame := selected notConsumed fun row stored =>
      (agree _ (rendered.stateDiscriminant_lt stored) (absent row stored)).1
    have unspentSame := selected isUnspent fun row stored =>
      (agree _ (rendered.stateDiscriminant_lt stored) (absent row stored)).2
    have firstSame : (first.map fun note => note.1.nullifier).Perm
        (rowNullifiers (OrderedMap.values sqlite.inputNotes) isOneOfThree) := by
      rw [← unspentSame]
      exact firstNullifiers
    have secondSame : (second.map fun note => note.1.nullifier).Perm
        (rowNullifiers (OrderedMap.values sqlite.inputNotes) isOneOfThree) := by
      rw [← unspentSame, ← mirrors.rowNullifiers_values rendered]
      exact secondNullifiers
    refine ⟨first, second, firstRead, secondRead, ?_, ?_, narrow.trans secondSame.symm⟩
    · rw [wide, wideSame]
      exact narrow.symm
    · rw [wide, wideSame]
      exact firstSame.symm

/-! ### Common runs -/

/-- The note without the time at which a store has it. -/
def withoutTime (note : ReadInputNote) : ReadInputNote :=
  ({ note.1 with createdAt := none }, note.2)

/-- Both stores have their notes with the same times. -/
def SameTimes (sqlite idxdb : NoteTables ℤ) : Prop :=
  ∀ noteId : NoteId, sqlite.inputNotes[noteId]?.map InputNoteRow.createdAt =
    idxdb.inputNotes[noteId]?.map InputNoteRow.createdAt

omit [NoteLibrary] in
theorem Mirrors.withoutTime_blind (mirrors : Mirrors time sqlite idxdb) :
    SeesNoTimes withoutTime time sqlite idxdb := by
  intro row _
  rw [mirrors.readRow_retimed, Option.map_map]
  rfl

theorem Mirrors.id_blind (mirrors : Mirrors time sqlite idxdb) (rendered : sqlite.Rendered)
    (same : SameTimes sqlite idxdb) : SeesNoTimes id time sqlite idxdb := by
  intro row stored
  obtain ⟨noteId, found⟩ := OrderedMap.mem_values_iff.mp stored
  have times := same noteId
  rw [mirrors.inputNotes, found] at times
  have sameTime : row.createdAt = time noteId := Option.some.inj times
  have kept : retimed time row = row := by
    unfold retimed
    rw [rendered.inputsKeyed noteId row found, ← sameTime]
    rfl
  rw [kept]
  unfold NoteTables.readRow
  rw [mirrors.notesScripts]

/-- Every call is a common write to the tables that the earlier calls leave. -/
def CommonRun (calls : List ((NoteId → ℤ) × NoteWrite)) : Prop :=
  ∀ earlier call later, calls = earlier ++ call :: later →
    CommonWrite (SqliteNotes.run .empty (earlier.map Prod.snd)) call.1 call.2

/-- After a common run the stores have the same rows. -/
theorem CommonRun.exists_mirrors {calls : List ((NoteId → ℤ) × NoteWrite)}
    (common : CommonRun calls) :
    ∃ time, Mirrors time (SqliteNotes.run .empty (calls.map Prod.snd))
      (IdxdbNotes.run .empty calls) := by
  induction calls using List.reverseRecOn with
  | nil =>
    have empty : ∀ noteId : NoteId,
        (NoteTables.empty : NoteTables ℤ).inputNotes[noteId]? = none :=
      fun _ => ExtTreeMap.getElem?_empty
    have times : (NoteTables.empty : NoteTables ℤ).TimesRead := by
      intro noteId row found
      rw [empty] at found
      cases found
    refine ⟨fun _ => 0, fun noteId => ?_, fun _ => rfl, times, times⟩
    show (NoteTables.empty : NoteTables ℤ).inputNotes[noteId]? =
      (NoteTables.empty : NoteTables ℤ).inputNotes[noteId]?.map _
    rw [empty]
    rfl
  | append_singleton earlier call inductionHypothesis =>
    have before : CommonRun earlier := by
      intro first other later split
      refine common first other (later ++ [call]) ?_
      rw [split, List.append_assoc]
      rfl
    obtain ⟨time, mirrors⟩ := inductionHypothesis before
    have last := common earlier call [] rfl
    obtain ⟨after, written⟩ := SqliteNotes.perform_of_timesFit last.timesFit
      (SqliteNotes.run .empty (earlier.map Prod.snd))
    have sqlite : SqliteNotes.run .empty ((earlier ++ [call]).map Prod.snd) = after := by
      rw [List.map_append]
      unfold SqliteNotes.run at written ⊢
      rw [List.foldl_append]
      show ((SqliteNotes.perform _ call.2).toOption).getD _ = after
      rw [written]
      rfl
    have idxdb : IdxdbNotes.run .empty (earlier ++ [call]) =
        IdxdbNotes.perform call.1 (IdxdbNotes.run .empty earlier) call.2 := by
      unfold IdxdbNotes.run
      rw [List.foldl_append]
      rfl
    rw [sqlite, idxdb]
    exact ⟨_, mirrors.perform last written⟩

/-- Each query is answered alike when the stored notes and the query reach no place where the stores
differ. -/
theorem Mirrors.alike_iff (mirrors : Mirrors time sqlite idxdb) (rendered : sqlite.Rendered)
    (renderedToo : idxdb.Rendered) (blind : SeesNoTimes view time sqlite idxdb)
    (query : NoteQuery) : Alike view sqlite idxdb query ↔ AnsweredAlike sqlite query := by
  cases query with
  | inputNotes filter => exact mirrors.inputNotes_alike_iff rendered renderedToo blind filter
  | inputNoteByOffset filter consumer blockStart blockEnd offset =>
    exact mirrors.inputNoteByOffset_alike_iff rendered renderedToo blind filter consumer blockStart
      blockEnd offset
  | unspentNullifiers => exact mirrors.unspentNullifiers_alike_iff rendered renderedToo

/-- After every common run the stores answer a query alike, but for the times of the notes, exactly
when neither the stored notes nor the query reach a place where the stores differ; and with the
times when the clock of IndexedDB showed the times that SQLite has. -/
theorem noteQueries_alike_iff {calls : List ((NoteId → ℤ) × NoteWrite)} (common : CommonRun calls)
    (query : NoteQuery) :
    (Alike withoutTime (SqliteNotes.run .empty (calls.map Prod.snd)) (IdxdbNotes.run .empty calls)
        query ↔
      AnsweredAlike (SqliteNotes.run .empty (calls.map Prod.snd)) query) ∧
    (SameTimes (SqliteNotes.run .empty (calls.map Prod.snd)) (IdxdbNotes.run .empty calls) →
      (Alike id (SqliteNotes.run .empty (calls.map Prod.snd)) (IdxdbNotes.run .empty calls) query ↔
        AnsweredAlike (SqliteNotes.run .empty (calls.map Prod.snd)) query)) := by
  obtain ⟨time, mirrors⟩ := common.exists_mirrors
  have rendered := SqliteNotes.run_rendered NoteTables.rendered_empty (calls.map Prod.snd)
  have renderedToo := IdxdbNotes.run_rendered NoteTables.rendered_empty calls
  refine ⟨mirrors.alike_iff rendered renderedToo mirrors.withoutTime_blind query, ?_⟩
  exact fun same => mirrors.alike_iff rendered renderedToo (mirrors.id_blind rendered same) query

end Queries

/-! ### Consumed notes, and a note that is expected -/

namespace Sample

/-- A note that was consumed in a block by somebody else. -/
def spentNote (serialNum height : ℕ) : ScriptedNote where
  record := ⟨⟨[], ⟨serialNum, 1, 1⟩⟩, some 5, .consumedExternal ⟨height, none⟩⟩
  script := (1, 9)
  sameRoot := rfl

/-- The calls of a client that only adds notes. -/
def addNotes (notes : List ScriptedNote) : List ((NoteId → ℤ) × NoteWrite) :=
  [(fun _ => 5, .upsertInputNotes notes)]

theorem commonRun_addNotes {notes : List ScriptedNote}
    (fit : ∀ note ∈ notes, note.record.createdAt.getD 0 < 2 ^ 63) : CommonRun (addNotes notes) := by
  intro earlier call later split
  cases earlier with
  | cons first rest =>
    have tails := (List.cons.inj split).2
    cases rest <;> cases tails
  | nil =>
    cases split
    exact .upsertInputNotes fit fun _ _ => (by decide : (0 : ℤ) ≤ 5)

/-- Two notes that were consumed in the order of their ids. -/
def spentNotes : List ScriptedNote :=
  [spentNote 3 4, spentNote 4 6]

/-- They are listed alike. -/
theorem noteQueries_alike_iff_spent :
    Alike withoutTime (SqliteNotes.run .empty ((addNotes spentNotes).map Prod.snd))
      (IdxdbNotes.run .empty (addNotes spentNotes)) (.inputNotes .consumed) := by
  refine (noteQueries_alike_iff (commonRun_addNotes (by decide)) _).1.mpr fun _ => ?_
  have rows : OrderedMap.values (SqliteNotes.run .empty
      ((addNotes spentNotes).map Prod.snd)).inputNotes =
        [(spentNote 3 4).record.row 5, (spentNote 4 6).record.row 5] := by decide +kernel
  rw [rows]
  decide +kernel

/-- Two notes that were consumed against the order of their ids. -/
def crossedNotes : List ScriptedNote :=
  [spentNote 3 6, spentNote 4 4]

/-- IndexedDB does not list the nullifier of a note that is expected, and it lists consumed notes
with the same kind of state by their ids. -/
theorem not_noteQueries_alike :
    (CommonRun (addNotes [awaitedNote (some 5)]) ∧
      ¬Alike withoutTime
        (SqliteNotes.run .empty ((addNotes [awaitedNote (some 5)]).map Prod.snd))
        (IdxdbNotes.run .empty (addNotes [awaitedNote (some 5)])) .unspentNullifiers) ∧
    CommonRun (addNotes crossedNotes) ∧
      ¬Alike withoutTime (SqliteNotes.run .empty ((addNotes crossedNotes).map Prod.snd))
        (IdxdbNotes.run .empty (addNotes crossedNotes)) (.inputNotes .consumed) := by
  refine ⟨⟨commonRun_addNotes (by decide), ?_⟩, commonRun_addNotes (by decide), ?_⟩
  · rintro ⟨first, second, -, -, same, -, -⟩
    exact absurd same.length_eq (by decide +kernel)
  · have common : CommonRun (addNotes crossedNotes) := commonRun_addNotes (by decide)
    obtain ⟨time, mirrors⟩ := common.exists_mirrors
    rw [mirrors.inputNotes_alike_iff (SqliteNotes.run_rendered NoteTables.rendered_empty _)
      (IdxdbNotes.run_rendered NoteTables.rendered_empty _) mirrors.withoutTime_blind]
    have rows : OrderedMap.values (SqliteNotes.run .empty
        ((addNotes crossedNotes).map Prod.snd)).inputNotes =
          [(spentNote 3 6).record.row 5, (spentNote 4 4).record.row 5] := by decide +kernel
    intro alike
    have ordered := alike rfl
    rw [rows] at ordered
    exact absurd ordered (by decide +kernel)

end Sample

end MidenClient
