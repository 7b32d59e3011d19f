/-
This file models the lazy reader of the notes that an account consumed
(`rust-client/src/note/note_reader.rs`) over either store, in sessions in which its calls are
interleaved with writes to the tables of notes.

The reader keeps nothing but a position, and asks the store for the note that stands there now.
What it returns is therefore the beginning of the list of the account's consumed notes just as
long as no write reaches into the part of the list that it has passed.
-/

import MidenClient.Library.Run
import MidenClient.Store.ChainData
import MidenClient.Store.NoteQueries

namespace MidenClient

open Std (ExtTreeMap)
open OrderedRead

/-! ### The reader -/

/-- A lazy iterator over the notes that an account consumed. -/
structure InputNoteReader where
  consumer : AccountId
  blockRange : Option (BlockNumber × BlockNumber)
  offset : UInt32
  deriving DecidableEq, Repr

namespace InputNoteReader

/-- A reader of all notes that the account consumed. -/
def new (consumer : AccountId) : InputNoteReader :=
  ⟨consumer, none, 0⟩

/-- Restricts the reader to the notes consumed in a range of blocks, ends included. -/
def inBlockRange (reader : InputNoteReader) (first last : BlockNumber) : InputNoteReader :=
  { reader with blockRange := some (first, last) }

/-- Back to the beginning. -/
def reset (reader : InputNoteReader) : InputNoteReader :=
  { reader with offset := 0 }

/-- `get_input_note_by_offset` of a store. -/
abbrev NoteAtOffset (ε Note : Type) := NoteFilter → AccountId → Option BlockNumber →
  Option BlockNumber → ℕ → Except ε (Option Note)

/-- Asks the store for the note at the position of the reader, which moves on when there is one. -/
def next {ε Note : Type} (reader : InputNoteReader) (getInputNoteByOffset : NoteAtOffset ε Note) :
    Except ε (Option Note × InputNoteReader) := do
  let note ← getInputNoteByOffset .consumed reader.consumer (reader.blockRange.map Prod.fst)
    (reader.blockRange.map Prod.snd) reader.offset.toNat
  return (note, if note.isSome then { reader with offset := reader.offset + 1 } else reader)

/-- The row of a note that the reader is to return. -/
def selects (reader : InputNoteReader) (row : InputNoteRow ℤ) : Bool :=
  SqliteNotes.offsetCondition .consumed reader.consumer (reader.blockRange.map Prod.fst)
    (reader.blockRange.map Prod.snd) row

/-- The rows of the notes that the reader is to return, in the order in which they were consumed. -/
def listed (reader : InputNoteReader) (tables : NoteTables ℤ) : List (InputNoteRow ℤ) :=
  orderBy InputNoteRow.consumptionKey
    ((OrderedMap.values tables.inputNotes).filter reader.selects)

end InputNoteReader

section Reading

variable [NoteLibrary] [NoteCodecs]

/-! ### The note at a position -/

/-- The query of a store that the reader makes. -/
def StoreKind.getInputNoteByOffset (kind : StoreKind) (tables : NoteTables ℤ) :
    InputNoteReader.NoteAtOffset NoteReadError ReadInputNote :=
  match kind with
  | .sqlite => SqliteNotes.getInputNoteByOffset tables
  | .idxdb => IdxdbNotes.getInputNoteByOffset tables

/-- Reads the note of a row. -/
def StoreKind.parseInputNote (kind : StoreKind) (tables : NoteTables ℤ) (row : InputNoteRow ℤ) :
    Except NoteReadError ReadInputNote :=
  match kind with
  | .sqlite => SqliteNotes.parseInputNote tables row
  | .idxdb => IdxdbNotes.parseInputNoteIdxdbObject tables row

/-- A write of notes. IndexedDB takes the times from its clock; in SQLite a write that fails
leaves the tables. -/
def StoreKind.writeNotes (kind : StoreKind) (tables : NoteTables ℤ) (clock : NoteId → ℤ)
    (write : NoteWrite) : NoteTables ℤ :=
  match kind with
  | .sqlite => (SqliteNotes.perform tables write).toOption.getD tables
  | .idxdb => IdxdbNotes.perform clock tables write

theorem StoreKind.writeNotes_rendered {kind : StoreKind} {tables : NoteTables ℤ}
    (rendered : tables.Rendered) (clock : NoteId → ℤ) (write : NoteWrite) :
    (kind.writeNotes tables clock write).Rendered := by
  cases kind with
  | idxdb => exact IdxdbNotes.perform_rendered clock write rendered
  | sqlite =>
    show ((SqliteNotes.perform tables write).toOption.getD tables).Rendered
    cases written : SqliteNotes.perform tables write with
    | error reason => exact rendered
    | ok after => exact SqliteNotes.perform_rendered rendered written

/-- The tables after some writes, each with the clock it is made at. -/
def StoreKind.notesAfter (kind : StoreKind) (calls : List ((NoteId → ℤ) × NoteWrite)) :
    NoteTables ℤ :=
  calls.foldl (fun tables call => kind.writeNotes tables call.1 call.2) .empty

theorem StoreKind.notesAfter_rendered (kind : StoreKind)
    (calls : List ((NoteId → ℤ) × NoteWrite)) : (kind.notesAfter calls).Rendered := by
  induction calls using List.reverseRecOn with
  | nil => exact NoteTables.rendered_empty
  | append_singleton earlier call inductionHypothesis =>
    unfold notesAfter at inductionHypothesis ⊢
    rw [List.foldl_append]
    exact writeNotes_rendered inductionHypothesis call.1 call.2

/-- The row that a note was read from, which has the time of the note. -/
def ReadInputNote.rowOf (note : ReadInputNote) : InputNoteRow ℤ :=
  note.1.row ((note.1.createdAt.getD 0 : ℕ) : ℤ)

omit [NoteLibrary] [NoteCodecs] in
theorem SqliteNotes.columnU64_eq_ok {value : ℤ} {column : ℕ} :
    SqliteNotes.columnU64 value = .ok column ↔ value = column := by
  unfold SqliteNotes.columnU64
  split
  · rename_i positive
    rw [Except.ok.injEq]
    omega
  · rename_i negative
    constructor
    · intro failed
      cases failed
    · intro same
      omega

/-- The note that is read of a row stands in this row. -/
theorem StoreKind.rowOf_parseInputNote {kind : StoreKind} {tables : NoteTables ℤ}
    (rendered : tables.Rendered) {row : InputNoteRow ℤ}
    (stored : row ∈ OrderedMap.values tables.inputNotes) {note : ReadInputNote}
    (parsed : kind.parseInputNote tables row = .ok note) : note.rowOf = row := by
  obtain ⟨noteId, found⟩ := OrderedMap.mem_values_iff.mp stored
  obtain ⟨record, createdAt, -, rfl⟩ := rendered.inputNotes noteId row found
  obtain ⟨script, sameRoot, there⟩ := SqliteNotes.exists_script rendered found
  have made : ∃ time : ℕ, createdAt = time ∧
      note = ({ record with createdAt := some time }, script) := by
    cases kind with
    | sqlite =>
      change SqliteNotes.parseInputNote tables _ = _ at parsed
      rw [SqliteNotes.parseInputNote_row there sameRoot] at parsed
      obtain ⟨time, read, same⟩ := Fallible.map_eq_ok.mp parsed
      exact ⟨time, SqliteNotes.columnU64_eq_ok.mp read, same.symm⟩
    | idxdb =>
      change IdxdbNotes.parseInputNoteIdxdbObject tables _ = _ at parsed
      rw [IdxdbNotes.parseInputNoteIdxdbObject_row there sameRoot] at parsed
      obtain ⟨time, read, same⟩ := Fallible.map_eq_ok.mp parsed
      exact ⟨time, IdxdbNotes.parseCreatedAt_eq_ok.mp read, same.symm⟩
  obtain ⟨time, rfl, rfl⟩ := made
  rfl

/-- IndexedDB reads the same rows for a position as SQLite. -/
theorem IdxdbNotes.getInputNotesAtOffset_eq {tables : NoteTables ℤ} (rendered : tables.Rendered)
    {filter : NoteFilter} {states : List ℕ}
    (known : inputNoteStateDiscriminants filter = some states) (consumer : AccountId)
    (blockStart blockEnd : Option BlockNumber) (offset : ℕ) :
    (getInputNotesAtOffset tables states consumer blockStart blockEnd offset).head? =
      SqliteNotes.noteFilterToQueryInputNoteByOffset filter consumer blockStart blockEnd offset
        (OrderedMap.values tables.inputNotes) := by
  unfold getInputNotesAtOffset SqliteNotes.noteFilterToQueryInputNoteByOffset
  rw [List.head?_take, if_neg Nat.one_ne_zero, List.head?_drop,
    filter_orderBy (rendered.pairwise_consumptionKey.filter _), List.filter_filter]
  refine congrArg (fun rows => (orderBy InputNoteRow.consumptionKey rows)[offset]?) ?_
  exact List.filter_congr fun row stored =>
    rendered.offsetFilter_iff known consumer blockStart blockEnd stored

/-- Both stores read the row at the position of the reader. -/
theorem StoreKind.getInputNoteByOffset_eq {kind : StoreKind} {tables : NoteTables ℤ}
    (rendered : tables.Rendered) (reader : InputNoteReader) (offset : ℕ) :
    kind.getInputNoteByOffset tables .consumed reader.consumer (reader.blockRange.map Prod.fst)
        (reader.blockRange.map Prod.snd) offset =
      (reader.listed tables)[offset]?.mapM (kind.parseInputNote tables) := by
  cases kind with
  | sqlite => rfl
  | idxdb =>
    show (IdxdbNotes.getInputNotesAtOffset tables _ _ _ _ offset).head?.mapM _ = _
    rw [IdxdbNotes.getInputNotesAtOffset_eq rendered
      (show IdxdbNotes.inputNoteStateDiscriminants .consumed = some _ from rfl)]
    rfl

/-! ### Sessions -/

/-- A reader over the tables of a store, with the notes that it returned since its last reset. -/
structure ReaderSession where
  tables : NoteTables ℤ
  reader : InputNoteReader
  returned : List ReadInputNote

/-- What happens in a session. -/
inductive ReaderEvent where
  | next
  | reset
  | write (clock : NoteId → ℤ) (write : NoteWrite)

namespace ReaderSession

/-- The call of `next`, with the answer that the reader gives. -/
def answer (kind : StoreKind) (session : ReaderSession) :
    Except NoteReadError (Option ReadInputNote × InputNoteReader) :=
  session.reader.next (kind.getInputNoteByOffset session.tables)

/-- One event. An error of the store leaves the reader as it is. -/
def perform (kind : StoreKind) (session : ReaderSession) : ReaderEvent → ReaderSession
  | .next =>
    match session.answer kind with
    | .ok (note, reader) =>
      { session with reader := reader, returned := session.returned ++ note.toList }
    | .error _ => session
  | .reset => { session with reader := session.reader.reset, returned := [] }
  | .write clock write => { session with tables := kind.writeNotes session.tables clock write }

/-- The rows that the reader is to return from the tables as they are now. -/
def listed (session : ReaderSession) : List (InputNoteRow ℤ) :=
  session.reader.listed session.tables

/-- The rows that the reader has passed. -/
def passed (session : ReaderSession) : List (InputNoteRow ℤ) :=
  session.returned.map ReadInputNote.rowOf

/-- The reader returned the notes in front of its position, in the order in which they were consumed
and each of them once. Once it answers that there are no more, it has returned all of them. -/
structure InStep (kind : StoreKind) (session : ReaderSession) : Prop where
  passed : session.listed.take session.returned.length = session.passed
  offset : session.reader.offset.toNat = session.returned.length
  inChainOrder : InChainOrder session.returned
  distinct : (session.returned.map fun note => note.1.id).Nodup
  ended : session.answer kind = .ok (none, session.reader) ↔ session.listed = session.passed

/-- The event does not take the reader out of step: the position has a successor when a note is
returned, and a write does not bring or take away a note of the account that is not behind what was
returned. -/
def Undisturbed (kind : StoreKind) (session : ReaderSession) : ReaderEvent → Prop
  | .next => ∀ note reader, session.answer kind = .ok (some note, reader) →
      session.reader.offset.toNat + 1 < 2 ^ 32
  | .reset => True
  | .write clock write => ∀ row, session.reader.selects row = true →
      isPassed InputNoteRow.consumptionKey session.passed row = true →
        (row ∈ OrderedMap.values (kind.writeNotes session.tables clock write).inputNotes ↔
          row ∈ OrderedMap.values session.tables.inputNotes)

/-! ### One event -/

/-- What a session keeps as long as it is in step. -/
structure Kept (session : ReaderSession) : Prop where
  rendered : session.tables.Rendered
  passed : session.listed.take session.returned.length = session.passed
  offset : session.reader.offset.toNat = session.returned.length

variable {kind : StoreKind} {session : ReaderSession}

theorem answer_eq (rendered : session.tables.Rendered) :
    session.answer kind =
      (session.listed[session.reader.offset.toNat]?.mapM
          (kind.parseInputNote session.tables)).map fun note =>
        (note, if note.isSome then { session.reader with offset := session.reader.offset + 1 }
          else session.reader) := by
  unfold answer InputNoteReader.next
  rw [StoreKind.getInputNoteByOffset_eq rendered]
  rfl

/-- Behind the end of the list there is no note. -/
theorem answer_of_none (rendered : session.tables.Rendered)
    (absent : session.listed[session.reader.offset.toNat]? = none) :
    session.answer kind = .ok (none, session.reader) := by
  rw [answer_eq rendered, absent]
  rfl

theorem answer_of_ok (rendered : session.tables.Rendered) {row : InputNoteRow ℤ}
    (there : session.listed[session.reader.offset.toNat]? = some row) {note : ReadInputNote}
    (parsed : kind.parseInputNote session.tables row = .ok note) :
    session.answer kind =
      .ok (some note, { session.reader with offset := session.reader.offset + 1 }) := by
  rw [answer_eq rendered, there, Option.mapM_some, parsed]
  rfl

theorem answer_of_error (rendered : session.tables.Rendered) {row : InputNoteRow ℤ}
    (there : session.listed[session.reader.offset.toNat]? = some row) {reason : NoteReadError}
    (failed : kind.parseInputNote session.tables row = .error reason) :
    session.answer kind = .error reason := by
  rw [answer_eq rendered, there, Option.mapM_some, failed]
  rfl

/-- The reader answers that there are no more notes just at the end of the list. -/
theorem answer_eq_none_iff (rendered : session.tables.Rendered) :
    session.answer kind = .ok (none, session.reader) ↔
      session.listed[session.reader.offset.toNat]? = none := by
  refine ⟨fun answered => ?_, answer_of_none rendered⟩
  cases there : session.listed[session.reader.offset.toNat]? with
  | none => rfl
  | some row =>
    cases parsed : kind.parseInputNote session.tables row with
    | error reason =>
      rw [answer_of_error rendered there parsed] at answered
      cases answered
    | ok note =>
      rw [answer_of_ok rendered there parsed] at answered
      cases answered

omit [NoteLibrary] in
theorem mem_values_of_mem_listed {row : InputNoteRow ℤ} (member : row ∈ session.listed) :
    row ∈ OrderedMap.values session.tables.inputNotes :=
  List.mem_of_mem_filter (mem_orderBy.mp member)

theorem pairwise_listed (rendered : session.tables.Rendered) :
    session.listed.Pairwise (·.consumptionKey < ·.consumptionKey) :=
  orderBy_pairwise_lt (rendered.pairwise_consumptionKey.filter _)

theorem pairwise_listed_id (rendered : session.tables.Rendered) :
    session.listed.Pairwise (·.id ≠ ·.id) := by
  refine ((orderBy_perm _ _).pairwise_iff fun different => different.symm).mpr ?_
  exact (OrderedMap.pairwise_values rendered.inputsKeyed).filter _

/-- What was returned from the front of the list is in step. -/
theorem Kept.inStep (kept : session.Kept) : session.InStep kind where
  passed := kept.passed
  offset := kept.offset
  inChainOrder := by
    have rows : session.passed.Pairwise fun first second =>
        first.chainPosition ≤ second.chainPosition := by
      rw [← kept.passed]
      refine ((pairwise_listed kept.rendered).take).imp fun below => ?_
      exact InputNoteRow.chainPosition_le below.le
    exact (List.pairwise_map (f := ReadInputNote.rowOf)).mp rows
  distinct := by
    have rows : session.passed.Pairwise (·.id ≠ ·.id) := by
      rw [← kept.passed]
      exact (pairwise_listed_id kept.rendered).take
    exact List.pairwise_map.mpr ((List.pairwise_map (f := ReadInputNote.rowOf)).mp rows)
  ended := by
    rw [answer_eq_none_iff kept.rendered, List.getElem?_eq_none_iff, kept.offset, ← kept.passed]
    constructor
    · exact fun atEnd => (List.take_of_length_le atEnd).symm
    · intro whole
      exact List.take_eq_self_iff _ |>.mp whole.symm

omit [NoteLibrary] [NoteCodecs] in
theorem successor_toNat {offset : UInt32} (room : offset.toNat + 1 < 2 ^ 32) :
    (offset + 1).toNat = offset.toNat + 1 := by
  rw [UInt32.toNat_add]
  exact Nat.mod_eq_of_lt room

omit [NoteLibrary] [NoteCodecs] in
theorem lt_of_successor_toNat {offset : UInt32} (same : (offset + 1).toNat = offset.toNat + 1) :
    offset.toNat + 1 < 2 ^ 32 := by
  rw [← same]
  exact (offset + 1).toNat_lt

/-- The session after a note was returned. -/
def moved (session : ReaderSession) (note : ReadInputNote) : ReaderSession where
  tables := session.tables
  reader := { session.reader with offset := session.reader.offset + 1 }
  returned := session.returned ++ [note]

/-- A call of `next` returns the note at the position, or changes nothing. -/
theorem perform_next_cases (kind : StoreKind) (rendered : session.tables.Rendered) :
    ((∀ note reader, session.answer kind ≠ .ok (some note, reader)) ∧
        session.perform kind .next = session) ∨
      ∃ row note, session.listed[session.reader.offset.toNat]? = some row ∧ note.rowOf = row ∧
        session.answer kind = .ok (some note, (session.moved note).reader) ∧
          session.perform kind .next = session.moved note := by
  unfold perform
  cases there : session.listed[session.reader.offset.toNat]? with
  | none =>
    have answered : session.answer kind = _ := answer_of_none rendered there
    refine Or.inl ⟨fun note reader other => ?_, ?_⟩
    · rw [answered] at other
      cases other
    · rw [answered]
      show { session with returned := session.returned ++ [] } = session
      rw [List.append_nil]
  | some row =>
    cases parsed : kind.parseInputNote session.tables row with
    | error reason =>
      have answered := answer_of_error rendered there parsed
      refine Or.inl ⟨fun note reader other => ?_, ?_⟩
      · rw [answered] at other
        cases other
      · rw [answered]
    | ok note =>
      have stored := mem_values_of_mem_listed (List.mem_of_getElem? there)
      have answered := answer_of_ok rendered there parsed
      refine Or.inr ⟨row, note, rfl, kind.rowOf_parseInputNote rendered stored parsed, answered, ?_⟩
      rw [answered]
      rfl

theorem Kept.moved (kept : session.Kept) {note : ReadInputNote}
    (there : session.listed[session.reader.offset.toNat]? = some note.rowOf)
    (room : session.reader.offset.toNat + 1 < 2 ^ 32) : (session.moved note).Kept where
  rendered := kept.rendered
  passed := by
    rw [kept.offset] at there
    show session.listed.take (session.returned ++ [note]).length =
      (session.returned ++ [note]).map ReadInputNote.rowOf
    rw [List.length_append, List.length_singleton, List.take_add_one, there, List.map_append]
    exact congrArg (· ++ [note.rowOf]) kept.passed
  offset := by
    show (session.reader.offset + 1).toNat = (session.returned ++ [note]).length
    rw [successor_toNat room, kept.offset, List.length_append, List.length_singleton]

/-- A call of `next` leaves the reader in step unless it wraps the position. -/
theorem perform_next_inStep_iff (kept : session.Kept) :
    (session.perform kind .next).InStep kind ↔ session.Undisturbed kind .next := by
  obtain ⟨silent, same⟩ | ⟨row, note, there, rfl, answered, same⟩ :=
    perform_next_cases kind kept.rendered
  · rw [same]
    exact iff_of_true kept.inStep fun note reader answered => absurd answered (silent note reader)
  · rw [same]
    constructor
    · intro inStep _ _ _
      have offset : (session.reader.offset + 1).toNat = (session.returned ++ [note]).length :=
        inStep.offset
      rw [List.length_append, List.length_singleton, ← kept.offset] at offset
      exact lt_of_successor_toNat offset
    · intro room
      exact (kept.moved there (room note _ answered)).inStep

theorem perform_next_kept (kept : session.Kept) (undisturbed : session.Undisturbed kind .next) :
    (session.perform kind .next).Kept := by
  obtain ⟨-, same⟩ | ⟨row, note, there, rfl, answered, same⟩ :=
    perform_next_cases kind kept.rendered
  · rw [same]
    exact kept
  · rw [same]
    exact kept.moved there (undisturbed note _ answered)

theorem Kept.reset (kept : session.Kept) : (session.perform kind .reset).Kept where
  rendered := kept.rendered
  passed := List.take_zero
  offset := rfl

/-- What was passed stays the beginning of the list just when the write is behind it. -/
theorem take_listed_write_iff (kept : session.Kept) (clock : NoteId → ℤ) (write : NoteWrite) :
    (session.perform kind (.write clock write)).listed.take session.returned.length =
        session.passed ↔ session.Undisturbed kind (.write clock write) := by
  have prefixed : session.passed <+: session.listed := by
    rw [← kept.passed]
    exact List.take_prefix _ _
  have distinct := kept.rendered.pairwise_consumptionKey.filter session.reader.selects
  have after := kind.writeNotes_rendered kept.rendered clock write
  have distinctAfter := after.pairwise_consumptionKey.filter session.reader.selects
  have exactly := take_orderBy_eq_iff distinct distinctAfter prefixed
  rw [show session.passed.length = session.returned.length from List.length_map _] at exactly
  refine exactly.trans (forall_congr' fun row => ?_)
  rw [List.mem_filter, List.mem_filter, and_congr_left_iff]
  exact forall_comm

theorem perform_write_inStep_iff (kept : session.Kept) (clock : NoteId → ℤ) (write : NoteWrite) :
    (session.perform kind (.write clock write)).InStep kind ↔
      session.Undisturbed kind (.write clock write) := by
  rw [← take_listed_write_iff kept]
  refine ⟨InStep.passed, fun passed => Kept.inStep ⟨?_, passed, kept.offset⟩⟩
  exact kind.writeNotes_rendered kept.rendered clock write

theorem perform_write_kept (kept : session.Kept) {clock : NoteId → ℤ} {write : NoteWrite}
    (undisturbed : session.Undisturbed kind (.write clock write)) :
    (session.perform kind (.write clock write)).Kept where
  rendered := kind.writeNotes_rendered kept.rendered clock write
  passed := (take_listed_write_iff kept clock write).mpr undisturbed
  offset := kept.offset

/-! ### Whole sessions -/

/-- A session with a new reader, after some writes. -/
def start (kind : StoreKind) (earlier : List ((NoteId → ℤ) × NoteWrite)) (consumer : AccountId)
    (blockRange : Option (BlockNumber × BlockNumber)) : ReaderSession where
  tables := kind.notesAfter earlier
  reader := { InputNoteReader.new consumer with blockRange := blockRange }
  returned := []

theorem start_kept (kind : StoreKind) (earlier : List ((NoteId → ℤ) × NoteWrite))
    (consumer : AccountId) (blockRange : Option (BlockNumber × BlockNumber)) :
    (start kind earlier consumer blockRange).Kept where
  rendered := kind.notesAfter_rendered earlier
  passed := List.take_zero
  offset := rfl

theorem perform_inStep_iff (kept : session.Kept) (event : ReaderEvent) :
    (session.perform kind event).InStep kind ↔ session.Undisturbed kind event := by
  cases event with
  | next => exact perform_next_inStep_iff kept
  | reset => exact iff_of_true kept.reset.inStep trivial
  | write clock write => exact perform_write_inStep_iff kept clock write

theorem perform_kept (kept : session.Kept) {event : ReaderEvent}
    (undisturbed : session.Undisturbed kind event) : (session.perform kind event).Kept := by
  cases event with
  | next => exact perform_next_kept kept undisturbed
  | reset => exact kept.reset
  | write clock write => exact perform_write_kept kept undisturbed

/-- A write touches no note that was returned, and the notes of the account among those that it
writes were consumed later on chain than all that were returned. -/
def WritesLater (kind : StoreKind) (session : ReaderSession) : ReaderEvent → Prop
  | .next => session.Undisturbed kind .next
  | .reset => True
  | .write clock write => ∀ noteId : NoteId, write.inputNote? noteId ≠ none →
      (∀ note ∈ session.returned, note.1.id ≠ noteId) ∧
        ∀ row, (kind.writeNotes session.tables clock write).inputNotes[noteId]? = some row →
          session.reader.selects row = true →
            ∀ note ∈ session.returned, note.1.chainPosition < row.chainPosition

theorem writeNotes_of_untouched {tables : NoteTables ℤ} (clock : NoteId → ℤ)
    {write : NoteWrite} {noteId : NoteId} (untouched : write.inputNote? noteId = none) :
    (kind.writeNotes tables clock write).inputNotes[noteId]? = tables.inputNotes[noteId]? := by
  cases kind with
  | idxdb =>
    show (IdxdbNotes.perform clock tables write).inputNotes[noteId]? = _
    rw [IdxdbNotes.perform_inputNotes, untouched]
    rfl
  | sqlite =>
    show ((SqliteNotes.perform tables write).toOption.getD tables).inputNotes[noteId]? = _
    cases written : SqliteNotes.perform tables write with
    | error reason => rfl
    | ok after =>
      show after.inputNotes[noteId]? = _
      rw [SqliteNotes.perform_inputNotes written, untouched]
      rfl

/-- A row of the table stands under its id. -/
theorem mem_values_iff_getElem? {tables : NoteTables ℤ} (rendered : tables.Rendered)
    {row : InputNoteRow ℤ} :
    row ∈ OrderedMap.values tables.inputNotes ↔ tables.inputNotes[row.id]? = some row := by
  rw [OrderedMap.mem_values_iff]
  constructor
  · rintro ⟨noteId, found⟩
    rwa [rendered.inputsKeyed noteId row found]
  · exact fun found => ⟨row.id, found⟩

/-- A row that is listed and does not come after all that was passed is one that was passed. -/
theorem Kept.mem_passed (kept : session.Kept) {row : InputNoteRow ℤ}
    (stored : row ∈ OrderedMap.values session.tables.inputNotes)
    (selected : session.reader.selects row = true)
    (chosen : isPassed InputNoteRow.consumptionKey session.passed row = true) :
    row ∈ session.passed := by
  have prefixed : session.passed <+: session.listed := by
    rw [← kept.passed]
    exact List.take_prefix _ _
  rw [← filter_isPassed (pairwise_listed kept.rendered) prefixed]
  exact List.mem_filter.mpr ⟨mem_orderBy.mpr (List.mem_filter.mpr ⟨stored, selected⟩), chosen⟩

/-- A write of later notes does not reach into what was returned. -/
theorem undisturbed_of_writesLater (kept : session.Kept) {event : ReaderEvent}
    (later : session.WritesLater kind event) : session.Undisturbed kind event := by
  cases event with
  | next => exact later
  | reset => trivial
  | write clock write =>
    intro row selected chosen
    have after := kind.writeNotes_rendered kept.rendered clock write
    rw [mem_values_iff_getElem? after, mem_values_iff_getElem? kept.rendered]
    by_cases untouched : write.inputNote? row.id = none
    · rw [writeNotes_of_untouched clock untouched]
    · obtain ⟨others, writtenLater⟩ := later row.id untouched
      constructor
      · intro written
        obtain ⟨last, returned, bound⟩ := isPassed_iff.mp chosen
        obtain ⟨note, listed, rfl⟩ := List.mem_map.mp returned
        have below := InputNoteRow.chainPosition_le bound
        exact absurd (writtenLater row written selected note listed) below.not_gt
      · intro stored
        have passed := kept.mem_passed ((mem_values_iff_getElem? kept.rendered).mpr stored)
          selected chosen
        obtain ⟨note, listed, rfl⟩ := List.mem_map.mp passed
        exact absurd rfl (others note listed)

end ReaderSession

end Reading

/-! ### Two notes of one account -/

namespace Sample

open ReaderSession

/-- A note that an account consumed in a block. -/
def ownNote (serialNum height : ℕ) : ScriptedNote where
  record := ⟨⟨[], ⟨serialNum, 1, 1⟩⟩, some 5,
    .consumedUnauthenticatedLocal ⟨⟨0, .isPrivate, 5, 0⟩, height, ⟨none, 7, 1⟩, some 0⟩⟩
  script := (1, 10)
  sameRoot := rfl

/-- The reader is asked for a note, a later note is consumed, and the reader is asked again. -/
def readerEvents : List ReaderEvent :=
  [.next, .write (fun _ => 5) (.upsertInputNotes [ownNote 3 9]), .next, .next]

/-- A session with one note, whose id is above the id of the later one. -/
def readerStart : ReaderSession :=
  start .sqlite [(fun _ => 5, .upsertInputNotes [ownNote 4 6])] 7 none

/-- The state in which the later note is consumed. -/
def readerBetween : ReaderSession :=
  readerStart.perform .sqlite .next

/-- The row of the later note, and what was returned before it was written. -/
theorem readerBetween_rows :
    (StoreKind.sqlite.writeNotes readerBetween.tables (fun _ => 5)
        (.upsertInputNotes [ownNote 3 9])).inputNotes[(ownNote 3 9).record.id]? =
      some ((ownNote 3 9).record.row 5) ∧
    readerBetween.returned.map Prod.fst = [(ownNote 4 6).record] := by
  decide +kernel

end Sample

end MidenClient
