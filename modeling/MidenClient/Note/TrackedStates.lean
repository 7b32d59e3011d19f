/-
This file shows that a note tracker changes nothing but the states of the notes it was built with
(`rust-client/src/note/note_update_tracker.rs`).

The events on a record take over a next state or leave the record, and the only other records that
come into the tracker are new ones, which are marked as such. So a note that is reported as changed
is one the tracker was built with, in another state.
-/

import MidenClient.Note.TrackerCalls

namespace MidenClient

open Std (ExtTreeMap)
open Fallible

namespace InputNoteRecord

/-- The record is the other one in another state. -/
def DiffersInState (record other : InputNoteRecord) : Prop :=
  record = { other with state := record.state }

theorem DiffersInState.details {record other : InputNoteRecord}
    (differs : record.DiffersInState other) : record.details = other.details := by
  rw [DiffersInState] at differs
  rw [differs]

theorem DiffersInState.createdAt {record other : InputNoteRecord}
    (differs : record.DiffersInState other) : record.createdAt = other.createdAt := by
  rw [DiffersInState] at differs
  rw [differs]

theorem DiffersInState.trans {first second third : InputNoteRecord}
    (one : first.DiffersInState second) (two : second.DiffersInState third) :
    first.DiffersInState third := by
  rw [DiffersInState, two] at one
  exact one

end InputNoteRecord

namespace OutputNoteRecord

variable [NoteLibrary]

/-- The record is the other one in another state, with the same nullifier. -/
structure DiffersInState (record other : OutputNoteRecord) : Prop where
  rest : record = { other with state := record.state }
  nullifier : record.nullifier = other.nullifier

theorem DiffersInState.trans {first second third : OutputNoteRecord}
    (one : first.DiffersInState second) (two : second.DiffersInState third) :
    first.DiffersInState third := by
  refine ⟨?_, one.nullifier.trans two.nullifier⟩
  have same := one.rest
  rw [two.rest] at same
  exact same

end OutputNoteRecord

/-- The event gives the record in another state. -/
def ChangesState {record : Type} (differs : record → record → Prop)
    (event : record → Except ClientError record) : Prop :=
  ∀ before after, event before = .ok after → differs after before

theorem differsInState_of_recordEvent {record changed : InputNoteRecord}
    {result : Except NoteRecordError (Option InputNoteState)}
    (done : recordEvent (record.advance result) = .ok changed) : changed.DiffersInState record := by
  obtain ⟨flag, advanced⟩ := recordEvent_eq_ok.mp done
  rcases InputNoteRecord.advance_eq_ok advanced with ⟨next, _, rfl⟩ | ⟨_, rfl⟩ <;> rfl

theorem OutputNoteRecord.rest_of_recordEvent {record changed : OutputNoteRecord}
    {result : Except NoteRecordError (Option OutputNoteState)}
    (done : recordEvent (record.advance result) = .ok changed) :
    changed = { record with state := changed.state } := by
  obtain ⟨flag, advanced⟩ := recordEvent_eq_ok.mp done
  rcases result with error | _ | next <;> cases advanced <;> rfl

namespace NoteUpdateTracker

/-! ### The events -/

theorem receiveInclusion_changesState (committedNote : CommittedNote) :
    ChangesState InputNoteRecord.DiffersInState (receiveInclusion committedNote) := by
  intro before after done
  unfold receiveInclusion at done
  split at done
  · cases done
  · exact differsInState_of_recordEvent done

variable [NoteLibrary]

theorem blockHeaderReceived_changesState (blockHeader : BlockHeader) :
    ChangesState InputNoteRecord.DiffersInState
      (fun record => recordEvent (record.blockHeaderReceived blockHeader)) :=
  fun _ _ done => differsInState_of_recordEvent done

omit [NoteLibrary] in
theorem setConsumedTxOrder_changesState (order : Option ℕ) :
    ChangesState InputNoteRecord.DiffersInState
      (fun record => .ok (record.setConsumedTxOrder order)) := by
  rintro before after ⟨⟩
  rfl

theorem receiveNullifier_changesState (nullifierUpdate : NullifierUpdate)
    (committedTransactions : List TransactionRecord) :
    ChangesState InputNoteRecord.DiffersInState
      (receiveNullifier nullifierUpdate committedTransactions) := by
  intro before after done
  unfold receiveNullifier at done
  split at done
  · split at done
    · exact differsInState_of_recordEvent done
    · cases done
      rfl
    · cases done
      rfl
  · unfold InputNoteRecord.consumedExternally at done
    split at done
    · cases done
    · exact differsInState_of_recordEvent done

theorem outputInclusionReceived_changesState (inclusionProof : NoteInclusionProof) :
    ChangesState OutputNoteRecord.DiffersInState
      (fun record => recordEvent (record.inclusionProofReceived inclusionProof)) :=
  fun before after done => ⟨OutputNoteRecord.rest_of_recordEvent done,
    (outputInclusionReceived_keepsIdentity inclusionProof before after done).2⟩

theorem outputNullifierReceived_changesState (nullifierUpdate : NullifierUpdate) :
    ChangesState OutputNoteRecord.DiffersInState (fun record => recordEvent
      (record.nullifierReceived nullifierUpdate.nullifier nullifierUpdate.blockNum)) := by
  intro before after done
  refine ⟨?_, (outputNullifierReceived_keepsIdentity nullifierUpdate before after done).2⟩
  beta_reduce at done
  unfold OutputNoteRecord.nullifierReceived at done
  split at done
  · cases done
  · exact OutputNoteRecord.rest_of_recordEvent done

/-! ### Runs -/

/-- The tracked notes that are not new are notes of the list, in other states. -/
def DrawnFrom {record : Type} (differs : record → record → Prop) (idOf : record → NoteId)
    (given : List record) (notes : ExtTreeMap NoteId (NoteUpdate record)) : Prop :=
  ∀ (noteId : NoteId) (update : NoteUpdate record), notes[noteId]? = some update →
    update.updateType = .insert ∨
      ∃ old ∈ given, idOf old = noteId ∧ differs update.note old

section Drawn

variable {record : Type} {differs : record → record → Prop} {idOf : record → NoteId}
  {given : List record} {notes : ExtTreeMap NoteId (NoteUpdate record)}

omit [NoteLibrary] in
theorem DrawnFrom.insert (drawn : DrawnFrom differs idOf given notes) {noteId : NoteId}
    {update : NoteUpdate record} (fits : update.updateType = .insert ∨
      ∃ old ∈ given, idOf old = noteId ∧ differs update.note old) :
    DrawnFrom differs idOf given (notes.insert noteId update) := by
  intro other found foundAt
  rw [ExtTreeMap.getElem?_insert] at foundAt
  split at foundAt
  · rename_i same
    cases foundAt
    rw [← Std.compare_eq_iff_eq.mp same]
    exact fits
  · exact drawn other found foundAt

omit [NoteLibrary] in
/-- An event that changes the state of a note changes nothing else of it. -/
theorem DrawnFrom.apply (drawn : DrawnFrom differs idOf given notes)
    (transitive : ∀ {first second third}, differs first second → differs second third →
      differs first third)
    {event : record → Except ClientError record} (changes : ChangesState differs event)
    {noteId : NoteId} {update : NoteUpdate record} (found : notes[noteId]? = some update) :
    DrawnFrom differs idOf given (notes.insert noteId (update.apply event).1) := by
  refine drawn.insert ?_
  rcases drawn noteId update found with inserted | ⟨old, listed, same, drawnNote⟩
  · left
    unfold NoteUpdate.apply NoteUpdate.setInner
    cases event update.note <;> simp [inserted]
  · refine Or.inr ⟨old, listed, same, ?_⟩
    unfold NoteUpdate.apply
    cases done : event update.note with
    | ok note => exact transitive (changes _ _ done) drawnNote
    | error error => exact drawnNote

end Drawn

/-- What is tracked as changed was given, in another state. -/
structure OnlyStates (inputs : List InputNoteRecord) (outputs : List OutputNoteRecord)
    (tracker : NoteUpdateTracker) : Prop where
  inputNotes : DrawnFrom InputNoteRecord.DiffersInState InputNoteRecord.id inputs tracker.inputNotes
  outputNotes : DrawnFrom OutputNoteRecord.DiffersInState OutputNoteRecord.id outputs
    tracker.outputNotes

variable {inputs : List InputNoteRecord} {outputs : List OutputNoteRecord}

theorem changeInputNote_onlyStates {noteId : NoteId}
    {event : InputNoteRecord → Except ClientError InputNoteRecord}
    (changes : ChangesState InputNoteRecord.DiffersInState event) :
    Preserves (OnlyStates inputs outputs) (changeInputNote noteId event) := by
  intro tracker only
  unfold changeInputNote
  split
  · exact only
  · rename_i update found
    have step := only.inputNotes.apply InputNoteRecord.DiffersInState.trans changes found
    split <;> exact ⟨step, only.outputNotes⟩

theorem changeOutputNote_onlyStates {noteId : NoteId}
    {event : OutputNoteRecord → Except ClientError OutputNoteRecord}
    (changes : ChangesState OutputNoteRecord.DiffersInState event) :
    Preserves (OnlyStates inputs outputs) (changeOutputNote noteId event) := by
  intro tracker only
  unfold changeOutputNote
  split
  · exact only
  · rename_i update found
    have step := only.outputNotes.apply OutputNoteRecord.DiffersInState.trans changes found
    split <;> exact ⟨only.inputNotes, step⟩

theorem OnlyStates.applyCall {tracker : NoteUpdateTracker}
    (only : OnlyStates inputs outputs tracker) (call : Call) :
    OnlyStates inputs outputs (tracker.applyCall call) := by
  cases call with
  | newPublicNote publicNote blockHeader =>
    show OnlyStates inputs outputs (finalState (applyNewPublicNote publicNote blockHeader tracker))
    unfold applyNewPublicNote
    split
    · exact ⟨only.inputNotes.insert (Or.inl rfl), only.outputNotes⟩
    · exact only
  | extendNullifiers nullifiers => exact ⟨only.inputNotes, only.outputNotes⟩
  | committedNote note blockHeader =>
    have preserves : Preserves (OnlyStates inputs outputs)
        (applyCommittedNoteStateTransitions note blockHeader) := by
      refine (Preserves.get _).bind fun _ => ?_
      refine (changeInputNote_onlyStates (receiveInclusion_changesState note)).bind fun _ => ?_
      refine (changeInputNote_onlyStates (blockHeaderReceived_changesState blockHeader)).bind
        fun _ => ?_
      exact (changeOutputNote_onlyStates (outputInclusionReceived_changesState _)).bind
        fun _ => Preserves.pure _ _
    exact preserves tracker only
  | nullifiedNote update committedTransactions =>
    have inputNotes : Preserves (OnlyStates inputs outputs)
        (nullifyInputNote update committedTransactions) := by
      intro current holds
      unfold nullifyInputNote
      split
      · exact holds
      · exact ((changeInputNote_onlyStates (receiveNullifier_changesState update _)).bind fun _ =>
          changeInputNote_onlyStates (setConsumedTxOrder_changesState _)) current holds
    have outputNotes : Preserves (OnlyStates inputs outputs) (nullifyOutputNote update) := by
      intro current holds
      unfold nullifyOutputNote
      split
      · exact holds
      · exact changeOutputNote_onlyStates (outputNullifierReceived_changesState update) current
          holds
    exact (inputNotes.bind fun _ => outputNotes) tracker only

theorem foldl_insertInputNote_onlyStates {notes : List InputNoteRecord}
    (given : ∀ note ∈ notes, note ∈ inputs) {tracker : NoteUpdateTracker}
    (only : OnlyStates inputs outputs tracker) : OnlyStates inputs outputs
      (notes.foldl (fun tracker note => tracker.insertInputNote note .none) tracker) := by
  induction notes generalizing tracker with
  | nil => exact only
  | cons note rest inductionHypothesis =>
    refine inductionHypothesis
      (fun other listed => given other (List.mem_cons_of_mem note listed)) ?_
    refine ⟨only.inputNotes.insert (Or.inr ⟨note, given note List.mem_cons_self, rfl, rfl⟩), ?_⟩
    exact only.outputNotes

theorem foldl_insertOutputNote_onlyStates {notes : List OutputNoteRecord}
    (given : ∀ note ∈ notes, note ∈ outputs) {tracker : NoteUpdateTracker}
    (only : OnlyStates inputs outputs tracker) : OnlyStates inputs outputs
      (notes.foldl (fun tracker note => tracker.insertOutputNote note .none) tracker) := by
  induction notes generalizing tracker with
  | nil => exact only
  | cons note rest inductionHypothesis =>
    refine inductionHypothesis
      (fun other listed => given other (List.mem_cons_of_mem note listed)) ?_
    refine ⟨only.inputNotes, only.outputNotes.insert (Or.inr ⟨note, ?_, rfl, rfl, rfl⟩)⟩
    exact given note List.mem_cons_self

theorem new_onlyStates (inputs : List InputNoteRecord) (outputs : List OutputNoteRecord) :
    OnlyStates inputs outputs (new inputs outputs) := by
  refine foldl_insertOutputNote_onlyStates (fun _ listed => listed)
    (foldl_insertInputNote_onlyStates (fun _ listed => listed) ⟨?_, ?_⟩)
  · intro noteId update found
    rw [show empty.inputNotes[noteId]? = none from ExtTreeMap.getElem?_empty] at found
    cases found
  · intro noteId update found
    rw [show empty.outputNotes[noteId]? = none from ExtTreeMap.getElem?_empty] at found
    cases found

/-- Whatever calls a tracker gets, a note that is not reported as new was given to it, in another
state. -/
theorem run_onlyStates (inputs : List InputNoteRecord) (outputs : List OutputNoteRecord)
    (calls : List Call) : OnlyStates inputs outputs ((new inputs outputs).run calls) := by
  suffices continues : ∀ tracker, OnlyStates inputs outputs tracker →
      OnlyStates inputs outputs (tracker.run calls) from continues _ (new_onlyStates inputs outputs)
  induction calls with
  | nil => exact fun _ only => only
  | cons call rest inductionHypothesis =>
    exact fun tracker only => inductionHypothesis (tracker.applyCall call) (only.applyCall call)

end NoteUpdateTracker

end MidenClient
