/-
This file shows what the events on a note tracker leave alone.

Only the start of a local transaction makes a note processing, and no event of a sync
does. So a note that is being processed in a tracker is the very note the tracker
started with, and after its nullifier was received it is consumed. The index by
nullifier leads to the note because a nullifier determines the note id.
-/

import MidenClient.Library.Fallible
import MidenClient.Note.NoteUpdateTracker

namespace MidenClient

open Std (ExtTreeMap)
open Fallible

/-! ### Events on one record -/

namespace InputNoteState

theorem inclusionProofReceived_ne_processing {state next : InputNoteState}
    {proof : NoteInclusionProof} {metadata : NoteMetadata}
    (moved : state.inclusionProofReceived proof metadata = .ok (some next)) :
    next.isProcessing = false := by
  unfold inclusionProofReceived at moved
  split at moved <;> try split at moved
  all_goals cases moved <;> rfl

theorem blockHeaderReceived_ne_processing [NoteLibrary] {state next : InputNoteState}
    {noteId : NoteId} {header : BlockHeader}
    (moved : state.blockHeaderReceived noteId header = .ok (some next)) :
    next.isProcessing = false := by
  unfold blockHeaderReceived at moved
  split at moved <;> try split at moved
  all_goals cases moved <;> rfl

theorem consumedExternally_ne_processing {state next : InputNoteState} {height : BlockNumber}
    (moved : state.consumedExternally height = .ok (some next)) : next.isProcessing = false := by
  unfold consumedExternally at moved
  split at moved <;> cases moved <;> rfl

/-- A note that an external transaction consumed cannot be left in processing. -/
theorem consumedExternally_none {state : InputNoteState} {height : BlockNumber}
    (kept : state.consumedExternally height = .ok none) : state.isProcessing = false := by
  unfold consumedExternally at kept
  split at kept
  all_goals first | rfl | cases kept

theorem transactionCommitted_ne_processing {state next : InputNoteState} {id : TransactionId}
    {height : BlockNumber} (moved : state.transactionCommitted id height = .ok (some next)) :
    next.isProcessing = false := by
  unfold transactionCommitted at moved
  split at moved <;> try split at moved
  all_goals cases moved <;> rfl

/-- The commitment of its transaction always moves a note, or it is an error. -/
theorem transactionCommitted_ne_none {state : InputNoteState} {id : TransactionId}
    {height : BlockNumber} : state.transactionCommitted id height ≠ .ok none := by
  intro kept
  unfold transactionCommitted at kept
  split at kept <;> try split at kept
  all_goals cases kept

/-- A note becomes processing only for the transaction that consumes it. -/
theorem consumedLocally_consumer {state next : InputNoteState} {account : AccountId}
    {transaction : TransactionId} {timestamp : Option ℕ}
    (moved : state.consumedLocally account transaction timestamp = .ok (some next)) :
    next.consumerTransactionId = some transaction := by
  unfold consumedLocally at moved
  split at moved <;> try split at moved
  all_goals cases moved <;> rfl

theorem setConsumedTxOrder_isProcessing (state : InputNoteState) (order : Option ℕ) :
    (state.setConsumedTxOrder order).isProcessing = state.isProcessing := by
  cases state <;> rfl

/-- Setting the order of a note that is being processed does nothing. -/
theorem setConsumedTxOrder_of_processing {state : InputNoteState} (order : Option ℕ)
    (processing : state.isProcessing = true) : state.setConsumedTxOrder order = state := by
  cases state <;> first | rfl | cases processing

end InputNoteState

namespace InputNoteRecord

/-- What a record looks like after an event: it took over the next state, or it stayed. -/
theorem advance_eq_ok {record changed : InputNoteRecord} {flag : Bool}
    {result : Except NoteRecordError (Option InputNoteState)}
    (advanced : record.advance result = .ok (changed, flag)) :
    (∃ next, result = .ok (some next) ∧ changed = { record with state := next }) ∨
      result = .ok none ∧ changed = record := by
  rcases result with error | _ | next
  · cases advanced
  · cases advanced
    exact Or.inr ⟨rfl, rfl⟩
  · cases advanced
    exact Or.inl ⟨next, rfl, rfl⟩

end InputNoteRecord

theorem recordChange_eq_ok {record : Type} {result : Except NoteRecordError (record × Bool)}
    {changed : record × Bool} :
    recordChange result = .ok changed ↔ result = .ok changed := by
  cases result <;> simp [recordChange]

theorem recordEvent_eq_ok {record : Type} {result : Except NoteRecordError (record × Bool)}
    {changed : record} :
    recordEvent result = .ok changed ↔ ∃ flag, result = .ok (changed, flag) := by
  unfold recordEvent
  rcases result with error | ⟨value, flag⟩
  · simp [recordChange, Except.map]
  · simp [recordChange, Except.map]

/-- The event keeps the details of a note, and a note that is being processed after it was not
changed by it. -/
def KeepsProcessing (event : InputNoteRecord → Except ClientError InputNoteRecord) : Prop :=
  ∀ record changed, event record = .ok changed →
    changed.details = record.details ∧ (changed.state.isProcessing = true → changed = record)

/-- An event that never moves a note into processing keeps the notes that are being
processed. -/
theorem keepsProcessing_of_advance (event : InputNoteRecord → Except ClientError InputNoteRecord)
    (moves : ∀ record changed, event record = .ok changed →
      (∃ next, next.isProcessing = false ∧ changed = { record with state := next }) ∨
        changed = record) : KeepsProcessing event := by
  intro record changed done
  rcases moves record changed done with ⟨next, quiet, rfl⟩ | rfl
  · refine ⟨rfl, fun processing => ?_⟩
    rw [quiet] at processing
    cases processing
  · exact ⟨rfl, fun _ => rfl⟩

namespace NoteUpdateTracker

theorem receiveInclusion_keepsProcessing (committedNote : CommittedNote) :
    KeepsProcessing (receiveInclusion committedNote) := by
  refine keepsProcessing_of_advance _ fun record changed done => ?_
  unfold receiveInclusion at done
  split at done
  · cases done
  · obtain ⟨flag, advanced⟩ := recordEvent_eq_ok.mp done
    rcases InputNoteRecord.advance_eq_ok advanced with ⟨next, moved, rfl⟩ | ⟨_, rfl⟩
    · exact Or.inl ⟨next, InputNoteState.inclusionProofReceived_ne_processing moved, rfl⟩
    · exact Or.inr rfl

theorem setConsumedTxOrder_keepsProcessing (order : Option ℕ) :
    KeepsProcessing fun record => .ok (record.setConsumedTxOrder order) := by
  rintro record changed ⟨⟩
  refine ⟨rfl, fun processing => ?_⟩
  unfold InputNoteRecord.setConsumedTxOrder at processing ⊢
  rw [InputNoteState.setConsumedTxOrder_isProcessing] at processing
  rw [InputNoteState.setConsumedTxOrder_of_processing order processing]

variable [NoteLibrary]

theorem blockHeaderReceived_keepsProcessing (header : BlockHeader) :
    KeepsProcessing fun record => recordEvent (record.blockHeaderReceived header) := by
  refine keepsProcessing_of_advance _ fun record changed done => ?_
  obtain ⟨flag, advanced⟩ := recordEvent_eq_ok.mp done
  rcases InputNoteRecord.advance_eq_ok advanced with ⟨next, moved, rfl⟩ | ⟨_, rfl⟩
  · exact Or.inl ⟨next, InputNoteState.blockHeaderReceived_ne_processing moved, rfl⟩
  · exact Or.inr rfl

/-- A received nullifier ends the processing of a note, when the given transactions are
committed ones. -/
theorem receiveNullifier_eq_ok {nullifierUpdate : NullifierUpdate}
    {committed : List TransactionRecord}
    (allCommitted : ∀ transaction ∈ committed, transaction.status.isCommitted = true)
    {record changed : InputNoteRecord}
    (done : receiveNullifier nullifierUpdate committed record = .ok changed) :
    changed.details = record.details ∧ changed.state.isProcessing = false := by
  unfold receiveNullifier at done
  split at done
  · rename_i consumer found
    have member := allCommitted consumer (List.mem_of_find?_eq_some found)
    obtain ⟨block, timestamp, status⟩ := (TransactionStatus.isCommitted_iff _).mp member
    rw [status] at done
    obtain ⟨flag, advanced⟩ := recordEvent_eq_ok.mp done
    rcases InputNoteRecord.advance_eq_ok advanced with ⟨next, moved, rfl⟩ | ⟨kept, _⟩
    · exact ⟨rfl, InputNoteState.transactionCommitted_ne_processing moved⟩
    · exact absurd kept InputNoteState.transactionCommitted_ne_none
  · obtain ⟨flag, result⟩ := recordEvent_eq_ok.mp done
    unfold InputNoteRecord.consumedExternally at result
    split at result
    · cases result
    · rcases InputNoteRecord.advance_eq_ok result with ⟨next, moved, rfl⟩ | ⟨kept, rfl⟩
      · exact ⟨rfl, InputNoteState.consumedExternally_ne_processing moved⟩
      · exact ⟨rfl, InputNoteState.consumedExternally_none kept⟩

theorem receiveNullifier_keepsProcessing (nullifierUpdate : NullifierUpdate)
    {committed : List TransactionRecord}
    (allCommitted : ∀ transaction ∈ committed, transaction.status.isCommitted = true) :
    KeepsProcessing (receiveNullifier nullifierUpdate committed) := by
  intro record changed done
  obtain ⟨details, quiet⟩ := receiveNullifier_eq_ok allCommitted done
  refine ⟨details, fun processing => ?_⟩
  rw [quiet] at processing
  cases processing

/-! ### Events on a tracker -/

/-- Every tracked input note stands under its id, and its nullifier leads to it. -/
structure Indexed (tracker : NoteUpdateTracker) : Prop where
  keyed : ∀ (noteId : NoteId) (update : InputNoteUpdate),
    tracker.inputNotes[noteId]? = some update → update.note.id = noteId
  found : ∀ (noteId : NoteId) (update : InputNoteUpdate),
    tracker.inputNotes[noteId]? = some update →
      tracker.inputNotesByNullifier[update.note.nullifier]? = some noteId

/-- How a tracker comes from an earlier one by events of a sync: no note is lost, a note that is
not marked was not changed, and neither was a note that is being processed. -/
structure Follows (start current : NoteUpdateTracker) : Prop where
  kept : ∀ noteId : NoteId, noteId ∈ start.inputNotes → noteId ∈ current.inputNotes
  unmarked : ∀ (noteId : NoteId) (update : InputNoteUpdate),
    current.inputNotes[noteId]? = some update → update.isUpdated = false →
      start.inputNotes[noteId]? = some update
  processing : ∀ (noteId : NoteId) (update : InputNoteUpdate),
    current.inputNotes[noteId]? = some update → update.note.state.isProcessing = true →
      ∃ earlier, start.inputNotes[noteId]? = some earlier ∧ earlier.note = update.note

omit [NoteLibrary] in
theorem Follows.refl (tracker : NoteUpdateTracker) : Follows tracker tracker where
  kept _ member := member
  unmarked _ _ found _ := found
  processing _ update found _ := ⟨update, found, rfl⟩

/-- What holds of a tracker all through a sync. -/
def Sound (start current : NoteUpdateTracker) : Prop :=
  Indexed current ∧ Follows start current

omit [NoteLibrary] in
theorem isUpdated_setInner {record : Type} (update : NoteUpdate record) (note : record) :
    (update.setInner note).isUpdated = true := by
  unfold NoteUpdate.setInner NoteUpdate.isUpdated
  cases update.updateType <;> rfl

/-- Replacing the record of a tracked note by one with the same details, which is being
processed only when it is the old record, keeps a tracker sound. -/
theorem Sound.setInner {start current : NoteUpdateTracker} (sound : Sound start current)
    {noteId : NoteId} {update : InputNoteUpdate} {note : InputNoteRecord}
    (tracked : current.inputNotes[noteId]? = some update)
    (details : note.details = update.note.details)
    (quiet : note.state.isProcessing = true → note = update.note) :
    Sound start { current with
      inputNotes := current.inputNotes.insert noteId (update.setInner note) } := by
  obtain ⟨indexed, follows⟩ := sound
  have sameId : note.id = update.note.id := congrArg NoteDetails.id details
  have sameNullifier : note.nullifier = update.note.nullifier :=
    congrArg NoteDetails.nullifier details
  refine ⟨⟨?_, ?_⟩, ⟨?_, ?_, ?_⟩⟩
  · intro other found foundAt
    rw [ExtTreeMap.getElem?_insert] at foundAt
    split at foundAt
    · rename_i same
      obtain rfl := Std.compare_eq_iff_eq.mp same
      cases foundAt
      exact sameId.trans (indexed.keyed noteId update tracked)
    · exact indexed.keyed other found foundAt
  · intro other found foundAt
    rw [ExtTreeMap.getElem?_insert] at foundAt
    split at foundAt
    · rename_i same
      obtain rfl := Std.compare_eq_iff_eq.mp same
      cases foundAt
      show current.inputNotesByNullifier[note.nullifier]? = some noteId
      rw [sameNullifier]
      exact indexed.found noteId update tracked
    · exact indexed.found other found foundAt
  · intro other member
    exact ExtTreeMap.mem_insert.mpr (Or.inr (follows.kept other member))
  · intro other found foundAt clean
    rw [ExtTreeMap.getElem?_insert] at foundAt
    split at foundAt
    · cases foundAt
      rw [isUpdated_setInner] at clean
      cases clean
    · exact follows.unmarked other found foundAt clean
  · intro other found foundAt processing
    rw [ExtTreeMap.getElem?_insert] at foundAt
    split at foundAt
    · rename_i same
      obtain rfl := Std.compare_eq_iff_eq.mp same
      cases foundAt
      obtain rfl := quiet processing
      exact follows.processing noteId update tracked processing
    · exact follows.processing other found foundAt processing

theorem changeInputNote_sound (start : NoteUpdateTracker) (noteId : NoteId)
    {event : InputNoteRecord → Except ClientError InputNoteRecord} (keeps : KeepsProcessing event) :
    Preserves (Sound start) (changeInputNote noteId event) := by
  intro tracker sound
  unfold changeInputNote
  split
  · exact sound
  · rename_i update tracked
    unfold NoteUpdate.apply
    cases done : event update.note with
    | ok note => exact sound.setInner tracked (keeps _ _ done).1 (keeps _ _ done).2
    | error error => exact sound.setInner tracked rfl fun _ => rfl

omit [NoteLibrary] in
/-- Changing an output note does not touch the input notes or their index. -/
theorem changeOutputNote_inputNotes (noteId : NoteId)
    (event : OutputNoteRecord → Except ClientError OutputNoteRecord)
    (tracker : NoteUpdateTracker) :
    (finalState (changeOutputNote noteId event tracker)).inputNotes = tracker.inputNotes ∧
      (finalState (changeOutputNote noteId event tracker)).inputNotesByNullifier =
        tracker.inputNotesByNullifier := by
  unfold changeOutputNote
  split
  · exact ⟨rfl, rfl⟩
  · rename_i update _
    unfold NoteUpdate.apply
    cases event update.note <;> exact ⟨rfl, rfl⟩

/-- Soundness only reads the input notes and their index. -/
theorem Sound.congr {start current other : NoteUpdateTracker} (sound : Sound start current)
    (same : other.inputNotes = current.inputNotes ∧
      other.inputNotesByNullifier = current.inputNotesByNullifier) : Sound start other := by
  obtain ⟨⟨keyed, found⟩, ⟨kept, unmarked, processing⟩⟩ := sound
  rw [← same.1] at keyed found kept unmarked processing
  rw [← same.2] at found
  exact ⟨⟨keyed, found⟩, ⟨kept, unmarked, processing⟩⟩

theorem changeOutputNote_sound (start : NoteUpdateTracker) (noteId : NoteId)
    (event : OutputNoteRecord → Except ClientError OutputNoteRecord) :
    Preserves (Sound start) (changeOutputNote noteId event) :=
  fun tracker sound => sound.congr (changeOutputNote_inputNotes noteId event tracker)

theorem Indexed.insertInputNote (collisionFree : NullifierCollisionFree)
    {tracker : NoteUpdateTracker} (indexed : Indexed tracker) (note : InputNoteRecord)
    (updateType : NoteUpdateType) : Indexed (tracker.insertInputNote note updateType) := by
  unfold NoteUpdateTracker.insertInputNote
  refine ⟨?_, ?_⟩
  · intro other found foundAt
    rw [ExtTreeMap.getElem?_insert] at foundAt
    split at foundAt
    · rename_i same
      cases foundAt
      exact Std.compare_eq_iff_eq.mp same
    · exact indexed.keyed other found foundAt
  · intro other found foundAt
    rw [ExtTreeMap.getElem?_insert] at foundAt ⊢
    split at foundAt
    · rename_i same
      cases foundAt
      rw [if_pos (Std.compare_eq_iff_eq.mpr rfl), Std.compare_eq_iff_eq.mp same]
    · rename_i different
      have clash : note.nullifier ≠ found.note.nullifier := by
        intro same
        refine different (Std.compare_eq_iff_eq.mpr ?_)
        exact (collisionFree.id_eq same).trans (indexed.keyed other found foundAt)
      rw [if_neg fun same => clash (Std.compare_eq_iff_eq.mp same)]
      exact indexed.found other found foundAt

/-- Inserting a note that is not being processed keeps a tracker sound. -/
theorem Sound.insertInputNote (collisionFree : NullifierCollisionFree)
    {start current : NoteUpdateTracker} (sound : Sound start current) {note : InputNoteRecord}
    (quiet : note.state.isProcessing = false) :
    Sound start (current.insertInputNote note .insert) := by
  obtain ⟨indexed, follows⟩ := sound
  refine ⟨indexed.insertInputNote collisionFree note .insert, ?_⟩
  unfold NoteUpdateTracker.insertInputNote
  refine ⟨?_, ?_, ?_⟩
  · intro other member
    exact ExtTreeMap.mem_insert.mpr (Or.inr (follows.kept other member))
  · intro other found foundAt clean
    rw [ExtTreeMap.getElem?_insert] at foundAt
    split at foundAt
    · cases foundAt
      cases clean
    · exact follows.unmarked other found foundAt clean
  · intro other found foundAt processing
    rw [ExtTreeMap.getElem?_insert] at foundAt
    split at foundAt
    · cases foundAt
      rw [quiet] at processing
      cases processing
    · exact follows.processing other found foundAt processing

/-- A note that is not being processed is not being processed after a block header either. -/
theorem blockHeaderReceived_quiet {record changed : InputNoteRecord} {header : BlockHeader}
    {flag : Bool} (quiet : record.state.isProcessing = false)
    (done : record.blockHeaderReceived header = .ok (changed, flag)) :
    changed.state.isProcessing = false := by
  rcases InputNoteRecord.advance_eq_ok done with ⟨next, moved, rfl⟩ | ⟨_, rfl⟩
  · exact InputNoteState.blockHeaderReceived_ne_processing moved
  · exact quiet

theorem applyNewPublicNote_sound (collisionFree : NullifierCollisionFree)
    (start : NoteUpdateTracker) {publicNote : InputNoteRecord} (header : BlockHeader)
    (quiet : publicNote.state.isProcessing = false) :
    Preserves (Sound start) (applyNewPublicNote publicNote header) := by
  intro tracker sound
  unfold applyNewPublicNote
  cases done : publicNote.blockHeaderReceived header with
  | error error => exact sound
  | ok result => exact sound.insertInputNote collisionFree (blockHeaderReceived_quiet quiet done)

theorem applyCommittedNoteStateTransitions_sound (start : NoteUpdateTracker)
    (committedNote : CommittedNote) (header : BlockHeader) :
    Preserves (Sound start) (applyCommittedNoteStateTransitions committedNote header) := by
  refine Preserves.bind (fun _ sound => sound) fun tracker => ?_
  refine (changeInputNote_sound start _ (receiveInclusion_keepsProcessing committedNote)).bind
    fun _ => ?_
  refine (changeInputNote_sound start _ (blockHeaderReceived_keepsProcessing header)).bind
    fun _ => ?_
  exact (changeOutputNote_sound start _ _).bind fun _ => Preserves.pure _ _

theorem nullifyInputNote_sound (start : NoteUpdateTracker) (nullifierUpdate : NullifierUpdate)
    {committed : List TransactionRecord}
    (allCommitted : ∀ transaction ∈ committed, transaction.status.isCommitted = true) :
    Preserves (Sound start) (nullifyInputNote nullifierUpdate committed) := by
  intro tracker sound
  unfold nullifyInputNote
  split
  · exact sound
  · exact (changeInputNote_sound start _
      (receiveNullifier_keepsProcessing nullifierUpdate allCommitted)).bind
      (fun _ => changeInputNote_sound start _ (setConsumedTxOrder_keepsProcessing _)) tracker sound

theorem nullifyOutputNote_inputNotes (nullifierUpdate : NullifierUpdate)
    (tracker : NoteUpdateTracker) :
    (finalState (nullifyOutputNote nullifierUpdate tracker)).inputNotes = tracker.inputNotes ∧
      (finalState (nullifyOutputNote nullifierUpdate tracker)).inputNotesByNullifier =
        tracker.inputNotesByNullifier := by
  unfold nullifyOutputNote
  split
  · exact ⟨rfl, rfl⟩
  · exact changeOutputNote_inputNotes _ _ tracker

theorem applyNullifiersStateTransitions_sound (start : NoteUpdateTracker)
    (nullifierUpdate : NullifierUpdate) {committed : List TransactionRecord}
    (allCommitted : ∀ transaction ∈ committed, transaction.status.isCommitted = true) :
    Preserves (Sound start) (applyNullifiersStateTransitions nullifierUpdate committed) :=
  (nullifyInputNote_sound start nullifierUpdate allCommitted).bind fun _ tracker sound =>
    sound.congr (nullifyOutputNote_inputNotes nullifierUpdate tracker)

/-! ### A received nullifier -/

omit [NoteLibrary] in
theorem changeInputNote_eq_ok {noteId : NoteId}
    {event : InputNoteRecord → Except ClientError InputNoteRecord}
    {tracker next : NoteUpdateTracker} (done : changeInputNote noteId event tracker = .ok () next) :
    tracker.inputNotes[noteId]? = none ∧ next = tracker ∨
      ∃ update note, tracker.inputNotes[noteId]? = some update ∧ event update.note = .ok note ∧
        next = { tracker with
          inputNotes := tracker.inputNotes.insert noteId (update.setInner note) } := by
  unfold changeInputNote at done
  split at done
  · rename_i absent
    cases done
    exact Or.inl ⟨absent, rfl⟩
  · rename_i update tracked
    unfold NoteUpdate.apply at done
    cases event : event update.note with
    | error error =>
      rw [event] at done
      cases done
    | ok note =>
      rw [event] at done
      cases done
      exact Or.inr ⟨update, note, tracked, event, rfl⟩

/-- Once its nullifier was received a tracked note is not being processed any more. -/
theorem nullifyInputNote_quiet {nullifierUpdate : NullifierUpdate}
    {committed : List TransactionRecord}
    (allCommitted : ∀ transaction ∈ committed, transaction.status.isCommitted = true)
    {tracker next : NoteUpdateTracker} (indexed : Indexed tracker)
    (done : nullifyInputNote nullifierUpdate committed tracker = .ok () next)
    {noteId : NoteId} {update : InputNoteUpdate}
    (tracked : next.inputNotes[noteId]? = some update)
    (nullified : update.note.nullifier = nullifierUpdate.nullifier) :
    update.note.state.isProcessing = false := by
  have sound := (nullifyInputNote_sound tracker nullifierUpdate allCommitted).of_ok
    ⟨indexed, Follows.refl tracker⟩ done
  have leads := sound.1.found noteId update tracked
  rw [nullified] at leads
  unfold nullifyInputNote at done
  split at done
  · rename_i absent
    cases done
    rw [absent] at leads
    cases leads
  · rename_i target found
    obtain ⟨⟨⟩, middle, first, second⟩ := bind_eq_result_ok.mp done
    rcases changeInputNote_eq_ok first with ⟨absent, rfl⟩ | ⟨old, note, _, event, rfl⟩
    · rcases changeInputNote_eq_ok second with ⟨_, rfl⟩ | ⟨other, _, present, _⟩
      · rw [found] at leads
        rw [Option.some.inj leads, tracked] at absent
        cases absent
      · rw [absent] at present
        cases present
    · have quiet := (receiveNullifier_eq_ok allCommitted event).2
      rcases changeInputNote_eq_ok second with ⟨absent, _⟩ | ⟨current, ordered, present, event, rfl⟩
      · rw [ExtTreeMap.getElem?_insert_self] at absent
        cases absent
      · rw [ExtTreeMap.getElem?_insert_self] at present
        cases present
        cases event
        simp only [found] at leads
        obtain rfl := Option.some.inj leads
        simp only [ExtTreeMap.getElem?_insert_self] at tracked
        cases tracked
        exact (InputNoteState.setConsumedTxOrder_isProcessing note.state _).trans quiet

theorem applyNullifiersStateTransitions_quiet {nullifierUpdate : NullifierUpdate}
    {committed : List TransactionRecord}
    (allCommitted : ∀ transaction ∈ committed, transaction.status.isCommitted = true)
    {tracker next : NoteUpdateTracker} (indexed : Indexed tracker)
    (done : applyNullifiersStateTransitions nullifierUpdate committed tracker = .ok () next)
    {noteId : NoteId} {update : InputNoteUpdate}
    (tracked : next.inputNotes[noteId]? = some update)
    (nullified : update.note.nullifier = nullifierUpdate.nullifier) :
    update.note.state.isProcessing = false := by
  obtain ⟨⟨⟩, middle, first, second⟩ := bind_eq_result_ok.mp done
  have unchanged := (nullifyOutputNote_inputNotes nullifierUpdate middle).1
  rw [second] at unchanged
  rw [show next.inputNotes = middle.inputNotes from unchanged] at tracked
  exact nullifyInputNote_quiet allCommitted indexed first tracked nullified

/-! ### A new tracker -/

theorem foldl_insertOutputNote (updateType : NoteUpdateType) (notes : List OutputNoteRecord)
    (tracker : NoteUpdateTracker) :
    (notes.foldl (fun tracker note => tracker.insertOutputNote note updateType)
        tracker).inputNotes = tracker.inputNotes ∧
      (notes.foldl (fun tracker note => tracker.insertOutputNote note updateType)
        tracker).inputNotesByNullifier = tracker.inputNotesByNullifier := by
  induction notes generalizing tracker with
  | nil => exact ⟨rfl, rfl⟩
  | cons note rest inductionHypothesis => exact inductionHypothesis _

/-- An input note of a tracker that a list of notes was inserted into: it is one of them, or it
was there and none of them is about it. -/
theorem foldl_insertInputNote_cases (updateType : NoteUpdateType) (notes : List InputNoteRecord)
    (tracker : NoteUpdateTracker) (noteId : NoteId) :
    (∃ note ∈ notes, note.id = noteId ∧
      (notes.foldl (fun tracker note => tracker.insertInputNote note updateType)
        tracker).inputNotes[noteId]? = some ⟨note, updateType⟩) ∨
    (∀ note ∈ notes, note.id ≠ noteId) ∧
      (notes.foldl (fun tracker note => tracker.insertInputNote note updateType)
        tracker).inputNotes[noteId]? = tracker.inputNotes[noteId]? := by
  induction notes using List.reverseRecOn with
  | nil => exact Or.inr ⟨fun _ absent => absurd absent List.not_mem_nil, rfl⟩
  | append_singleton notes last inductionHypothesis =>
    rw [List.foldl_append, List.foldl_cons, List.foldl_nil]
    unfold insertInputNote at inductionHypothesis ⊢
    rw [ExtTreeMap.getElem?_insert]
    by_cases about : last.id = noteId
    · rw [if_pos (Std.compare_eq_iff_eq.mpr about)]
      exact Or.inl ⟨last, List.mem_append_right _ List.mem_cons_self, about, rfl⟩
    · rw [if_neg (by rwa [Std.compare_eq_iff_eq])]
      rcases inductionHypothesis with ⟨note, member, tracked⟩ | ⟨others, same⟩
      · exact Or.inl ⟨note, List.mem_append_left _ member, tracked⟩
      · refine Or.inr ⟨fun note member => ?_, same⟩
        rcases List.mem_append.mp member with early | late
        · exact others note early
        · rw [List.mem_singleton.mp late]
          exact about

/-- Where the input notes of a tracker come from that a list of notes was inserted into. -/
theorem foldl_insertInputNote_eq_some {updateType : NoteUpdateType} {notes : List InputNoteRecord}
    {tracker : NoteUpdateTracker} {noteId : NoteId} {update : InputNoteUpdate}
    (tracked : (notes.foldl (fun tracker note => tracker.insertInputNote note updateType)
      tracker).inputNotes[noteId]? = some update) :
    tracker.inputNotes[noteId]? = some update ∨
      update.note ∈ notes ∧ update.note.id = noteId ∧ update.updateType = updateType := by
  rcases foldl_insertInputNote_cases updateType notes tracker noteId with
    ⟨note, member, about, written⟩ | ⟨_, same⟩
  · rw [tracked] at written
    cases written
    exact Or.inr ⟨member, about, rfl⟩
  · exact Or.inl (same.symm.trans tracked)

theorem foldl_insertInputNote_kept (updateType : NoteUpdateType) (notes : List InputNoteRecord)
    (tracker : NoteUpdateTracker) {noteId : NoteId}
    (present : noteId ∈ tracker.inputNotes ∨ ∃ note ∈ notes, note.id = noteId) :
    noteId ∈ (notes.foldl (fun tracker note => tracker.insertInputNote note updateType)
      tracker).inputNotes := by
  induction notes generalizing tracker with
  | nil =>
    rcases present with member | ⟨_, member, _⟩
    · exact member
    · cases member
  | cons note rest inductionHypothesis =>
    refine inductionHypothesis _ ?_
    unfold insertInputNote
    rw [ExtTreeMap.mem_insert]
    rcases present with member | ⟨other, member, id⟩
    · exact Or.inl (Or.inr member)
    · rcases List.mem_cons.mp member with rfl | later
      · exact Or.inl (Or.inl (Std.compare_eq_iff_eq.mpr id))
      · exact Or.inr ⟨other, later, id⟩

theorem foldl_insertInputNote_indexed (collisionFree : NullifierCollisionFree)
    (updateType : NoteUpdateType) (notes : List InputNoteRecord) {tracker : NoteUpdateTracker}
    (indexed : Indexed tracker) :
    Indexed (notes.foldl (fun tracker note => tracker.insertInputNote note updateType)
      tracker) := by
  induction notes generalizing tracker with
  | nil => exact indexed
  | cons note rest inductionHypothesis =>
    exact inductionHypothesis (indexed.insertInputNote collisionFree note updateType)

theorem empty_indexed : Indexed empty where
  keyed _ _ found := by simp [empty] at found
  found _ _ found := by simp [empty] at found

theorem new_indexed (collisionFree : NullifierCollisionFree) (inputNotes : List InputNoteRecord)
    (outputNotes : List OutputNoteRecord) : Indexed (new inputNotes outputNotes) := by
  have inputs := foldl_insertInputNote_indexed collisionFree .none inputNotes empty_indexed
  exact (Sound.congr ⟨inputs, Follows.refl _⟩ (foldl_insertOutputNote .none outputNotes _)).1

/-- The input notes of a new tracker are the given ones, and none is marked. -/
theorem new_eq_some {inputNotes : List InputNoteRecord} {outputNotes : List OutputNoteRecord}
    {noteId : NoteId} {update : InputNoteUpdate}
    (tracked : (new inputNotes outputNotes).inputNotes[noteId]? = some update) :
    update.note ∈ inputNotes ∧ update.note.id = noteId ∧ update.updateType = .none := by
  unfold new at tracked
  rw [(foldl_insertOutputNote .none outputNotes _).1] at tracked
  rcases foldl_insertInputNote_eq_some tracked with before | given
  · simp [empty] at before
  · exact given

theorem mem_new {inputNotes : List InputNoteRecord} (outputNotes : List OutputNoteRecord)
    {note : InputNoteRecord} (member : note ∈ inputNotes) :
    note.id ∈ (new inputNotes outputNotes).inputNotes := by
  unfold new
  rw [(foldl_insertOutputNote .none outputNotes _).1]
  exact foldl_insertInputNote_kept .none inputNotes empty (Or.inr ⟨note, member, rfl⟩)

end NoteUpdateTracker

end MidenClient
