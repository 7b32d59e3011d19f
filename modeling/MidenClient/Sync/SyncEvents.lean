/-
This file shows what one sync does to its two trackers.

The calls a sync makes on the transactions are fixed by the inclusions, the new height
and the nullifiers it processes. A pending transaction comes out of them unchanged
unless an inclusion selects it or it falls: it is hit by age or by a nullifier, or it
starts from the final state of one that falls. The notes only follow the note blocks and
the nullifiers, and a note whose nullifier is processed is not being processed any more.
-/

import MidenClient.Note.TrackerEvents
import MidenClient.Sync.StateSync

namespace MidenClient

open Std (ExtTreeMap)
open Fallible

/-! ### Which transactions a sync settles -/

namespace TransactionUpdateTracker

/-- One of the inclusions commits the tracked transaction. -/
def Included (tracker : TransactionUpdateTracker) (included : List RpcTransactionRecord)
    (id : TransactionId) : Prop :=
  ∃ inclusion ∈ included, tracker.Selects inclusion.toInclusion id

/-- The transaction is stale or expired at the new height, or consumes a nullified note. -/
def SyncHits (height : BlockNumber) (delta : Option ℕ) (nullifiers : List Nullifier)
    (record : TransactionRecord) : Prop :=
  (∃ blocks, delta = some blocks ∧ isStale height blocks record = true) ∨
    isExpired height record = true ∨
    ∃ nullifier ∈ nullifiers, nullifier ∈ record.details.inputNoteNullifiers

/-- The transactions a sync discards: those it hits and those that start from the final state
of one that falls, unless an inclusion commits them. -/
inductive Falls (tracker : TransactionUpdateTracker) (included : List RpcTransactionRecord)
    (hits : TransactionRecord → Prop) : TransactionRecord → Prop
  | direct {id : TransactionId} {record : TransactionRecord} :
      tracker.transactions[id]? = some record → ¬tracker.Included included id → hits record →
      Falls tracker included hits record
  | linked {id : TransactionId} {earlier record : TransactionRecord} :
      Falls tracker included hits earlier →
      tracker.transactions[id]? = some record → ¬tracker.Included included id →
      earlier.details.finalAccountState = record.details.initAccountState →
      Falls tracker included hits record

/-- The calls of one sync on the tracker. -/
def syncCalls (included : List RpcTransactionRecord) (timestamp : ℕ) (height : BlockNumber)
    (delta : Option ℕ) (nullifiers : List Nullifier) : List Call :=
  included.map (fun inclusion => .transactionInclusion inclusion.toInclusion timestamp) ++
    .syncHeightUpdate height delta :: nullifiers.map .inputNoteNullified

theorem run_inclusions (tracker : TransactionUpdateTracker)
    (included : List RpcTransactionRecord) (timestamp : ℕ) :
    tracker.run (included.map fun inclusion =>
        .transactionInclusion inclusion.toInclusion timestamp) =
      tracker.applyInclusions included timestamp := by
  unfold run applyInclusions
  rw [List.foldl_map]
  rfl

/-- Calls that are no inclusions commit nothing. -/
theorem run_uncommitted (tracker : TransactionUpdateTracker) (calls : List Call)
    (discards : ∀ call ∈ calls, ∀ inclusion timestamp,
      call ≠ .transactionInclusion inclusion timestamp)
    {id : TransactionId} {record : TransactionRecord}
    (found : (tracker.run calls).transactions[id]? = some record)
    (committed : record.status.isCommitted = true) : tracker.transactions[id]? = some record := by
  induction calls generalizing tracker with
  | nil => exact found
  | cons call rest inductionHypothesis =>
    have later := inductionHypothesis (tracker.applyCall call)
      (fun other member => discards other (List.mem_cons_of_mem call member)) found
    exact tracker.applyCall_uncommitted call (discards call List.mem_cons_self) later committed

/-- A transaction that ends a sync committed was selected by an inclusion, and one that ends it
otherwise was not. -/
theorem run_isCommitted_iff_included (tracker : TransactionUpdateTracker)
    (included : List RpcTransactionRecord) (timestamp : ℕ) (height : BlockNumber)
    (delta : Option ℕ) (nullifiers : List Nullifier) {id : TransactionId}
    {record next : TransactionRecord} (tracked : tracker.transactions[id]? = some record)
    (pending : record.status = .pending)
    (found : (tracker.run (syncCalls included timestamp height delta
      nullifiers)).transactions[id]? =
      some next) :
    next.status.isCommitted = true ↔ tracker.Included included id := by
  obtain ⟨middle, seen, selected⟩ :=
    tracker.applyInclusions_isCommitted_iff included timestamp tracked pending
  rw [Included, ← selected]
  unfold syncCalls at found
  rw [run_append, run_inclusions] at found
  have later := run_cascade (tracker.applyInclusions included timestamp)
    (.syncHeightUpdate height delta :: nullifiers.map .inputNoteNullified)
  constructor
  · intro committed
    have unchanged := run_uncommitted _ _ (by simp) found committed
    rw [seen] at unchanged
    rwa [Option.some.inj unchanged]
  · intro committed
    obtain ⟨last, foundLast, advances⟩ := later.evolves.of_before seen
    have settled : middle.status ≠ .pending := by
      intro stillPending
      rw [stillPending] at committed
      cases committed
    rw [found] at foundLast
    rw [Option.some.inj foundLast, advances.eq_of_settled settled]
    exact committed

/-- A pending transaction that is neither included nor falls is the same after the sync. -/
theorem run_of_unsettled (tracker : TransactionUpdateTracker)
    (included : List RpcTransactionRecord) (timestamp : ℕ) (height : BlockNumber)
    (delta : Option ℕ) (nullifiers : List Nullifier) {id : TransactionId}
    {record : TransactionRecord} (tracked : tracker.transactions[id]? = some record)
    (pending : record.status = .pending) (excluded : ¬tracker.Included included id)
    (stands : ¬tracker.Falls included (SyncHits height delta nullifiers) record) :
    (tracker.run (syncCalls included timestamp height delta nullifiers)).transactions[id]? =
      some record := by
  have cascade := tracker.run_cascade (syncCalls included timestamp height delta nullifiers)
  have hits : ∀ record : TransactionRecord,
      (∃ call ∈ syncCalls included timestamp height delta nullifiers, call.Hits record) →
        SyncHits height delta nullifiers record := by
    rintro record ⟨call, member, hit⟩
    rcases List.mem_append.mp member with inclusion | later
    · obtain ⟨_, _, rfl⟩ := List.mem_map.mp inclusion
      exact hit.elim
    · rcases List.mem_cons.mp later with rfl | nullified
      · exact hit.imp_right Or.inl
      · obtain ⟨nullifier, listed, rfl⟩ := List.mem_map.mp nullified
        exact Or.inr (Or.inr ⟨nullifier, listed, hit⟩)
  -- a discarded record was tracked, and no inclusion committed it
  have uncommitted : ∀ other ∈ newlyDiscarded tracker
      (tracker.run (syncCalls included timestamp height delta nullifiers)),
      ∃ id, tracker.transactions[id]? = some other ∧ ¬tracker.Included included id := by
    rintro other ⟨id, next, seen, wasPending, found, discarded⟩
    refine ⟨id, seen, fun inclusion => ?_⟩
    have committed := (tracker.run_isCommitted_iff_included included timestamp height delta
      nullifiers seen wasPending found).mpr inclusion
    obtain ⟨cause, status⟩ := (TransactionStatus.isDiscarded_iff _).mp discarded
    rw [status] at committed
    cases committed
  have falls : ∀ other, Doomed (fun record => ∃ call ∈ syncCalls included timestamp height delta
      nullifiers, call.Hits record) (newlyDiscarded tracker
        (tracker.run (syncCalls included timestamp height delta nullifiers))) other →
      other ∈ newlyDiscarded tracker
        (tracker.run (syncCalls included timestamp height delta nullifiers)) →
      tracker.Falls included (SyncHits height delta nullifiers) other := by
    intro other doomed
    induction doomed with
    | direct hit =>
      intro member
      obtain ⟨id, seen, notIncluded⟩ := uncommitted _ member
      exact .direct seen notIncluded (hits _ hit)
    | linked earlierMember _ link inductionHypothesis =>
      intro member
      obtain ⟨id, seen, notIncluded⟩ := uncommitted _ member
      exact .linked (inductionHypothesis earlierMember) seen notIncluded link
  obtain ⟨next, found, advances⟩ := cascade.evolves.of_before tracked
  rw [found]
  cases status : next.status with
  | pending => rw [advances.eq_of_pending status]
  | committed block time =>
    refine absurd ((tracker.run_isCommitted_iff_included included timestamp height delta
      nullifiers tracked pending found).mp ?_) excluded
    rw [status]
    rfl
  | discarded cause =>
    have member : record ∈ newlyDiscarded tracker
        (tracker.run (syncCalls included timestamp height delta nullifiers)) := by
      refine ⟨id, next, tracked, pending, found, ?_⟩
      rw [status]
      rfl
    exact absurd (falls record (cascade.doomed record member) member) stands

end TransactionUpdateTracker

/-! ### What a sync does to the trackers -/

namespace StateSync

open NoteUpdateTracker

variable [NoteLibrary]

/-- The screener only inserts the record of the public note it was given. -/
def InsertsGiven (sync : StateSync) : Prop :=
  ∀ note given record, sync.noteScreener note given = .ok (.insert record) → given = some record

/-- The records of public notes wait for their block header. -/
theorem publicNoteRecords_quiet {data : RawStateSyncData} {noteId : NoteId}
    {record : InputNoteRecord} (found : (publicNoteRecords data)[noteId]? = some record) :
    record.state.isProcessing = false := by
  have all : ∀ (entries : List (NoteId × Note)) (records : ExtTreeMap NoteId InputNoteRecord),
      (∀ (id : NoteId) (record : InputNoteRecord), records[id]? = some record →
        record.state.isProcessing = false) →
      ∀ (id : NoteId) (record : InputNoteRecord),
        (entries.foldl (addPublicNote data.noteBlocks) records)[id]? = some record →
        record.state.isProcessing = false := by
    intro entries
    induction entries with
    | nil => exact fun _ quiet => quiet
    | cons entry rest inductionHypothesis =>
      intro records quiet
      refine inductionHypothesis _ fun id record foundAt => ?_
      unfold addPublicNote at foundAt
      split at foundAt
      · rw [ExtTreeMap.getElem?_insert] at foundAt
        split at foundAt
        · cases foundAt
          rfl
        · exact quiet id record foundAt
      · exact quiet id record foundAt
  exact all _ ∅ (fun _ _ absent => by simp at absent) noteId record found

theorem screenNote_sound (collisionFree : NullifierCollisionFree) {sync : StateSync}
    (inserts : sync.InsertsGiven) (start : NoteUpdateTracker) (data : RawStateSyncData)
    (header : BlockHeader) (note : CommittedNote) :
    Preserves (Sound start) (sync.screenNote (publicNoteRecords data) header note) := by
  unfold screenNote
  split
  · rename_i action screened
    cases action with
    | commit committedNote =>
      exact (applyCommittedNoteStateTransitions_sound start committedNote header).bind
        fun _ => Preserves.pure _ _
    | insert publicNote =>
      have given := inserts note _ publicNote screened
      unfold publicNoteOf at given
      split at given
      · cases given
      · exact applyNewPublicNote_sound collisionFree start header (publicNoteRecords_quiet given)
    | discard => exact Preserves.pure _ _
  · exact fun _ sound => sound

theorem applyNoteBlocks_sound (collisionFree : NullifierCollisionFree) {sync : StateSync}
    (inserts : sync.InsertsGiven) {data : RawStateSyncData} {start screened : NoteUpdateTracker}
    (indexed : Indexed start) (done : sync.applyNoteBlocks data start = .ok screened) :
    Sound start screened := by
  have preserves : Preserves (Sound start)
      (data.noteBlocks.forM (sync.noteStateSync (publicNoteRecords data))) :=
    Preserves.forM (fun block => by
      unfold noteStateSync
      exact Preserves.forM
        (screenNote_sound collisionFree inserts start data block.blockHeader)
        (OrderedMap.values block.notes))
      data.noteBlocks
  unfold applyNoteBlocks at done
  split at done
  · rename_i changed finished
    cases done
    exact preserves.of_ok ⟨indexed, Follows.refl start⟩ finished
  · cases done

theorem applyNullifier_eq_ok {update next : StateSyncUpdate} {nullifierUpdate : NullifierUpdate}
    (done : applyNullifier update nullifierUpdate = .ok next) :
    applyNullifiersStateTransitions nullifierUpdate
        update.transactionUpdates.committedTransactions update.noteUpdates =
          .ok () next.noteUpdates ∧
      next.transactionUpdates =
        update.transactionUpdates.applyInputNoteNullified nullifierUpdate.nullifier := by
  unfold applyNullifier at done
  split at done
  · rename_i notes finished
    cases done
    exact ⟨finished, rfl⟩
  · cases done

/-- Going through the nullifiers keeps the notes sound, ends the processing of every note whose
nullifier is among them, and makes the corresponding calls on the transactions. -/
theorem foldlM_applyNullifier {start : NoteUpdateTracker} {nullifiers : List NullifierUpdate}
    {update result : StateSyncUpdate} (sound : Sound start update.noteUpdates)
    (done : nullifiers.foldlM applyNullifier update = .ok result) :
    Sound start result.noteUpdates ∧
      (∀ (noteId : NoteId) (tracked : InputNoteUpdate),
        result.noteUpdates.inputNotes[noteId]? = some tracked →
        tracked.note.state.isProcessing = true →
        tracked.note.nullifier ∉ nullifiers.map NullifierUpdate.nullifier) ∧
      result.transactionUpdates = update.transactionUpdates.run
        ((nullifiers.map NullifierUpdate.nullifier).map .inputNoteNullified) := by
  have kept := foldlM_invariant (fun rest (current : StateSyncUpdate) =>
      Sound start current.noteUpdates ∧
      (∀ (noteId : NoteId) (tracked : InputNoteUpdate),
        current.noteUpdates.inputNotes[noteId]? = some tracked →
        tracked.note.state.isProcessing = true →
        tracked.note.nullifier ∈ nullifiers.map NullifierUpdate.nullifier →
        tracked.note.nullifier ∈ rest.map NullifierUpdate.nullifier) ∧
      update.transactionUpdates.run
          ((nullifiers.map NullifierUpdate.nullifier).map .inputNoteNullified) =
        current.transactionUpdates.run
          ((rest.map NullifierUpdate.nullifier).map .inputNoteNullified))
    applyNullifier ?_ nullifiers update result ⟨sound, fun _ _ _ _ member => member, rfl⟩ done
  · obtain ⟨lastSound, quiet, calls⟩ := kept
    refine ⟨lastSound, fun noteId tracked found processing member => ?_, calls.symm⟩
    cases quiet noteId tracked found processing member
  · rintro nullifier rest current next ⟨currentSound, waiting, calls⟩ step
    obtain ⟨moved, transactions⟩ := applyNullifier_eq_ok step
    have committed : ∀ transaction ∈ current.transactionUpdates.committedTransactions,
        transaction.status.isCommitted = true :=
      fun transaction member => (List.mem_filter.mp member).2
    have nextSound := (applyNullifiersStateTransitions_sound start nullifier committed).of_ok
      currentSound moved
    have oneStep := (applyNullifiersStateTransitions_sound current.noteUpdates nullifier
      committed).of_ok ⟨currentSound.1, Follows.refl _⟩ moved
    refine ⟨nextSound, fun noteId tracked found processing member => ?_, ?_⟩
    · obtain ⟨earlier, foundBefore, same⟩ := oneStep.2.processing noteId tracked found processing
      have listed := waiting noteId earlier foundBefore (by rwa [same]) (by rwa [same])
      rw [same] at listed
      rcases List.mem_cons.mp listed with now | later
      · have quiet := applyNullifiersStateTransitions_quiet committed currentSound.1 moved found now
        rw [quiet] at processing
        cases processing
      · exact later
    · rw [calls, transactions]
      rfl

/-- What a sync that made progress has done to the notes and to the transactions. -/
theorem syncState_eq_ok (collisionFree : NullifierCollisionFree) {sync : StateSync}
    (inserts : sync.InsertsGiven) {blockNum : BlockNumber} {input : StateSyncInput}
    {data : RawStateSyncData} {update : StateSyncUpdate}
    (progress : data.chainTipHeader.blockNum ≠ blockNum)
    (done : sync.syncState blockNum input data = .ok update) :
    Sound (.new input.inputNotes input.outputNotes) update.noteUpdates ∧
      (∀ (noteId : NoteId) (tracked : InputNoteUpdate),
        update.noteUpdates.inputNotes[noteId]? = some tracked →
        tracked.note.state.isProcessing = true →
        tracked.note.nullifier ∉ (sync.processedNullifiers data).map NullifierUpdate.nullifier) ∧
      update.transactionUpdates = (TransactionUpdateTracker.new input.uncommittedTransactions).run
        (TransactionUpdateTracker.syncCalls (includedTransactions input data)
          data.chainTipHeader.timestamp
          data.chainTipHeader.blockNum sync.txDiscardDelta
          ((sync.processedNullifiers data).map NullifierUpdate.nullifier)) := by
  unfold syncState at done
  rw [if_neg progress] at done
  obtain ⟨screened, blocks, nullified⟩ := bind_eq_ok.mp done
  have sound := applyNoteBlocks_sound collisionFree inserts
    (new_indexed collisionFree input.inputNotes input.outputNotes) blocks
  obtain ⟨lastSound, quiet, calls⟩ := foldlM_applyNullifier (sound.congr ⟨rfl, rfl⟩) nullified
  refine ⟨lastSound, quiet, ?_⟩
  rw [calls, TransactionUpdateTracker.syncCalls, TransactionUpdateTracker.run_append,
    TransactionUpdateTracker.run_inclusions]
  rfl

end StateSync

end MidenClient
