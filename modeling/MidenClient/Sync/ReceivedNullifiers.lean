/-
This file shows what a list of received nullifiers does to the tracked notes and
transactions (`nullifiers_state_sync` in `rust-client/src/sync/state_sync.rs`).

The committed transactions are read while others are being discarded, but a discard
commits nothing, so the committed ones stay the same throughout. A note takes its
nullifier once: the first time it is consumed, locally when its consumer is committed.
After that the event is ignored, unless the note was consumed locally; then it is refused,
because only a note that is being processed can be committed in a local transaction.
-/

import MidenClient.Note.TrackerCalls
import MidenClient.Sync.SyncEvents

namespace MidenClient

open Std (ExtTreeMap)
open Fallible NoteUpdate NoteUpdateTracker

/-! ### The committed transactions -/

namespace TransactionUpdateTracker

/-- A discard does not change the committed transactions. -/
theorem discardTransactionWithPredicate_committedTransactions (tracker : TransactionUpdateTracker)
    (predicate : TransactionRecord → Bool) (cause : DiscardCause) :
    (tracker.discardTransactionWithPredicate predicate cause).committedTransactions =
      tracker.committedTransactions := by
  refine (discardWithFuel_related (fun before after => after.committedTransactions =
      before.committedTransactions) (fun _ => rfl) (fun early late => late.trans early)
    ?_ _ _ _ predicate cause (tracker.discardWithFuel_pendingCount predicate cause))
  intro tracker predicate cause
  simp only [committedTransactions, records, discardPass, ExtTreeMap.toList_map, List.map_map]
  induction tracker.transactions.toList with
  | nil => rfl
  | cons entry rest inductionHypothesis =>
    simp only [List.map_cons, Function.comp_apply]
    by_cases selected : isDiscardedBy predicate entry.2 = true
    · have pending := ((isDiscardedBy_iff predicate entry.2).mp selected).1
      rw [if_pos selected, entry.2.discardTransaction_of_pending cause pending,
        List.filter_cons_of_neg (by simp [TransactionStatus.isCommitted]),
        List.filter_cons_of_neg (by simp [pending, TransactionStatus.isCommitted])]
      exact inductionHypothesis
    · rw [if_neg selected, List.filter_cons, List.filter_cons, inductionHypothesis]

/-- A discard that selects no pending transaction changes nothing. -/
theorem discardTransactionWithPredicate_of_none {tracker : TransactionUpdateTracker}
    {predicate : TransactionRecord → Bool} (cause : DiscardCause)
    (none : ∀ (id : TransactionId) (record : TransactionRecord),
      tracker.transactions[id]? = some record → record.status = .pending →
        predicate record = false) :
    tracker.discardTransactionWithPredicate predicate cause = tracker := by
  have unselected : ∀ (id : TransactionId) (record : TransactionRecord),
      tracker.transactions[id]? = some record → isDiscardedBy predicate record = false := by
    intro id record tracked
    by_contra selected
    obtain ⟨pending, picked⟩ :=
      (isDiscardedBy_iff predicate record).mp (eq_true_of_ne_false selected)
    rw [none id record tracked pending] at picked
    cases picked
  have pass : tracker.discardPass predicate cause = (tracker, []) := by
    refine Prod.ext ?_ ?_
    · refine congrArg TransactionUpdateTracker.mk (ExtTreeMap.ext_getElem? fun id => ?_)
      rw [ExtTreeMap.getElem?_map]
      cases tracked : tracker.transactions[id]? with
      | none => rfl
      | some record => rw [Option.map_some, if_neg (by rw [unselected id record tracked]; simp)]
    · refine List.map_eq_nil_iff.mpr (List.filter_eq_nil_iff.mpr fun record member => ?_)
      obtain ⟨id, tracked⟩ := (tracker.mem_records_iff record).mp member
      rw [unselected id record tracked]
      exact Bool.false_ne_true
  have returned := tracker.discardWithFuel_pendingCount predicate cause
  rw [discardWithFuel, pass] at returned
  exact (Option.some.inj returned).symm

end TransactionUpdateTracker

/-! ### One note -/

/-- The first of the committed transactions that is the consumer of the note. -/
def committedConsumer (committed : List TransactionRecord) (record : InputNoteRecord) :
    Option TransactionRecord :=
  committed.find? fun transaction => record.state.consumerTransactionId = some transaction.id

/-- How a note is consumed by its nullifier: a note that was consumed keeps its consumer, and
another is consumed by its committed consumer, or externally when it has none. -/
structure SettledFrom (committed : List TransactionRecord) (order : Option ℕ)
    (before after : InputNoteRecord) : Prop where
  details : after.details = before.details
  consumed : after.state.isConsumed = true
  ordered : after.setConsumedTxOrder order = after
  kept : before.state.isConsumed = true →
    after.state.consumerTransactionId = before.state.consumerTransactionId
  locally : ∀ consumer, before.state.isConsumed = false →
    committedConsumer committed before = some consumer →
      after.state.consumerTransactionId = some consumer.id
  externally : before.state.isConsumed = false → committedConsumer committed before = none →
    ∃ state, after.state = .consumedExternal state

namespace InputNoteState

theorem setConsumedTxOrder_isConsumed (state : InputNoteState) (order : Option ℕ) :
    (state.setConsumedTxOrder order).isConsumed = state.isConsumed := by
  cases state <;> rfl

theorem setConsumedTxOrder_consumer (state : InputNoteState) (order : Option ℕ) :
    (state.setConsumedTxOrder order).consumerTransactionId = state.consumerTransactionId := by
  cases state <;> rfl

theorem setConsumedTxOrder_twice (state : InputNoteState) (order : Option ℕ) :
    (state.setConsumedTxOrder order).setConsumedTxOrder order =
      state.setConsumedTxOrder order := by
  cases state <;> rfl

/-- A consumed note without a consumer was consumed externally. -/
theorem external_of_consumed {state : InputNoteState} (consumed : state.isConsumed = true)
    (noConsumer : state.consumerTransactionId = none) :
    ∃ external, state = .consumedExternal external := by
  cases state with
  | consumedExternal external => exact ⟨external, rfl⟩
  | consumedAuthenticatedLocal _ => cases noConsumer
  | consumedUnauthenticatedLocal _ => cases noConsumer
  | _ => cases consumed

theorem consumedExternally_of_consumed {state : InputNoteState} (height : BlockNumber)
    (consumed : state.isConsumed = true) : state.consumedExternally height = .ok none := by
  cases state <;> first | rfl | cases consumed

theorem consumedExternally_of_unspent {state : InputNoteState} (height : BlockNumber)
    (unspent : state.isConsumed = false) :
    state.consumedExternally height = .ok (some (.consumedExternal ⟨height, none⟩)) := by
  cases state <;> first | rfl | cases unspent

/-- A consumed note refuses the commitment of a transaction. -/
theorem transactionCommitted_of_consumed {state : InputNoteState} (consumer : TransactionId)
    (height : BlockNumber) (consumed : state.isConsumed = true) :
    ∃ error, state.transactionCommitted consumer height = .error error := by
  cases state <;> first | exact ⟨_, rfl⟩ | cases consumed

/-- The commitment of its consumer moves a note that is not consumed. -/
theorem transactionCommitted_of_consumer {state : InputNoteState} {consumer : TransactionId}
    (height : BlockNumber) (unspent : state.isConsumed = false)
    (consumes : state.consumerTransactionId = some consumer) :
    ∃ next, state.transactionCommitted consumer height = .ok (some next) ∧
      next.isConsumed = true ∧ next.consumerTransactionId = some consumer := by
  cases state with
  | processingAuthenticated processing =>
    cases consumes
    exact ⟨_, if_neg fun different => different rfl, rfl, rfl⟩
  | processingUnauthenticated processing =>
    cases consumes
    exact ⟨_, if_neg fun different => different rfl, rfl, rfl⟩
  | consumedAuthenticatedLocal _ => cases unspent
  | consumedUnauthenticatedLocal _ => cases unspent
  | _ => cases consumes

end InputNoteState

section Event

variable {committed : List TransactionRecord} {record : InputNoteRecord}

theorem committedConsumer_eq_some {consumer : TransactionRecord}
    (found : committedConsumer committed record = some consumer) :
    consumer ∈ committed ∧ record.state.consumerTransactionId = some consumer.id := by
  unfold committedConsumer at found
  exact ⟨List.mem_of_find?_eq_some found, by simpa using List.find?_some found⟩

theorem committedConsumer_congr {other : InputNoteRecord}
    (same : other.state.consumerTransactionId = record.state.consumerTransactionId) :
    committedConsumer committed other = committedConsumer committed record := by
  unfold committedConsumer
  rw [same]

variable [NoteLibrary] {nullifierUpdate : NullifierUpdate}

/-- The nullifier of a note is refused when the note is consumed and its consumer committed. -/
theorem receiveNullifier_refused (allCommitted : ∀ transaction ∈ committed,
      transaction.status.isCommitted = true) (consumed : record.state.isConsumed = true)
    (hasConsumer : committedConsumer committed record ≠ none) :
    ∃ error, receiveNullifier nullifierUpdate committed record = .error error := by
  obtain ⟨consumer, found⟩ := Option.ne_none_iff_exists'.mp hasConsumer
  obtain ⟨member, consumes⟩ := committedConsumer_eq_some found
  obtain ⟨block, timestamp, status⟩ :=
    consumer.status.isCommitted_iff.mp (allCommitted consumer member)
  obtain ⟨error, refused⟩ :=
    InputNoteState.transactionCommitted_of_consumed consumer.id block consumed
  refine ⟨.noteRecordConversionError error, ?_⟩
  unfold receiveNullifier
  rw [show committed.find? _ = some consumer from found]
  simp only [status, InputNoteRecord.transactionCommitted, refused, InputNoteRecord.advance,
    recordEvent, recordChange, Except.map]

/-- Otherwise the note settles. -/
theorem receiveNullifier_settles (allCommitted : ∀ transaction ∈ committed,
      transaction.status.isCommitted = true) (order : Option ℕ)
    (nullified : record.nullifier = nullifierUpdate.nullifier)
    (accepted : record.state.isConsumed = true → committedConsumer committed record = none) :
    ∃ note, receiveNullifier nullifierUpdate committed record = .ok note ∧
      SettledFrom committed order record (note.setConsumedTxOrder order) ∧
      (record.state.isConsumed = true → note = record) := by
  unfold receiveNullifier
  cases found : committedConsumer committed record with
  | some consumer =>
    obtain ⟨member, consumes⟩ := committedConsumer_eq_some found
    obtain ⟨block, timestamp, status⟩ :=
      consumer.status.isCommitted_iff.mp (allCommitted consumer member)
    have unspent : record.state.isConsumed = false := by
      by_contra consumed
      rw [accepted (eq_true_of_ne_false consumed)] at found
      cases found
    obtain ⟨next, moved, consumed, keepsConsumer⟩ :=
      InputNoteState.transactionCommitted_of_consumer block unspent consumes
    refine ⟨{ record with state := next }, ?_, ⟨rfl, ?_, ?_, ?_, ?_, ?_⟩, ?_⟩
    · rw [show committed.find? _ = some consumer from found]
      simp only [status, InputNoteRecord.transactionCommitted, moved, InputNoteRecord.advance,
        recordEvent, recordChange, Except.map]
    · exact (InputNoteState.setConsumedTxOrder_isConsumed next order).trans consumed
    · unfold InputNoteRecord.setConsumedTxOrder
      rw [InputNoteState.setConsumedTxOrder_twice]
    · exact fun spent => absurd (unspent.symm.trans spent) Bool.false_ne_true
    · rintro other - same
      obtain rfl := Option.some.inj (found.symm.trans same)
      exact (InputNoteState.setConsumedTxOrder_consumer next order).trans keepsConsumer
    · rintro - none
      cases found.symm.trans none
    · exact fun spent => absurd (unspent.symm.trans spent) Bool.false_ne_true
  | none =>
    rw [show committed.find? _ = none from found]
    simp only [InputNoteRecord.consumedExternally, nullified, ne_eq, not_true_eq_false, if_false]
    by_cases spent : record.state.isConsumed = true
    · refine ⟨record, ?_, ⟨rfl, ?_, ?_, ?_, ?_, ?_⟩, fun _ => rfl⟩
      · rw [InputNoteState.consumedExternally_of_consumed _ spent]
        rfl
      · exact (InputNoteState.setConsumedTxOrder_isConsumed _ order).trans spent
      · unfold InputNoteRecord.setConsumedTxOrder
        rw [InputNoteState.setConsumedTxOrder_twice]
      · exact fun _ => InputNoteState.setConsumedTxOrder_consumer _ order
      · exact fun _ unspent => absurd (spent.symm.trans unspent) Bool.true_eq_false.mp
      · exact fun unspent => absurd (spent.symm.trans unspent) Bool.true_eq_false.mp
    · have unspent := eq_false_of_ne_true spent
      refine ⟨{ record with state := .consumedExternal ⟨nullifierUpdate.blockNum, none⟩ }, ?_,
        ⟨rfl, rfl, rfl, fun consumed => absurd consumed spent, ?_, fun _ _ => ⟨_, rfl⟩⟩,
        fun consumed => absurd consumed spent⟩
      · rw [InputNoteState.consumedExternally_of_unspent _ unspent]
        rfl
      · rintro other - same
        cases found.symm.trans same

end Event

/-- Settling twice is settling. -/
theorem SettledFrom.trans {committed : List TransactionRecord} {order : Option ℕ}
    {first second third : InputNoteRecord} (one : SettledFrom committed order first second)
    (two : SettledFrom committed order second third) : SettledFrom committed order first third where
  details := two.details.trans one.details
  consumed := two.consumed
  ordered := two.ordered
  kept consumed := (two.kept one.consumed).trans (one.kept consumed)
  locally consumer unspent found :=
    (two.kept one.consumed).trans (one.locally consumer unspent found)
  externally unspent none := by
    obtain ⟨state, external⟩ := one.externally unspent none
    have noConsumer := two.kept one.consumed
    rw [external] at noConsumer
    exact InputNoteState.external_of_consumed two.consumed noConsumer

/-- Settling does not change whether a committed transaction is the consumer. -/
theorem SettledFrom.committedConsumer_eq {committed : List TransactionRecord} {order : Option ℕ}
    {before after : InputNoteRecord} (settled : SettledFrom committed order before after) :
    (committedConsumer committed after).isSome = (committedConsumer committed before).isSome := by
  by_cases consumed : before.state.isConsumed = true
  · rw [committedConsumer_congr (settled.kept consumed)]
  · have unspent := eq_false_of_ne_true consumed
    cases found : committedConsumer committed before with
    | some consumer =>
      have same := (settled.locally consumer unspent found).trans
        (committedConsumer_eq_some found).2.symm
      rw [committedConsumer_congr same, found]
    | none =>
      obtain ⟨state, external⟩ := settled.externally unspent found
      refine Option.isSome_eq_false_iff.mpr (Option.isNone_iff_eq_none.mpr ?_)
      refine List.find?_eq_none.mpr fun transaction _ => ?_
      rw [external]
      exact fun none => by cases of_decide_eq_true none

/-- A note ends with a consumer exactly when the consumer it had is committed. -/
theorem SettledFrom.consumer_iff {committed : List TransactionRecord} {order : Option ℕ}
    {before after : InputNoteRecord} (settled : SettledFrom committed order before after)
    (unspent : before.state.isConsumed = false) (id : TransactionId) :
    after.state.consumerTransactionId = some id ↔
      before.state.consumerTransactionId = some id ∧
        ∃ transaction ∈ committed, transaction.id = id := by
  cases found : committedConsumer committed before with
  | some consumer =>
    obtain ⟨member, consumes⟩ := committedConsumer_eq_some found
    rw [settled.locally consumer unspent found, consumes]
    refine ⟨fun same => ⟨same, consumer, member, Option.some.inj same⟩, And.left⟩
  | none =>
    obtain ⟨state, external⟩ := settled.externally unspent found
    rw [external]
    refine ⟨fun none => (by cases none), ?_⟩
    rintro ⟨consumes, transaction, member, rfl⟩
    exact absurd (decide_eq_true consumes) (List.find?_eq_none.mp found transaction member)

/-- Replacing the record of a marked note by itself changes nothing. -/
theorem NoteUpdate.setInner_of_updated {record : Type} {update : NoteUpdate record}
    (marked : update.isUpdated = true) : update.setInner update.note = update := by
  obtain ⟨note, updateType⟩ := update
  cases updateType <;> first | rfl | cases marked

/-! ### One nullifier -/

namespace NoteUpdateTracker

variable {tracker : NoteUpdateTracker} {noteId : NoteId}

theorem changeInputNote_of_ok {event : InputNoteRecord → Except ClientError InputNoteRecord}
    {update : InputNoteUpdate} {note : InputNoteRecord}
    (found : tracker.inputNotes[noteId]? = some update) (done : event update.note = .ok note) :
    changeInputNote noteId event tracker = .ok () { tracker with
      inputNotes := tracker.inputNotes.insert noteId (update.setInner note) } := by
  simp only [changeInputNote, found, NoteUpdate.apply, done]

theorem changeInputNote_of_error {event : InputNoteRecord → Except ClientError InputNoteRecord}
    {update : InputNoteUpdate} {error : ClientError}
    (found : tracker.inputNotes[noteId]? = some update)
    (failed : event update.note = .error error) :
    ∃ next, changeInputNote noteId event tracker = .error error next := by
  simp only [changeInputNote, found, NoteUpdate.apply, failed]
  exact ⟨_, rfl⟩

theorem changeOutputNote_of_ok {event : OutputNoteRecord → Except ClientError OutputNoteRecord}
    {update : OutputNoteUpdate} {note : OutputNoteRecord}
    (found : tracker.outputNotes[noteId]? = some update) (done : event update.note = .ok note) :
    changeOutputNote noteId event tracker = .ok () { tracker with
      outputNotes := tracker.outputNotes.insert noteId (update.setInner note) } := by
  simp only [changeOutputNote, found, NoteUpdate.apply, done]

variable [NoteLibrary] {nullifierUpdate : NullifierUpdate} {committed : List TransactionRecord}

/-- The input note that a nullifier leads to takes the event and then its order. -/
theorem nullifyInputNote_of_ok {update : InputNoteUpdate} {note : InputNoteRecord}
    (leads : tracker.inputNotesByNullifier[nullifierUpdate.nullifier]? = some noteId)
    (found : tracker.inputNotes[noteId]? = some update)
    (done : receiveNullifier nullifierUpdate committed update.note = .ok note) :
    nullifyInputNote nullifierUpdate committed tracker = .ok () { tracker with
      inputNotes := tracker.inputNotes.insert noteId (update.setInner
        (note.setConsumedTxOrder tracker.nullifierOrder[nullifierUpdate.nullifier]?)) } := by
  simp only [nullifyInputNote, leads]
  rw [bind_of_result_ok (changeInputNote_of_ok found done)]
  have again : ({ tracker with
      inputNotes := tracker.inputNotes.insert noteId (update.setInner note) } :
        NoteUpdateTracker).inputNotes[noteId]? = some (update.setInner note) :=
    ExtTreeMap.getElem?_insert_self
  have ordered : (fun record : InputNoteRecord => (.ok (record.setConsumedTxOrder
      tracker.nullifierOrder[nullifierUpdate.nullifier]?) : Except ClientError InputNoteRecord))
        (update.setInner note).note = .ok (note.setConsumedTxOrder
          tracker.nullifierOrder[nullifierUpdate.nullifier]?) := rfl
  refine (changeInputNote_of_ok again ordered).trans ?_
  rw [setInner_setInner]
  refine congrArg (EStateM.Result.ok ()) ?_
  refine congrArg (fun notes => { tracker with inputNotes := notes }) ?_
  refine ExtTreeMap.ext_getElem? fun other => ?_
  simp only [ExtTreeMap.getElem?_insert]
  split <;> rfl

theorem nullifyInputNote_of_error {update : InputNoteUpdate} {error : ClientError}
    (leads : tracker.inputNotesByNullifier[nullifierUpdate.nullifier]? = some noteId)
    (found : tracker.inputNotes[noteId]? = some update)
    (failed : receiveNullifier nullifierUpdate committed update.note = .error error) :
    ∃ next, nullifyInputNote nullifierUpdate committed tracker = .error error next := by
  simp only [nullifyInputNote, leads]
  obtain ⟨next, changed⟩ := changeInputNote_of_error found failed
  exact ⟨next, bind_eq_result_error.mpr (Or.inl changed)⟩

/-- The nullifier of an output note is always received: the index only leads to notes with a
known recipient. -/
theorem nullifyOutputNote_ok (registered : Registered OutputNoteRecord.id
      OutputNoteRecord.nullifier tracker.outputNotes tracker.outputNotesByNullifier) :
    tracker.outputNotesByNullifier[nullifierUpdate.nullifier]? = none ∧
      nullifyOutputNote nullifierUpdate tracker = .ok () tracker ∨
    ∃ noteId update note,
      tracker.outputNotesByNullifier[nullifierUpdate.nullifier]? = some noteId ∧
      tracker.outputNotes[noteId]? = some update ∧ note.state.isConsumed = true ∧
      (update.note.state.isConsumed = true → note = update.note) ∧
      nullifyOutputNote nullifierUpdate tracker = .ok () { tracker with
        outputNotes := tracker.outputNotes.insert noteId (update.setInner note) } := by
  cases leads : tracker.outputNotesByNullifier[nullifierUpdate.nullifier]? with
  | none =>
    refine Or.inl ⟨rfl, ?_⟩
    simp only [nullifyOutputNote, leads]
  | some noteId =>
    obtain ⟨update, found, has⟩ := registered.leads _ _ leads
    obtain ⟨recipient, known⟩ : ∃ recipient, update.note.state.recipient = some recipient := by
      cases known : update.note.state.recipient with
      | some recipient => exact ⟨recipient, rfl⟩
      | none =>
        rw [OutputNoteRecord.nullifier, known] at has
        cases has
    have event : ∃ note, recordEvent (update.note.nullifierReceived nullifierUpdate.nullifier
        nullifierUpdate.blockNum) = .ok note ∧ note.state.isConsumed = true ∧
          (update.note.state.isConsumed = true → note = update.note) := by
      unfold OutputNoteRecord.nullifierReceived
      rw [has, Option.any_some, if_neg (by simp)]
      cases state : update.note.state with
      | expectedPartial =>
        rw [state] at known
        cases known
      | committedPartial proof =>
        rw [state] at known
        cases known
      | expectedFull recipient =>
        exact ⟨_, rfl, rfl, fun consumed => by cases consumed⟩
      | committedFull recipient proof =>
        exact ⟨_, rfl, rfl, fun consumed => by cases consumed⟩
      | consumed height recipient =>
        refine ⟨update.note, rfl, ?_, fun _ => rfl⟩
        rw [state]
        rfl
    obtain ⟨note, done, consumed, same⟩ := event
    refine Or.inr ⟨noteId, update, note, rfl, found, consumed, same, ?_⟩
    simp only [nullifyOutputNote, leads]
    exact changeOutputNote_of_ok found done

/-- What the nullifier does to the output notes. -/
theorem nullifyOutputNote_settles (registered : Registered OutputNoteRecord.id
      OutputNoteRecord.nullifier tracker.outputNotes tracker.outputNotesByNullifier) :
    ∃ outputs, nullifyOutputNote nullifierUpdate tracker =
        .ok () { tracker with outputNotes := outputs } ∧
      (∀ noteId : NoteId,
        tracker.outputNotesByNullifier[nullifierUpdate.nullifier]? = some noteId →
        ∃ later, outputs[noteId]? = some later ∧ later.note.state.isConsumed = true ∧
          later.isUpdated = true) ∧
      ∀ (noteId : NoteId) (earlier : OutputNoteUpdate),
        tracker.outputNotes[noteId]? = some earlier → earlier.note.state.isConsumed = true →
        earlier.isUpdated = true → outputs[noteId]? = some earlier := by
  rcases nullifyOutputNote_ok registered with
    ⟨absent, same⟩ | ⟨target, update, note, leads, found, consumed, stays, done⟩
  · refine ⟨tracker.outputNotes, same, fun noteId leads => ?_, fun _ _ found _ _ => found⟩
    rw [absent] at leads
    cases leads
  · refine ⟨_, done, fun noteId leadsTo => ?_, fun noteId earlier foundAt spent marked => ?_⟩
    · obtain rfl := Option.some.inj (leads.symm.trans leadsTo)
      exact ⟨_, ExtTreeMap.getElem?_insert_self, consumed, isUpdated_setInner update note⟩
    · rw [ExtTreeMap.getElem?_insert]
      split
      · rename_i same
        obtain rfl := Std.compare_eq_iff_eq.mp same
        obtain rfl := Option.some.inj (found.symm.trans foundAt)
        rw [stays spent, setInner_of_updated marked]
      · exact foundAt

end NoteUpdateTracker

namespace TransactionUpdateTracker

theorem run_nullified_committedTransactions (tracker : TransactionUpdateTracker)
    (nullifiers : List Nullifier) :
    (tracker.run (nullifiers.map .inputNoteNullified)).committedTransactions =
      tracker.committedTransactions := by
  induction nullifiers generalizing tracker with
  | nil => rfl
  | cons nullifier rest inductionHypothesis =>
    exact (inductionHypothesis _).trans
      (tracker.discardTransactionWithPredicate_committedTransactions _ _)

end TransactionUpdateTracker

namespace StateSync

variable [NoteLibrary]

/-- The notes with the nullifier can take it: none is consumed and has a committed consumer. -/
def Accepts (current : StateSyncUpdate) (nullifier : Nullifier) : Prop :=
  ∀ (noteId : NoteId) (update : InputNoteUpdate),
    current.noteUpdates.inputNotes[noteId]? = some update → update.note.nullifier = nullifier →
    update.note.state.isConsumed = true →
      committedConsumer current.transactionUpdates.committedTransactions update.note = none

/-- What the received nullifiers do to the trackers of a sync. -/
structure Processed (received : List Nullifier) (before after : StateSyncUpdate) : Prop where
  consistent : Consistent after.noteUpdates
  settled : ∀ (noteId : NoteId) (earlier : InputNoteUpdate),
    before.noteUpdates.inputNotes[noteId]? = some earlier → earlier.note.nullifier ∈ received →
    ∃ later, after.noteUpdates.inputNotes[noteId]? = some later ∧
      SettledFrom before.transactionUpdates.committedTransactions
        before.noteUpdates.nullifierOrder[earlier.note.nullifier]? earlier.note later.note ∧
      later = earlier.setInner later.note
  unreceivedInput : ∀ noteId : NoteId,
    (∀ earlier, before.noteUpdates.inputNotes[noteId]? = some earlier →
      earlier.note.nullifier ∉ received) →
    after.noteUpdates.inputNotes[noteId]? = before.noteUpdates.inputNotes[noteId]?
  unreceivedOutput : ∀ noteId : NoteId,
    (∀ earlier, before.noteUpdates.outputNotes[noteId]? = some earlier →
      ∀ nullifier ∈ received, earlier.note.nullifier ≠ some nullifier) →
    after.noteUpdates.outputNotes[noteId]? = before.noteUpdates.outputNotes[noteId]?
  settledOutput : ∀ nullifier ∈ received, ∀ noteId : NoteId,
    before.noteUpdates.outputNotesByNullifier[nullifier]? = some noteId →
    ∃ later, after.noteUpdates.outputNotes[noteId]? = some later ∧
      later.note.state.isConsumed = true ∧ later.isUpdated = true
  keptOutput : ∀ (noteId : NoteId) (earlier : OutputNoteUpdate),
    before.noteUpdates.outputNotes[noteId]? = some earlier →
    earlier.note.state.isConsumed = true → earlier.isUpdated = true →
    after.noteUpdates.outputNotes[noteId]? = some earlier
  outputIndex : after.noteUpdates.outputNotesByNullifier =
    before.noteUpdates.outputNotesByNullifier
  order : after.noteUpdates.nullifierOrder = before.noteUpdates.nullifierOrder
  transactions : after.transactionUpdates =
    before.transactionUpdates.run (received.map .inputNoteNullified)

theorem Processed.nil {current : StateSyncUpdate} (consistent : Consistent current.noteUpdates) :
    Processed [] current current where
  consistent := consistent
  settled _ _ _ member := nomatch member
  unreceivedInput _ _ := rfl
  unreceivedOutput _ _ := rfl
  settledOutput _ member := nomatch member
  keptOutput _ _ found _ _ := found
  outputIndex := rfl
  order := rfl
  transactions := rfl

theorem Processed.committedTransactions {received : List Nullifier}
    {before after : StateSyncUpdate} (processed : Processed received before after) :
    after.transactionUpdates.committedTransactions =
      before.transactionUpdates.committedTransactions := by
  rw [processed.transactions]
  exact TransactionUpdateTracker.run_nullified_committedTransactions _ received

/-- The note that is found after it was not received is the one from before. -/
theorem Processed.input_of_unreceived {received : List Nullifier} {before after : StateSyncUpdate}
    (processed : Processed received before after) {noteId : NoteId} {earlier : InputNoteUpdate}
    (found : before.noteUpdates.inputNotes[noteId]? = some earlier)
    (unreceived : earlier.note.nullifier ∉ received) :
    after.noteUpdates.inputNotes[noteId]? = some earlier := by
  rw [processed.unreceivedInput noteId fun other foundOther => ?_, found]
  rwa [← Option.some.inj (found.symm.trans foundOther)]

/-- Nullifiers are processed one after the other. -/
theorem Processed.trans {first second : List Nullifier} {before middle after : StateSyncUpdate}
    (one : Processed first before middle) (two : Processed second middle after) :
    Processed (first ++ second) before after where
  consistent := two.consistent
  settled noteId earlier found member := by
    have late : ∀ seen, middle.noteUpdates.inputNotes[noteId]? = some seen →
        seen.note.nullifier ∈ second → ∃ later,
          after.noteUpdates.inputNotes[noteId]? = some later ∧
          SettledFrom before.transactionUpdates.committedTransactions
            before.noteUpdates.nullifierOrder[seen.note.nullifier]? seen.note later.note ∧
          later = seen.setInner later.note := by
      intro seen foundSeen received
      have settled := two.settled noteId seen foundSeen received
      rwa [one.committedTransactions, one.order] at settled
    by_cases early : earlier.note.nullifier ∈ first
    · obtain ⟨seen, foundSeen, settled, marked⟩ := one.settled noteId earlier found early
      have sameNullifier : seen.note.nullifier = earlier.note.nullifier :=
        congrArg NoteDetails.nullifier settled.details
      by_cases again : seen.note.nullifier ∈ second
      · obtain ⟨later, foundLater, settledAgain, markedAgain⟩ := late seen foundSeen again
        rw [sameNullifier] at settledAgain
        refine ⟨later, foundLater, settled.trans settledAgain, ?_⟩
        rw [marked, setInner_setInner] at markedAgain
        exact markedAgain
      · exact ⟨seen, two.input_of_unreceived foundSeen again, settled, marked⟩
    · have seen := one.input_of_unreceived found early
      exact late earlier seen ((List.mem_append.mp member).resolve_left early)
  unreceivedInput noteId unreceived := by
    have same := one.unreceivedInput noteId fun earlier found member =>
      unreceived earlier found (List.mem_append_left second member)
    refine (two.unreceivedInput noteId fun earlier found member => ?_).trans same
    rw [same] at found
    exact unreceived earlier found (List.mem_append_right first member)
  unreceivedOutput noteId unreceived := by
    have same := one.unreceivedOutput noteId fun earlier found nullifier member =>
      unreceived earlier found nullifier (List.mem_append_left second member)
    refine (two.unreceivedOutput noteId fun earlier found nullifier member => ?_).trans same
    rw [same] at found
    exact unreceived earlier found nullifier (List.mem_append_right first member)
  settledOutput nullifier member noteId leads := by
    rcases List.mem_append.mp member with early | late
    · obtain ⟨seen, found, consumed, marked⟩ := one.settledOutput nullifier early noteId leads
      exact ⟨seen, two.keptOutput noteId seen found consumed marked, consumed, marked⟩
    · rw [← one.outputIndex] at leads
      exact two.settledOutput nullifier late noteId leads
  keptOutput noteId earlier found consumed marked :=
    two.keptOutput noteId earlier (one.keptOutput noteId earlier found consumed marked) consumed
      marked
  outputIndex := two.outputIndex.trans one.outputIndex
  order := two.order.trans one.order
  transactions := by
    rw [two.transactions, one.transactions, List.map_append, TransactionUpdateTracker.run_append]

/-! ### One step -/

section Step

variable {current : StateSyncUpdate} {nullifierUpdate : NullifierUpdate}

omit [NoteLibrary] in
theorem committed_of_mem (transactions : TransactionUpdateTracker) :
    ∀ transaction ∈ transactions.committedTransactions, transaction.status.isCommitted = true :=
  fun _ member => (List.mem_filter.mp member).2

/-- The note a nullifier leads to is the only tracked note with it. -/
theorem eq_of_nullifier (collisionFree : NullifierCollisionFree)
    (consistent : Consistent current.noteUpdates) {first second : NoteId}
    {one two : InputNoteUpdate} (foundOne : current.noteUpdates.inputNotes[first]? = some one)
    (foundTwo : current.noteUpdates.inputNotes[second]? = some two)
    (same : one.note.nullifier = two.note.nullifier) : first = second := by
  rw [← consistent.inputs.keyed first one foundOne, ← consistent.inputs.keyed second two foundTwo]
  exact collisionFree.id_eq same

/-- A note that cannot take its nullifier makes the processing fail. -/
theorem applyNullifier_of_not_accepts (collisionFree : NullifierCollisionFree)
    (consistent : Consistent current.noteUpdates)
    (refuses : ¬Accepts current nullifierUpdate.nullifier) :
    ∃ error, applyNullifier current nullifierUpdate = .error error := by
  unfold Accepts at refuses
  push Not at refuses
  obtain ⟨noteId, update, found, nullified, consumed, hasConsumer⟩ := refuses
  obtain ⟨target, leads⟩ := Option.isSome_iff_exists.mp (ExtTreeMap.mem_iff_isSome_getElem?.mp
    (consistent.inputs.indexed noteId update nullifierUpdate.nullifier found
      (congrArg some nullified)))
  obtain ⟨other, foundOther, has⟩ := consistent.inputs.leads _ _ leads
  obtain rfl := eq_of_nullifier collisionFree consistent found foundOther
    (nullified.trans (Option.some.inj has).symm)
  obtain ⟨error, failed⟩ := @receiveNullifier_refused _ _ _ nullifierUpdate
    (committed_of_mem current.transactionUpdates) consumed hasConsumer
  obtain ⟨next, refused⟩ := nullifyInputNote_of_error leads found failed
  refine ⟨error, ?_⟩
  have whole : applyNullifiersStateTransitions nullifierUpdate
      current.transactionUpdates.committedTransactions current.noteUpdates = .error error next :=
    bind_eq_result_error.mpr (Or.inl refused)
  unfold applyNullifier
  rw [whole]

/-- The input notes after their nullifier was received. -/
theorem nullifyInputNote_settles (collisionFree : NullifierCollisionFree)
    (consistent : Consistent current.noteUpdates)
    (accepts : Accepts current nullifierUpdate.nullifier) :
    ∃ inputs, nullifyInputNote nullifierUpdate current.transactionUpdates.committedTransactions
        current.noteUpdates = .ok () { current.noteUpdates with inputNotes := inputs } ∧
      ∀ (noteId : NoteId) (earlier : InputNoteUpdate),
        current.noteUpdates.inputNotes[noteId]? = some earlier →
        earlier.note.nullifier = nullifierUpdate.nullifier →
        ∃ later, inputs[noteId]? = some later ∧
          SettledFrom current.transactionUpdates.committedTransactions
            current.noteUpdates.nullifierOrder[earlier.note.nullifier]? earlier.note later.note ∧
          later = earlier.setInner later.note := by
  cases leads : current.noteUpdates.inputNotesByNullifier[nullifierUpdate.nullifier]? with
  | none =>
    refine ⟨current.noteUpdates.inputNotes, ?_, fun noteId earlier found nullified => ?_⟩
    · simp only [nullifyInputNote, leads]
    · have indexed := consistent.inputs.indexed noteId earlier nullifierUpdate.nullifier found
        (congrArg some nullified)
      rw [ExtTreeMap.mem_iff_isSome_getElem?, leads] at indexed
      cases indexed
  | some target =>
    obtain ⟨update, found, has⟩ := consistent.inputs.leads _ _ leads
    have nullified : update.note.nullifier = nullifierUpdate.nullifier := Option.some.inj has
    obtain ⟨note, done, settled, _⟩ := receiveNullifier_settles
      (committed_of_mem current.transactionUpdates)
      current.noteUpdates.nullifierOrder[nullifierUpdate.nullifier]? nullified
      (accepts target update found nullified)
    refine ⟨_, nullifyInputNote_of_ok leads found done, fun noteId earlier foundAt same => ?_⟩
    obtain rfl := eq_of_nullifier collisionFree consistent found foundAt (nullified.trans same.symm)
    obtain rfl := Option.some.inj (found.symm.trans foundAt)
    rw [same]
    exact ⟨_, ExtTreeMap.getElem?_insert_self, settled, rfl⟩

/-- A nullifier that is accepted is processed. -/
theorem applyNullifier_of_accepts (collisionFree : NullifierCollisionFree)
    (consistent : Consistent current.noteUpdates)
    (accepts : Accepts current nullifierUpdate.nullifier) :
    ∃ next, applyNullifier current nullifierUpdate = .ok next ∧
      Processed [nullifierUpdate.nullifier] current next := by
  obtain ⟨inputs, received, settles⟩ :=
    nullifyInputNote_settles collisionFree consistent accepts
  obtain ⟨outputs, receivedOutput, settlesOutput, keepsOutput⟩ :=
    @nullifyOutputNote_settles { current.noteUpdates with inputNotes := inputs } _ nullifierUpdate
      consistent.outputs
  have whole : applyNullifiersStateTransitions nullifierUpdate
      current.transactionUpdates.committedTransactions current.noteUpdates =
        .ok () { current.noteUpdates with inputNotes := inputs, outputNotes := outputs } :=
    (bind_of_result_ok received _).trans receivedOutput
  have call : current.noteUpdates.applyCall (.nullifiedNote nullifierUpdate
      current.transactionUpdates.committedTransactions) =
        { current.noteUpdates with inputNotes := inputs, outputNotes := outputs } :=
    congrArg finalState whole
  refine ⟨⟨current.blockNum,
    { current.noteUpdates with inputNotes := inputs, outputNotes := outputs },
    current.transactionUpdates.applyInputNoteNullified nullifierUpdate.nullifier⟩, ?_, ?_⟩
  · unfold applyNullifier
    rw [whole]
  · refine ⟨?_, ?_, ?_, ?_, ?_, keepsOutput, rfl, rfl, rfl⟩
    · rw [← call]
      obtain ⟨_, _, _, different, _⟩ | ⟨_, different, _⟩ | ⟨_, _, different, _⟩ |
        ⟨_, _, _, touches⟩ | ⟨done, _⟩ := applyCall_cases current.noteUpdates
          (.nullifiedNote nullifierUpdate current.transactionUpdates.committedTransactions)
      · cases different
      · cases different
      · cases different
      · exact consistent.touch touches
      · rw [done]
        exact consistent
    · intro noteId earlier found member
      exact settles noteId earlier found (List.mem_singleton.mp member)
    · intro noteId unreceived
      refine (congrArg (fun tracker => tracker.inputNotes[noteId]?) call.symm).trans
        (applyCall_inputNotes_unaddressed consistent fun addressed => ?_)
      obtain ⟨earlier, found, has⟩ := Option.map_eq_some_iff.mp addressed
      exact unreceived earlier found (List.mem_singleton.mpr has)
    · intro noteId unreceived
      refine (congrArg (fun tracker => tracker.outputNotes[noteId]?) call.symm).trans
        (applyCall_outputNotes_unaddressed consistent fun addressed => ?_)
      obtain ⟨earlier, found, has⟩ := Option.bind_eq_some_iff.mp addressed
      exact unreceived earlier found _ (List.mem_singleton_self _) has
    · intro nullifier member noteId leads
      rw [List.mem_singleton.mp member] at leads
      exact settlesOutput noteId leads

end Step

/-! ### The whole list -/

/-- A committed transaction is the consumer of a note with the nullifier. -/
def HasCommittedConsumer (current : StateSyncUpdate) (nullifier : Nullifier) : Prop :=
  ∃ (noteId : NoteId) (update : InputNoteUpdate),
    current.noteUpdates.inputNotes[noteId]? = some update ∧ update.note.nullifier = nullifier ∧
    (committedConsumer current.transactionUpdates.committedTransactions update.note).isSome = true

/-- No nullifier of a note that was consumed by a committed transaction is received, and none
of a note with a committed consumer is received twice. -/
structure Admits (current : StateSyncUpdate) (nullifiers : List Nullifier) : Prop where
  accepts : ∀ nullifier ∈ nullifiers, Accepts current nullifier
  once : nullifiers.Pairwise fun earlier later =>
    earlier = later → ¬HasCommittedConsumer current earlier

section Run

variable {received : List Nullifier} {before after : StateSyncUpdate}

/-- Where a tracked note comes from. -/
theorem Processed.earlier (processed : Processed received before after) {noteId : NoteId}
    {later : InputNoteUpdate} (found : after.noteUpdates.inputNotes[noteId]? = some later) :
    ∃ earlier, before.noteUpdates.inputNotes[noteId]? = some earlier ∧
      earlier.note.nullifier = later.note.nullifier ∧
      (committedConsumer before.transactionUpdates.committedTransactions later.note).isSome =
        (committedConsumer before.transactionUpdates.committedTransactions
          earlier.note).isSome ∧
      (earlier.note.nullifier ∉ received → later = earlier) ∧
      (earlier.note.nullifier ∈ received → later.note.state.isConsumed = true) := by
  cases foundBefore : before.noteUpdates.inputNotes[noteId]? with
  | none =>
    rw [processed.unreceivedInput noteId (by rw [foundBefore]; exact fun _ none => nomatch none),
      foundBefore] at found
    cases found
  | some earlier =>
    refine ⟨earlier, rfl, ?_⟩
    by_cases member : earlier.note.nullifier ∈ received
    · obtain ⟨other, foundOther, settled, _⟩ := processed.settled noteId earlier foundBefore member
      obtain rfl := Option.some.inj (foundOther.symm.trans found)
      exact ⟨(congrArg NoteDetails.nullifier settled.details).symm, settled.committedConsumer_eq,
        fun absent => absurd member absent, fun _ => settled.consumed⟩
    · obtain rfl := Option.some.inj
        ((processed.input_of_unreceived foundBefore member).symm.trans found)
      exact ⟨rfl, rfl, fun _ => rfl, fun present => absurd present member⟩

theorem Processed.hasCommittedConsumer_iff (processed : Processed received before after)
    (nullifier : Nullifier) :
    HasCommittedConsumer after nullifier ↔ HasCommittedConsumer before nullifier := by
  unfold HasCommittedConsumer
  rw [processed.committedTransactions]
  constructor
  · rintro ⟨noteId, later, found, nullified, isSome⟩
    obtain ⟨earlier, foundBefore, same, sameConsumer, _, _⟩ := processed.earlier found
    exact ⟨noteId, earlier, foundBefore, same.trans nullified, sameConsumer.symm.trans isSome⟩
  · rintro ⟨noteId, earlier, found, nullified, isSome⟩
    by_cases member : earlier.note.nullifier ∈ received
    · obtain ⟨later, foundLater, settled, _⟩ := processed.settled noteId earlier found member
      exact ⟨noteId, later, foundLater,
        (congrArg NoteDetails.nullifier settled.details).trans nullified,
        settled.committedConsumer_eq.trans isSome⟩
    · exact ⟨noteId, earlier, processed.input_of_unreceived found member, nullified, isSome⟩

/-- A received nullifier is accepted again unless a committed transaction is the consumer. -/
theorem Processed.accepts_received_iff (processed : Processed received before after)
    {nullifier : Nullifier} (member : nullifier ∈ received) :
    Accepts after nullifier ↔ ¬HasCommittedConsumer before nullifier := by
  unfold Accepts HasCommittedConsumer
  rw [processed.committedTransactions]
  constructor
  · rintro accepts ⟨noteId, earlier, found, rfl, isSome⟩
    obtain ⟨later, foundLater, settled, _⟩ := processed.settled noteId earlier found member
    have none := accepts noteId later foundLater
      (congrArg NoteDetails.nullifier settled.details) settled.consumed
    have stillSome := settled.committedConsumer_eq.trans isSome
    rw [none] at stillSome
    cases stillSome
  · intro noConsumer noteId later found nullified _
    obtain ⟨earlier, foundBefore, same, sameConsumer, _, _⟩ := processed.earlier found
    refine Option.not_isSome_iff_eq_none.mp fun isSome => noConsumer ?_
    exact ⟨noteId, earlier, foundBefore, same.trans nullified, sameConsumer.symm.trans isSome⟩

/-- Another nullifier is accepted as before. -/
theorem Processed.accepts_unreceived_iff (processed : Processed received before after)
    {nullifier : Nullifier} (absent : nullifier ∉ received) :
    Accepts after nullifier ↔ Accepts before nullifier := by
  unfold Accepts
  rw [processed.committedTransactions]
  constructor
  · rintro accepts noteId earlier found rfl
    exact accepts noteId earlier (processed.input_of_unreceived found absent) rfl
  · rintro accepts noteId later found rfl
    obtain ⟨earlier, foundBefore, same, _, kept, _⟩ := processed.earlier found
    rw [← same] at absent
    obtain rfl := kept absent
    exact accepts noteId later foundBefore rfl

/-- After one nullifier the rest is admitted when the whole list was. -/
theorem Processed.admits_iff {nullifier : Nullifier} {rest : List Nullifier}
    (processed : Processed [nullifier] before after) (accepts : Accepts before nullifier) :
    Admits after rest ↔ Admits before (nullifier :: rest) := by
  have again := processed.accepts_received_iff (List.mem_singleton_self nullifier)
  have others : ∀ other, other ≠ nullifier → (Accepts after other ↔ Accepts before other) :=
    fun other different => processed.accepts_unreceived_iff fun member =>
      different (List.mem_singleton.mp member)
  constructor
  · rintro ⟨accepted, once⟩
    refine ⟨fun other member => ?_, List.pairwise_cons.mpr ⟨?_, once.imp ?_⟩⟩
    · by_cases same : other = nullifier
      · rw [same]
        exact accepts
      · exact (others other same).mp
          (accepted other ((List.mem_cons.mp member).resolve_left same))
    · rintro later member rfl
      exact again.mp (accepted _ member)
    · intro earlier later apart same hasConsumer
      exact apart same ((processed.hasCommittedConsumer_iff earlier).mpr hasConsumer)
  · rintro ⟨accepted, once⟩
    obtain ⟨first, later⟩ := List.pairwise_cons.mp once
    refine ⟨fun other member => ?_, later.imp ?_⟩
    · by_cases same : other = nullifier
      · rw [same] at member ⊢
        exact again.mpr (first nullifier member rfl)
      · exact (others other same).mpr (accepted other (List.mem_cons_of_mem nullifier member))
    · intro earlier later apart same hasConsumer
      exact apart same ((processed.hasCommittedConsumer_iff earlier).mp hasConsumer)

/-- A list of nullifiers is processed to its end exactly when it is admitted. -/
theorem foldlM_applyNullifier_iff (collisionFree : NullifierCollisionFree)
    (updates : List NullifierUpdate) {current : StateSyncUpdate}
    (consistent : Consistent current.noteUpdates) :
    ((∃ result, updates.foldlM applyNullifier current = .ok result) ↔
      Admits current (updates.map NullifierUpdate.nullifier)) ∧
    ∀ result, updates.foldlM applyNullifier current = .ok result →
      Processed (updates.map NullifierUpdate.nullifier) current result := by
  induction updates generalizing current with
  | nil =>
    refine ⟨⟨fun _ => ⟨fun _ member => (nomatch member), List.Pairwise.nil⟩,
      fun _ => ⟨current, rfl⟩⟩, ?_⟩
    rintro result ⟨⟩
    exact Processed.nil consistent
  | cons update rest inductionHypothesis =>
    rw [List.foldlM_cons, List.map_cons]
    by_cases accepts : Accepts current update.nullifier
    · obtain ⟨next, done, processed⟩ :=
        applyNullifier_of_accepts collisionFree consistent accepts
      obtain ⟨returns, result⟩ := inductionHypothesis processed.consistent
      rw [done]
      refine ⟨returns.trans (processed.admits_iff accepts), fun last finished => ?_⟩
      exact processed.trans (result last finished)
    · obtain ⟨error, failed⟩ := applyNullifier_of_not_accepts collisionFree consistent accepts
      rw [failed]
      refine ⟨⟨?_, fun admits => absurd (admits.accepts _ List.mem_cons_self) accepts⟩, ?_⟩
      · rintro ⟨result, ⟨⟩⟩
      · rintro result ⟨⟩

end Run

/-! ### Processing the list again -/

/-- Receiving the nullifier again cannot change anything. -/
structure Quiet (current : StateSyncUpdate) (nullifier : Nullifier) : Prop where
  input : ∀ (noteId : NoteId) (update : InputNoteUpdate),
    current.noteUpdates.inputNotes[noteId]? = some update → update.note.nullifier = nullifier →
    update.note.state.isConsumed = true ∧ update.isUpdated = true ∧
      update.note.setConsumedTxOrder current.noteUpdates.nullifierOrder[nullifier]? = update.note
  output : ∀ noteId : NoteId,
    current.noteUpdates.outputNotesByNullifier[nullifier]? = some noteId →
    ∃ update, current.noteUpdates.outputNotes[noteId]? = some update ∧
      update.note.state.isConsumed = true ∧ update.isUpdated = true
  transactions : ∀ (id : TransactionId) (record : TransactionRecord),
    current.transactionUpdates.transactions[id]? = some record → record.status = .pending →
    nullifier ∉ record.details.inputNoteNullifiers

theorem Processed.quiet {received : List Nullifier} {before after : StateSyncUpdate}
    (processed : Processed received before after) {nullifier : Nullifier}
    (member : nullifier ∈ received) : Quiet after nullifier where
  input := by
    rintro noteId later found rfl
    obtain ⟨earlier, foundBefore, same, _, _, _⟩ := processed.earlier found
    rw [← same] at member
    obtain ⟨other, foundOther, settled, marked⟩ :=
      processed.settled noteId earlier foundBefore member
    obtain rfl := Option.some.inj (foundOther.symm.trans found)
    refine ⟨settled.consumed, ?_, ?_⟩
    · rw [marked]
      exact isUpdated_setInner earlier other.note
    · rw [← same, processed.order]
      exact settled.ordered
  output noteId leads := by
    rw [processed.outputIndex] at leads
    exact processed.settledOutput nullifier member noteId leads
  transactions id record tracked pending listed := by
    rw [processed.transactions] at tracked
    refine (before.transactionUpdates.run_cascade _).unhit id record tracked pending
      ⟨.inputNoteNullified nullifier, List.mem_map_of_mem member, listed⟩

/-- A nullifier that cannot change anything is refused, or changes nothing. -/
theorem Quiet.applyNullifier_eq (collisionFree : NullifierCollisionFree)
    {current next : StateSyncUpdate} {nullifierUpdate : NullifierUpdate}
    (quiet : Quiet current nullifierUpdate.nullifier) (consistent : Consistent current.noteUpdates)
    (done : applyNullifier current nullifierUpdate = .ok next) : next = current := by
  have accepts : Accepts current nullifierUpdate.nullifier := by
    by_contra refuses
    obtain ⟨error, failed⟩ := applyNullifier_of_not_accepts collisionFree consistent refuses
    rw [failed] at done
    cases done
  have input : nullifyInputNote nullifierUpdate
      current.transactionUpdates.committedTransactions current.noteUpdates =
        .ok () current.noteUpdates := by
    cases leads : current.noteUpdates.inputNotesByNullifier[nullifierUpdate.nullifier]? with
    | none => simp only [nullifyInputNote, leads]
    | some noteId =>
      obtain ⟨update, found, has⟩ := consistent.inputs.leads _ _ leads
      have nullified := Option.some.inj has
      obtain ⟨consumed, marked, ordered⟩ := quiet.input noteId update found nullified
      obtain ⟨note, received, _, same⟩ := receiveNullifier_settles
        (committed_of_mem current.transactionUpdates) none nullified
        (accepts noteId update found nullified)
      rw [nullifyInputNote_of_ok leads found received, same consumed, ordered,
        setInner_of_updated marked, OrderedMap.insert_of_getElem? found]
  have output : nullifyOutputNote nullifierUpdate current.noteUpdates =
      .ok () current.noteUpdates := by
    rcases nullifyOutputNote_ok consistent.outputs with
      ⟨_, same⟩ | ⟨noteId, update, note, leads, found, _, stays, received⟩
    · exact same
    · obtain ⟨other, foundOther, consumed, marked⟩ := quiet.output noteId leads
      obtain rfl := Option.some.inj (foundOther.symm.trans found)
      rw [received, stays consumed, setInner_of_updated marked,
        OrderedMap.insert_of_getElem? found]
  have notes : applyNullifiersStateTransitions nullifierUpdate
      current.transactionUpdates.committedTransactions current.noteUpdates =
        .ok () current.noteUpdates := (bind_of_result_ok input _).trans output
  have transactions : current.transactionUpdates.applyInputNoteNullified
      nullifierUpdate.nullifier = current.transactionUpdates := by
    refine TransactionUpdateTracker.discardTransactionWithPredicate_of_none _ ?_
    intro id record tracked pending
    have unlisted := quiet.transactions id record tracked pending
    rwa [List.contains_eq_mem, decide_eq_false_iff_not]
  unfold applyNullifier at done
  rw [notes] at done
  simp only [transactions] at done
  cases done
  rfl

theorem foldlM_applyNullifier_of_quiet (collisionFree : NullifierCollisionFree)
    {current next : StateSyncUpdate} (consistent : Consistent current.noteUpdates)
    (updates : List NullifierUpdate)
    (quiet : ∀ update ∈ updates, Quiet current update.nullifier)
    (done : updates.foldlM applyNullifier current = .ok next) : next = current := by
  induction updates with
  | nil =>
    cases done
    rfl
  | cons update rest inductionHypothesis =>
    obtain ⟨middle, first, later⟩ := bind_eq_ok.mp done
    obtain rfl := (quiet update List.mem_cons_self).applyNullifier_eq collisionFree consistent first
    exact inductionHypothesis (fun other member => quiet other (List.mem_cons_of_mem update member))
      later

/-! ### What is left of a list of nullifiers -/

/-- What holds after the received nullifiers were processed. -/
structure SettlesReceived (received : List Nullifier) (before after : StateSyncUpdate) :
    Prop where
  /-- Every note whose nullifier was received is consumed. -/
  consumed : ∀ (noteId : NoteId) (earlier : InputNoteUpdate),
    before.noteUpdates.inputNotes[noteId]? = some earlier → earlier.note.nullifier ∈ received →
    ∃ later, after.noteUpdates.inputNotes[noteId]? = some later ∧
      later.note.state.isConsumed = true
  /-- A note that was not consumed before is consumed locally by exactly the committed
  transaction that was its consumer, and otherwise externally. -/
  consumer : ∀ (noteId : NoteId) (earlier later : InputNoteUpdate),
    before.noteUpdates.inputNotes[noteId]? = some earlier → earlier.note.nullifier ∈ received →
    after.noteUpdates.inputNotes[noteId]? = some later →
    earlier.note.state.isConsumed = false →
    (∀ id, later.note.state.consumerTransactionId = some id ↔
      earlier.note.state.consumerTransactionId = some id ∧
        ∃ transaction ∈ after.transactionUpdates.committedTransactions, transaction.id = id) ∧
    (later.note.state.consumerTransactionId = none →
      ∃ state, later.note.state = .consumedExternal state)
  /-- A note that was consumed before keeps its consumer. -/
  keptConsumer : ∀ (noteId : NoteId) (earlier later : InputNoteUpdate),
    before.noteUpdates.inputNotes[noteId]? = some earlier →
    after.noteUpdates.inputNotes[noteId]? = some later →
    earlier.note.state.isConsumed = true →
    later.note.state.consumerTransactionId = earlier.note.state.consumerTransactionId
  /-- A transaction that lists a received nullifier is settled. -/
  transactions : ∀ (id : TransactionId) (record : TransactionRecord),
    after.transactionUpdates.transactions[id]? = some record →
    (∃ nullifier ∈ received, nullifier ∈ record.details.inputNoteNullifiers) →
    record.status.isCommitted = true ∨ record.status.isDiscarded = true
  /-- A note whose nullifier was not received is unchanged. -/
  unreceivedInput : ∀ noteId : NoteId,
    (∀ earlier, before.noteUpdates.inputNotes[noteId]? = some earlier →
      earlier.note.nullifier ∉ received) →
    after.noteUpdates.inputNotes[noteId]? = before.noteUpdates.inputNotes[noteId]?
  unreceivedOutput : ∀ noteId : NoteId,
    (∀ earlier, before.noteUpdates.outputNotes[noteId]? = some earlier →
      ∀ nullifier ∈ received, earlier.note.nullifier ≠ some nullifier) →
    after.noteUpdates.outputNotes[noteId]? = before.noteUpdates.outputNotes[noteId]?

theorem Processed.settlesReceived {received : List Nullifier} {before after : StateSyncUpdate}
    (processed : Processed received before after) : SettlesReceived received before after where
  consumed noteId earlier found member := by
    obtain ⟨later, foundLater, settled, _⟩ := processed.settled noteId earlier found member
    exact ⟨later, foundLater, settled.consumed⟩
  consumer noteId earlier later found member foundLater unspent := by
    obtain ⟨other, foundOther, settled, _⟩ := processed.settled noteId earlier found member
    obtain rfl := Option.some.inj (foundOther.symm.trans foundLater)
    rw [processed.committedTransactions]
    exact ⟨settled.consumer_iff unspent, InputNoteState.external_of_consumed settled.consumed⟩
  keptConsumer noteId earlier later found foundLater spent := by
    by_cases member : earlier.note.nullifier ∈ received
    · obtain ⟨other, foundOther, settled, _⟩ := processed.settled noteId earlier found member
      obtain rfl := Option.some.inj (foundOther.symm.trans foundLater)
      exact settled.kept spent
    · rw [Option.some.inj ((processed.input_of_unreceived found member).symm.trans foundLater)]
  transactions := by
    rintro id record tracked ⟨nullifier, member, listed⟩
    cases status : record.status with
    | pending =>
      exact absurd listed ((processed.quiet member).transactions id record tracked status)
    | committed block timestamp => exact Or.inl rfl
    | discarded cause => exact Or.inr rfl
  unreceivedInput := processed.unreceivedInput
  unreceivedOutput := processed.unreceivedOutput

/-- The update of a sync whose trackers were built from notes and transactions, and then took
some calls. -/
def updateAfter (blockNum : BlockNumber) (inputNotes : List InputNoteRecord)
    (outputNotes : List OutputNoteRecord) (noteCalls : List NoteUpdateTracker.Call)
    (transactions : List TransactionRecord)
    (transactionCalls : List TransactionUpdateTracker.Call) : StateSyncUpdate where
  blockNum := blockNum
  noteUpdates := (NoteUpdateTracker.new inputNotes outputNotes).run noteCalls
  transactionUpdates := (TransactionUpdateTracker.new transactions).run transactionCalls

/-- A list of nullifiers is processed to its end exactly when it does not repeat the nullifier
of a note with a committed consumer, and has none of such a note that is consumed already. It
then consumes the notes and settles the transactions, and processing it again changes nothing,
or is refused because a committed transaction is the consumer of one of the notes. -/
theorem nullifiers_settle (nullifierCollisionFree : NullifierCollisionFree)
    (noteIdCollisionFree : NoteIdCollisionFree) (inputNotes : List InputNoteRecord)
    (outputNotes : List OutputNoteRecord) (stay : NullifiersStay outputNotes)
    (noteCalls : List NoteUpdateTracker.Call) (transactions : List TransactionRecord)
    (transactionCalls : List TransactionUpdateTracker.Call) (blockNum : BlockNumber)
    (updates : List NullifierUpdate) :
    let start := updateAfter blockNum inputNotes outputNotes noteCalls transactions
      transactionCalls
    ((∃ result, updates.foldlM applyNullifier start = .ok result) ↔
      Admits start (updates.map NullifierUpdate.nullifier)) ∧
    ∀ result, updates.foldlM applyNullifier start = .ok result →
      SettlesReceived (updates.map NullifierUpdate.nullifier) start result ∧
      (∀ again, updates.foldlM applyNullifier result = .ok again → again = result) ∧
      ((∃ again, updates.foldlM applyNullifier result = .ok again) ↔
        ∀ nullifier ∈ updates.map NullifierUpdate.nullifier,
          ¬HasCommittedConsumer start nullifier) := by
  intro start
  have consistent : Consistent start.noteUpdates :=
    (new_consistent noteIdCollisionFree inputNotes stay).run noteIdCollisionFree noteCalls
  obtain ⟨returns, processes⟩ :=
    foldlM_applyNullifier_iff nullifierCollisionFree updates consistent
  refine ⟨returns, fun result done => ?_⟩
  have processed := processes result done
  refine ⟨processed.settlesReceived, fun again doneAgain => ?_, ?_⟩
  · exact foldlM_applyNullifier_of_quiet nullifierCollisionFree processed.consistent updates
      (fun update member => processed.quiet (List.mem_map_of_mem member)) doneAgain
  · rw [(foldlM_applyNullifier_iff nullifierCollisionFree updates processed.consistent).1]
    constructor
    · intro admits nullifier member
      exact (processed.accepts_received_iff member).mp (admits.accepts nullifier member)
    · intro none
      refine ⟨fun nullifier member => (processed.accepts_received_iff member).mpr
        (none nullifier member), ?_⟩
      refine List.pairwise_of_forall_mem_list fun nullifier member _ _ _ => ?_
      rw [processed.hasCommittedConsumer_iff]
      exact none nullifier member

end StateSync

namespace Sample

open StateSync

/-- The payment while transaction 5 consumes it. -/
def consumedPayment : InputNoteRecord :=
  ⟨paymentNote.details, some 0, .processingAuthenticated ⟨paymentNote.metadata, ⟨2, 0, [7]⟩, 7,
    ⟨some 0, 2, 5⟩⟩⟩

/-- The transaction that consumes the payment. -/
def consumePayment : TransactionRecord :=
  ⟨5, ⟨2, 10, 11, [paymentNote.nullifier], 2, 2, 40, 0⟩, .pending⟩

/-- A sync in which the transaction was included. -/
def includedPayment : StateSyncUpdate :=
  updateAfter 8 [consumedPayment] [] [] [consumePayment]
    [.transactionInclusion ⟨5, 8, 2, 10⟩ 100]

/-- Receiving the nullifier once settles the note and its transaction. -/
theorem nullifiers_settle_payment : ∃ result,
    [(⟨paymentNote.nullifier, 8⟩ : NullifierUpdate)].foldlM applyNullifier includedPayment =
      .ok result ∧ SettlesReceived [paymentNote.nullifier] includedPayment result := by
  have settles := (nullifiers_settle nullifierCollisionFree noteIdCollisionFree [consumedPayment]
    [] List.Pairwise.nil [] [consumePayment] [.transactionInclusion ⟨5, 8, 2, 10⟩ 100] 8
    [⟨paymentNote.nullifier, 8⟩]).2
  have returns : ([(⟨paymentNote.nullifier, 8⟩ : NullifierUpdate)].foldlM applyNullifier
      includedPayment).isOk = true := by decide +kernel
  cases done : [(⟨paymentNote.nullifier, 8⟩ : NullifierUpdate)].foldlM applyNullifier
      includedPayment with
  | ok result => exact ⟨result, rfl, (settles result done).1⟩
  | error error =>
    rw [done] at returns
    cases returns

/-- Receiving it twice is refused, although it is the nullifier of a note whose consumer was
committed. -/
theorem nullifiers_repeated_fail : ¬∃ result,
    [(⟨paymentNote.nullifier, 8⟩ : NullifierUpdate), ⟨paymentNote.nullifier, 8⟩].foldlM
      applyNullifier includedPayment = .ok result ∧
    SettlesReceived [paymentNote.nullifier, paymentNote.nullifier] includedPayment result ∧
    [(⟨paymentNote.nullifier, 8⟩ : NullifierUpdate), ⟨paymentNote.nullifier, 8⟩].foldlM
      applyNullifier result = .ok result := by
  rintro ⟨result, done, _⟩
  have fails : ([(⟨paymentNote.nullifier, 8⟩ : NullifierUpdate),
      ⟨paymentNote.nullifier, 8⟩].foldlM applyNullifier includedPayment).isOk = false := by
    decide +kernel
  rw [done] at fails
  cases fails

end Sample

end MidenClient
