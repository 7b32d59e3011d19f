/-
This file models `TransactionUpdateTracker`
(`rust-client/src/sync/state_sync_update.rs`): the transactions a sync follows,
and the four events that settle them.

A discard cascades. Every pass over the tracker discards the pending records a
predicate selects and collects the final states they would have produced; each of
those states then starts a pass of its own over the records that begin there. The
recursion of the source has no measure of its own, so the model carries fuel and
returns nothing when the fuel runs out. A pass that collects a state has turned a
pending record into a discarded one, so one more unit of fuel than there are
pending records is always enough, and the unfuelled functions take that amount.
-/

import MidenClient.Rpc.Transaction
import MidenClient.Transaction.Record

namespace MidenClient

open Std (ExtTreeMap)

/-- Contains transaction changes to apply to the store. -/
structure TransactionUpdateTracker where
  transactions : ExtTreeMap TransactionId TransactionRecord

namespace TransactionUpdateTracker

/-- Tracks the given records; a later record replaces an earlier one with the same id. -/
def new (transactions : List TransactionRecord) : TransactionUpdateTracker :=
  ⟨ExtTreeMap.ofList (transactions.map fun record => (record.id, record))⟩

/-- The tracked records in id order. -/
def records (tracker : TransactionUpdateTracker) : List TransactionRecord :=
  tracker.transactions.toList.map Prod.snd

def committedTransactions (tracker : TransactionUpdateTracker) : List TransactionRecord :=
  tracker.records.filter fun record => record.status.isCommitted

def discardedTransactions (tracker : TransactionUpdateTracker) : List TransactionRecord :=
  tracker.records.filter fun record => record.status.isDiscarded

/-- The key of the first tracked record, in id order, of the inclusion's account and
pre-transaction state. -/
def findByInitialState (tracker : TransactionUpdateTracker) (inclusion : TransactionInclusion) :
    Option TransactionId :=
  (tracker.transactions.toList.find? fun entry =>
    entry.2.details.accountId == inclusion.accountId &&
      entry.2.details.initAccountState == inclusion.initialStateCommitment).map Prod.fst

/-- Applies the necessary state transitions when a transaction is included in a block. -/
def applyTransactionInclusion (tracker : TransactionUpdateTracker)
    (inclusion : TransactionInclusion) (timestamp : ℕ) : TransactionUpdateTracker :=
  let commit (record : TransactionRecord) : TransactionRecord :=
    (record.commitTransaction inclusion.blockNum timestamp).1
  match tracker.transactions[inclusion.transactionId]? with
  | some _ => ⟨tracker.transactions.modify inclusion.transactionId commit⟩
  | none =>
    match tracker.findByInitialState inclusion with
    | some id => ⟨tracker.transactions.modify id commit⟩
    | none => tracker

/-- The records a pass over the pending transactions discards. -/
def isDiscardedBy (predicate : TransactionRecord → Bool) (record : TransactionRecord) : Bool :=
  record.status.isPending && predicate record

/-- One pass over the pending transactions: discards those the predicate selects and
collects the final account states of the transactions that got discarded. -/
def discardPass (tracker : TransactionUpdateTracker) (predicate : TransactionRecord → Bool)
    (cause : DiscardCause) : TransactionUpdateTracker × List Word :=
  (⟨tracker.transactions.map fun _ record =>
      if isDiscardedBy predicate record then (record.discardTransaction cause).1 else record⟩,
    (tracker.records.filter (isDiscardedBy predicate)).map
      fun record => record.details.finalAccountState)

/-- Discards the selected transactions and, recursively, the pending transactions that
start from a final state of a discarded one. Nothing is returned when the fuel runs out. -/
def discardWithFuel : ℕ → TransactionUpdateTracker → (TransactionRecord → Bool) →
    DiscardCause → Option TransactionUpdateTracker
  | 0, _, _, _ => none
  | fuel + 1, tracker, predicate, cause =>
    let pass := tracker.discardPass predicate cause
    pass.2.foldlM (fun tracker state =>
      discardWithFuel fuel tracker
        (fun record => record.details.initAccountState == state)
        .discardedInitialState) pass.1

/-- The number of pending transactions, which bounds the depth of a discard. -/
def pendingCount (tracker : TransactionUpdateTracker) : ℕ :=
  tracker.transactions.toList.countP fun entry => entry.2.status.isPending

/-! ### A discard terminates -/

theorem isDiscardedBy_iff (predicate : TransactionRecord → Bool) (record : TransactionRecord) :
    isDiscardedBy predicate record = true ↔
      record.status = .pending ∧ predicate record = true := by
  rw [isDiscardedBy, Bool.and_eq_true, TransactionStatus.isPending_iff]

/-- What a pass does to one record. -/
theorem discardPass_getElem? (tracker : TransactionUpdateTracker)
    (predicate : TransactionRecord → Bool) (cause : DiscardCause) (id : TransactionId) :
    (tracker.discardPass predicate cause).1.transactions[id]? =
      tracker.transactions[id]?.map fun record =>
        if isDiscardedBy predicate record then { record with status := .discarded cause }
        else record := by
  simp only [discardPass, ExtTreeMap.getElem?_map]
  refine congrArg (fun change => tracker.transactions[id]?.map change) (funext fun record => ?_)
  by_cases selected : isDiscardedBy predicate record = true
  · have pending := ((isDiscardedBy_iff predicate record).mp selected).1
    rw [if_pos selected, if_pos selected, record.discardTransaction_of_pending cause pending]
  · rw [if_neg selected, if_neg selected]

/-- A record is pending after a pass when it was pending and was not selected. -/
theorem isPending_discardPass (predicate : TransactionRecord → Bool) (cause : DiscardCause)
    (record : TransactionRecord) :
    (if isDiscardedBy predicate record then (record.discardTransaction cause).1
      else record).status.isPending =
      (record.status.isPending && !isDiscardedBy predicate record) := by
  by_cases selected : isDiscardedBy predicate record = true
  · have pending := ((isDiscardedBy_iff predicate record).mp selected).1
    rw [if_pos selected, record.discardTransaction_of_pending cause pending, selected]
    simp [TransactionStatus.isPending]
  · rw [if_neg selected, eq_false_of_ne_true selected, Bool.not_false, Bool.and_true]

/-- A pass turns exactly the collected number of pending records into discarded ones. -/
theorem discardPass_pendingCount (tracker : TransactionUpdateTracker)
    (predicate : TransactionRecord → Bool) (cause : DiscardCause) :
    (tracker.discardPass predicate cause).1.pendingCount +
        (tracker.discardPass predicate cause).2.length =
      tracker.pendingCount := by
  simp only [discardPass, pendingCount, records, ExtTreeMap.toList_map, List.countP_map,
    List.length_map, ← List.countP_eq_length_filter]
  induction tracker.transactions.toList with
  | nil => rfl
  | cons entry rest inductionHypothesis =>
    have selectedPending : isDiscardedBy predicate entry.2 = true →
        entry.2.status.isPending = true := by
      intro selected
      exact (entry.2.status.isPending_iff).mpr ((isDiscardedBy_iff _ _).mp selected).1
    simp only [List.countP_cons, Function.comp_apply, isPending_discardPass]
    simp only [Function.comp_def, isPending_discardPass] at inductionHypothesis ⊢
    by_cases selected : isDiscardedBy predicate entry.2 = true
    · simp only [selected, selectedPending selected, Bool.not_true, Bool.and_false,
        Bool.false_eq_true, if_false, if_true]
      omega
    · simp only [eq_false_of_ne_true selected, Bool.not_false, Bool.and_true,
        Bool.false_eq_true, if_false]
      omega

/-- A relation that is kept by every pass, and composes, holds across a whole discard. -/
theorem discardWithFuel_related
    (related : TransactionUpdateTracker → TransactionUpdateTracker → Prop)
    (reflexive : ∀ tracker, related tracker tracker)
    (transitive : ∀ {first second third}, related first second → related second third →
      related first third)
    (pass : ∀ tracker predicate cause, related tracker (tracker.discardPass predicate cause).1)
    (fuel : ℕ) (tracker result : TransactionUpdateTracker)
    (predicate : TransactionRecord → Bool) (cause : DiscardCause)
    (returned : discardWithFuel fuel tracker predicate cause = some result) :
    related tracker result := by
  induction fuel generalizing tracker result predicate cause with
  | zero => cases returned
  | succ fuel inductionHypothesis =>
    have folded : ∀ (states : List Word) (start : TransactionUpdateTracker),
        states.foldlM (fun tracker state => discardWithFuel fuel tracker
          (fun record => record.details.initAccountState == state)
          .discardedInitialState) start = some result →
        related start result := by
      intro states
      induction states with
      | nil =>
        intro start done
        rw [← Option.some.inj done]
        exact reflexive start
      | cons state rest restHypothesis =>
        intro start done
        obtain ⟨next, first, others⟩ := Option.bind_eq_some_iff.mp done
        exact transitive (inductionHypothesis _ _ _ _ first) (restHypothesis next others)
    exact transitive (pass tracker predicate cause)
      (folded (tracker.discardPass predicate cause).2 _ returned)

/-- A discard that returns leaves at most as many pending records as there were. -/
theorem discardWithFuel_pendingCount_le (fuel : ℕ) (tracker result : TransactionUpdateTracker)
    (predicate : TransactionRecord → Bool) (cause : DiscardCause)
    (returned : discardWithFuel fuel tracker predicate cause = some result) :
    result.pendingCount ≤ tracker.pendingCount := by
  refine discardWithFuel_related (fun before after => after.pendingCount ≤ before.pendingCount)
    (fun _ => le_rfl) (fun early late => late.trans early) ?_ fuel tracker result predicate cause
    returned
  intro tracker predicate cause
  have pass := tracker.discardPass_pendingCount predicate cause
  omega

/-- The recursive discard terminates: it never needs more fuel than there are pending
records, and one unit for the pass that finds nothing. -/
theorem discardWithFuel_isSome (fuel : ℕ) (tracker : TransactionUpdateTracker)
    (predicate : TransactionRecord → Bool) (cause : DiscardCause)
    (enough : tracker.pendingCount < fuel) :
    (discardWithFuel fuel tracker predicate cause).isSome = true := by
  induction fuel generalizing tracker predicate cause with
  | zero => omega
  | succ fuel inductionHypothesis =>
    have folded : ∀ (states : List Word) (start : TransactionUpdateTracker),
        (states ≠ [] → start.pendingCount < fuel) →
        (states.foldlM (fun tracker state => discardWithFuel fuel tracker
          (fun record => record.details.initAccountState == state)
          .discardedInitialState) start).isSome = true := by
      intro states
      induction states with
      | nil => intro start _; rfl
      | cons state rest restHypothesis =>
        intro start small
        have less := small (List.cons_ne_nil state rest)
        obtain ⟨next, first⟩ := Option.isSome_iff_exists.mp (inductionHypothesis start
          (fun record => record.details.initAccountState == state) .discardedInitialState less)
        have shrinks := discardWithFuel_pendingCount_le fuel _ _ _ _ first
        rw [List.foldlM_cons, first]
        exact restHypothesis next fun _ => shrinks.trans_lt less
    have pass := tracker.discardPass_pendingCount predicate cause
    refine folded (tracker.discardPass predicate cause).2
      (tracker.discardPass predicate cause).1 fun collected => ?_
    have positive := List.length_pos_of_ne_nil collected
    omega

/-! ### The events of a sync -/

/-- Discards transactions that match the predicate and also applies the new invalid account
states. -/
def discardTransactionWithPredicate (tracker : TransactionUpdateTracker)
    (predicate : TransactionRecord → Bool) (cause : DiscardCause) : TransactionUpdateTracker :=
  (discardWithFuel (tracker.pendingCount + 1) tracker predicate cause).get
    (discardWithFuel_isSome _ tracker predicate cause (Nat.lt_succ_self _))

/-- Discards transactions that have the same initial account state as the provided one. -/
def applyInvalidInitialAccountState (tracker : TransactionUpdateTracker)
    (invalidAccountState : Word) : TransactionUpdateTracker :=
  tracker.discardTransactionWithPredicate
    (fun record => record.details.initAccountState == invalidAccountState)
    .discardedInitialState

/-- Discards the transactions that were processing the nullified note. -/
def applyInputNoteNullified (tracker : TransactionUpdateTracker) (nullifier : Nullifier) :
    TransactionUpdateTracker :=
  tracker.discardTransactionWithPredicate
    (fun record => record.details.inputNoteNullifiers.contains nullifier)
    .inputConsumed

/-- The transaction was submitted more than `txDiscardDelta` blocks ago. -/
def isStale (newSyncHeight : BlockNumber) (txDiscardDelta : ℕ) (record : TransactionRecord) :
    Bool :=
  record.details.submissionHeight < (checkedSub newSyncHeight txDiscardDelta).getD 0

/-- The transaction expires at the new sync height or expired before it. -/
def isExpired (newSyncHeight : BlockNumber) (record : TransactionRecord) : Bool :=
  record.details.expirationBlockNum ≤ newSyncHeight

/-- Applies the transitions for a new sync height: stale transactions are discarded when a
discard delta is set, and then the expired ones are. -/
def applySyncHeightUpdate (tracker : TransactionUpdateTracker) (newSyncHeight : BlockNumber)
    (txDiscardDelta : Option ℕ) : TransactionUpdateTracker :=
  let unstale := match txDiscardDelta with
    | some delta => tracker.discardTransactionWithPredicate (isStale newSyncHeight delta) .stale
    | none => tracker
  unstale.discardTransactionWithPredicate (isExpired newSyncHeight) .expired

/-- The calls a sync makes on the tracker. -/
inductive Call where
  | transactionInclusion (inclusion : TransactionInclusion) (timestamp : ℕ)
  | syncHeightUpdate (newSyncHeight : BlockNumber) (txDiscardDelta : Option ℕ)
  | inputNoteNullified (nullifier : Nullifier)
  | invalidInitialAccountState (state : Word)

def applyCall (tracker : TransactionUpdateTracker) : Call → TransactionUpdateTracker
  | .transactionInclusion inclusion timestamp =>
    tracker.applyTransactionInclusion inclusion timestamp
  | .syncHeightUpdate height delta => tracker.applySyncHeightUpdate height delta
  | .inputNoteNullified nullifier => tracker.applyInputNoteNullified nullifier
  | .invalidInitialAccountState state => tracker.applyInvalidInitialAccountState state

def run (tracker : TransactionUpdateTracker) (calls : List Call) : TransactionUpdateTracker :=
  calls.foldl applyCall tracker

/-- The call hits the record directly: it is stale, expired, one of its inputs was
nullified, or its initial state is the invalid one. -/
def Call.Hits (record : TransactionRecord) : Call → Prop
  | .transactionInclusion _ _ => False
  | .syncHeightUpdate height delta =>
    (∃ blocks, delta = some blocks ∧ isStale height blocks record = true) ∨
      isExpired height record = true
  | .inputNoteNullified nullifier => nullifier ∈ record.details.inputNoteNullifiers
  | .invalidInitialAccountState state => record.details.initAccountState = state

/-! ### How one record moves -/

/-- A record stays as it is, or it was pending and only its status changes. -/
def Advances (before after : TransactionRecord) : Prop :=
  after = before ∨ before.status = .pending ∧ ∃ status, after = { before with status := status }

/-- Every tracked record advances, and no record appears or disappears. -/
def Evolves (before after : TransactionUpdateTracker) : Prop :=
  ∀ id : TransactionId, Option.Rel Advances before.transactions[id]? after.transactions[id]?

theorem Advances.trans {first second third : TransactionRecord} (one : Advances first second)
    (two : Advances second third) : Advances first third := by
  rcases one with rfl | ⟨pending, status, rfl⟩
  · exact two
  · rcases two with rfl | ⟨_, next, rfl⟩
    · exact Or.inr ⟨pending, status, rfl⟩
    · exact Or.inr ⟨pending, next, rfl⟩

theorem Advances.eq_of_pending {before after : TransactionRecord} (step : Advances before after)
    (pending : after.status = .pending) : after = before := by
  rcases step with rfl | ⟨wasPending, status, rfl⟩
  · rfl
  · simp only at pending
    rw [pending, ← wasPending]

theorem Advances.eq_of_settled {before after : TransactionRecord} (step : Advances before after)
    (settled : before.status ≠ .pending) : after = before := by
  rcases step with rfl | ⟨pending, _⟩
  · rfl
  · exact absurd pending settled

theorem Advances.details_eq {before after : TransactionRecord} (step : Advances before after) :
    after.details = before.details := by
  rcases step with rfl | ⟨_, status, rfl⟩ <;> rfl

theorem Advances.id_eq {before after : TransactionRecord} (step : Advances before after) :
    after.id = before.id := by
  rcases step with rfl | ⟨_, status, rfl⟩ <;> rfl

theorem Evolves.refl (tracker : TransactionUpdateTracker) : Evolves tracker tracker := by
  intro id
  cases tracker.transactions[id]? with
  | none => exact .none
  | some record => exact .some (Or.inl rfl)

theorem Evolves.trans {first second third : TransactionUpdateTracker}
    (one : Evolves first second) (two : Evolves second third) : Evolves first third := by
  intro id
  have early := one id
  have late := two id
  revert early late
  cases first.transactions[id]? <;> cases second.transactions[id]? <;>
    cases third.transactions[id]? <;> rintro ⟨⟩ ⟨⟩
  · exact .none
  · rename_i early late
    exact .some (early.trans late)

theorem Evolves.of_before {before after : TransactionUpdateTracker} (step : Evolves before after)
    {id : TransactionId} {record : TransactionRecord}
    (tracked : before.transactions[id]? = some record) :
    ∃ next, after.transactions[id]? = some next ∧ Advances record next := by
  have related := step id
  rw [tracked] at related
  generalize found : after.transactions[id]? = result at related
  cases related with
  | some advances => exact ⟨_, rfl, advances⟩

theorem Evolves.of_after {before after : TransactionUpdateTracker} (step : Evolves before after)
    {id : TransactionId} {next : TransactionRecord}
    (tracked : after.transactions[id]? = some next) :
    ∃ record, before.transactions[id]? = some record ∧ Advances record next := by
  have related := step id
  rw [tracked] at related
  generalize found : before.transactions[id]? = result at related
  cases related with
  | some advances => exact ⟨_, rfl, advances⟩

/-- A record that is pending after a run was that very record before it. -/
theorem Evolves.pending_before {before after : TransactionUpdateTracker}
    (step : Evolves before after) {id : TransactionId} {record : TransactionRecord}
    (tracked : after.transactions[id]? = some record) (pending : record.status = .pending) :
    before.transactions[id]? = some record := by
  obtain ⟨earlier, wasTracked, advances⟩ := step.of_after tracked
  rw [wasTracked, advances.eq_of_pending pending]

/-- The records that were pending before and are discarded after. -/
def newlyDiscarded (before after : TransactionUpdateTracker) : Set TransactionRecord :=
  {record | ∃ (id : TransactionId) (next : TransactionRecord),
    before.transactions[id]? = some record ∧ record.status = .pending ∧
      after.transactions[id]? = some next ∧ next.status.isDiscarded = true}

theorem newlyDiscarded_trans {first second third : TransactionUpdateTracker}
    (one : Evolves first second) (two : Evolves second third) :
    newlyDiscarded first third = newlyDiscarded first second ∪ newlyDiscarded second third := by
  ext record
  constructor
  · rintro ⟨id, last, tracked, pending, found, discarded⟩
    obtain ⟨middle, seen, early⟩ := one.of_before tracked
    obtain ⟨final, seenLast, late⟩ := two.of_before seen
    rw [found] at seenLast
    obtain rfl := Option.some.inj seenLast
    by_cases settled : middle.status = .pending
    · obtain rfl := early.eq_of_pending settled
      exact Or.inr ⟨id, last, seen, settled, found, discarded⟩
    · obtain rfl := late.eq_of_settled settled
      exact Or.inl ⟨id, last, tracked, pending, seen, discarded⟩
  · rintro (⟨id, middle, tracked, pending, seen, discarded⟩ |
      ⟨id, last, tracked, pending, found, discarded⟩)
    · obtain ⟨final, seenLast, late⟩ := two.of_before seen
      have settled : middle.status ≠ .pending := by
        intro stillPending
        rw [stillPending] at discarded
        cases discarded
      obtain rfl := late.eq_of_settled settled
      exact ⟨id, final, tracked, pending, seenLast, discarded⟩
    · exact ⟨id, last, one.pending_before tracked pending, pending, found, discarded⟩

end TransactionUpdateTracker

end MidenClient
