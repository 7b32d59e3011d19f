/-
This file shows what a discard reaches. Transactions are linked by state
commitments only: a pending transaction whose initial state is the final state of
a discarded one can never be included, and the tracker discards it too.

Reaching is described by the least set that contains the directly hit records and
is closed under that link. A discard removes the states it still has to visit from
a work list; while it runs, every pending record linked to a discarded one starts
from a state on the list. When the list is empty nothing linked is left, and the
same then holds after any sequence of calls on the tracker.
-/

import MidenClient.Sync.TransactionUpdateTracker

namespace MidenClient

open Std (ExtTreeMap)

namespace TransactionUpdateTracker

/-- The records reached from the directly hit ones over states that discarded records
would have produced. -/
inductive Doomed (hit : TransactionRecord → Prop) (discarded : Set TransactionRecord) :
    TransactionRecord → Prop
  | direct {record : TransactionRecord} : hit record → Doomed hit discarded record
  | linked {earlier record : TransactionRecord} : earlier ∈ discarded →
      Doomed hit discarded earlier →
      earlier.details.finalAccountState = record.details.initAccountState →
      Doomed hit discarded record

theorem Doomed.mono {hit wider : TransactionRecord → Prop}
    {discarded more : Set TransactionRecord} {record : TransactionRecord}
    (hits : ∀ record, hit record → Doomed wider more record) (included : discarded ⊆ more)
    (doomed : Doomed hit discarded record) : Doomed wider more record := by
  induction doomed with
  | direct selected => exact hits _ selected
  | linked member _ link inductionHypothesis =>
    exact .linked (included member) inductionHypothesis link

/-- A doomed record was hit, or starts from the final state of a discarded record. -/
theorem Doomed.hit_or_linked {hit : TransactionRecord → Prop}
    {discarded : Set TransactionRecord} {record : TransactionRecord}
    (doomed : Doomed hit discarded record) :
    hit record ∨ ∃ earlier ∈ discarded,
      earlier.details.finalAccountState = record.details.initAccountState := by
  cases doomed with
  | direct selected => exact Or.inl selected
  | linked member _ link => exact Or.inr ⟨_, member, link⟩

/-- A discard on its way: only doomed records were discarded, no pending record is hit, and
a pending record linked to a discarded one starts from a state that is still to be visited. -/
structure CascadeUpTo (remaining : List Word) (hit : TransactionRecord → Prop)
    (before after : TransactionUpdateTracker) : Prop where
  evolves : Evolves before after
  doomed : ∀ record ∈ newlyDiscarded before after,
    Doomed hit (newlyDiscarded before after) record
  unhit : ∀ (id : TransactionId) (record : TransactionRecord),
    after.transactions[id]? = some record → record.status = .pending → ¬hit record
  closed : ∀ (id : TransactionId) (record : TransactionRecord),
    after.transactions[id]? = some record → record.status = .pending →
    ∀ earlier ∈ newlyDiscarded before after,
      earlier.details.finalAccountState = record.details.initAccountState →
      record.details.initAccountState ∈ remaining
  visited : ∀ state ∈ remaining, ∃ earlier ∈ newlyDiscarded before after,
    earlier.details.finalAccountState = state

/-- A finished discard, or a whole run: nothing is left to visit. -/
abbrev Cascade := CascadeUpTo []

/-! ### One discard -/

theorem discardPass_evolves (tracker : TransactionUpdateTracker)
    (predicate : TransactionRecord → Bool) (cause : DiscardCause) :
    Evolves tracker (tracker.discardPass predicate cause).1 := by
  intro id
  rw [discardPass_getElem?]
  cases tracker.transactions[id]? with
  | none => exact .none
  | some record =>
    refine .some ?_
    dsimp only
    by_cases selected : isDiscardedBy predicate record = true
    · rw [if_pos selected]
      exact Or.inr ⟨((isDiscardedBy_iff predicate record).mp selected).1, _, rfl⟩
    · rw [if_neg selected]
      exact Or.inl rfl

/-- A pass discards the pending records its predicate selects, and no others. -/
theorem newlyDiscarded_discardPass (tracker : TransactionUpdateTracker)
    (predicate : TransactionRecord → Bool) (cause : DiscardCause) :
    newlyDiscarded tracker (tracker.discardPass predicate cause).1 =
      {record | ∃ id : TransactionId, tracker.transactions[id]? = some record ∧
        isDiscardedBy predicate record = true} := by
  ext record
  constructor
  · rintro ⟨id, next, tracked, pending, found, discarded⟩
    rw [discardPass_getElem?, tracked, Option.map_some, Option.some.injEq] at found
    refine ⟨id, tracked, ?_⟩
    by_contra unselected
    rw [if_neg unselected] at found
    rw [← found, pending] at discarded
    cases discarded
  · rintro ⟨id, tracked, selected⟩
    refine ⟨id, { record with status := .discarded cause }, tracked,
      ((isDiscardedBy_iff predicate record).mp selected).1, ?_, rfl⟩
    rw [discardPass_getElem?, tracked, Option.map_some, if_pos selected]

theorem mem_records_iff (tracker : TransactionUpdateTracker) (record : TransactionRecord) :
    record ∈ tracker.records ↔ ∃ id : TransactionId, tracker.transactions[id]? = some record := by
  simp only [records, List.mem_map, Prod.exists, exists_eq_right,
    ExtTreeMap.mem_toList_iff_getElem?_eq_some]

/-- The states a pass collects are the final states of the records it discards. -/
theorem mem_discardPass_states (tracker : TransactionUpdateTracker)
    (predicate : TransactionRecord → Bool) (cause : DiscardCause) (state : Word) :
    state ∈ (tracker.discardPass predicate cause).2 ↔
      ∃ record ∈ newlyDiscarded tracker (tracker.discardPass predicate cause).1,
        record.details.finalAccountState = state := by
  rw [newlyDiscarded_discardPass]
  simp only [discardPass, List.mem_map, List.mem_filter, mem_records_iff, Set.mem_ofPred_eq,
    exists_and_right]

/-- The first pass starts a discard, with the collected states still to be visited. -/
theorem discardPass_cascade (tracker : TransactionUpdateTracker)
    (predicate : TransactionRecord → Bool) (cause : DiscardCause) :
    CascadeUpTo (tracker.discardPass predicate cause).2 (fun record => predicate record = true)
      tracker (tracker.discardPass predicate cause).1 where
  evolves := tracker.discardPass_evolves predicate cause
  doomed := by
    rw [newlyDiscarded_discardPass]
    rintro record ⟨id, tracked, selected⟩
    exact .direct ((isDiscardedBy_iff predicate record).mp selected).2
  unhit := by
    intro id record tracked pending selected
    have before := (tracker.discardPass_evolves predicate cause).pending_before tracked pending
    rw [discardPass_getElem?, before, Option.map_some,
      if_pos ((isDiscardedBy_iff predicate record).mpr ⟨pending, selected⟩)] at tracked
    rw [← Option.some.inj tracked] at pending
    cases pending
  closed := by
    intro id record tracked pending earlier discarded link
    rw [mem_discardPass_states]
    exact ⟨earlier, discarded, link⟩
  visited := by
    intro state collected
    exact (tracker.mem_discardPass_states predicate cause state).mp collected

/-- Visiting the next state of the work list takes it off the list. -/
theorem CascadeUpTo.visit {state : Word} {rest : List Word} {hit : TransactionRecord → Prop}
    {before middle after : TransactionUpdateTracker}
    (sofar : CascadeUpTo (state :: rest) hit before middle)
    (visit : Cascade (fun record => record.details.initAccountState = state) middle after) :
    CascadeUpTo rest hit before after := by
  have both := newlyDiscarded_trans sofar.evolves visit.evolves
  have early : newlyDiscarded before middle ⊆ newlyDiscarded before after := by
    rw [both]
    exact Set.subset_union_left
  have late : newlyDiscarded middle after ⊆ newlyDiscarded before after := by
    rw [both]
    exact Set.subset_union_right
  have doomedEarly : ∀ record ∈ newlyDiscarded before middle,
      Doomed hit (newlyDiscarded before after) record := fun record member =>
    (sofar.doomed record member).mono (fun _ => .direct) early
  refine ⟨sofar.evolves.trans visit.evolves, ?_, ?_, ?_, ?_⟩
  · intro record discarded
    rw [both] at discarded
    rcases discarded with member | member
    · exact doomedEarly record member
    · refine (visit.doomed record member).mono ?_ late
      intro next starts
      obtain ⟨earlier, discarded, final⟩ := sofar.visited state List.mem_cons_self
      exact .linked (early discarded) (doomedEarly earlier discarded) (final.trans starts.symm)
  · intro id record tracked pending
    exact sofar.unhit id record (visit.evolves.pending_before tracked pending) pending
  · intro id record tracked pending earlier discarded link
    rw [both] at discarded
    rcases discarded with member | member
    · have listed := sofar.closed id record (visit.evolves.pending_before tracked pending)
        pending earlier member link
      rcases List.mem_cons.mp listed with starts | listed
      · exact absurd starts (visit.unhit id record tracked pending)
      · exact listed
    · cases visit.closed id record tracked pending earlier member link
  · intro next listed
    obtain ⟨earlier, discarded, final⟩ := sofar.visited next (List.mem_cons_of_mem state listed)
    exact ⟨earlier, early discarded, final⟩

/-- A discard that returns is a finished cascade from the records its predicate selects. -/
theorem discardWithFuel_cascade (fuel : ℕ) (tracker result : TransactionUpdateTracker)
    (predicate : TransactionRecord → Bool) (cause : DiscardCause)
    (returned : discardWithFuel fuel tracker predicate cause = some result) :
    Cascade (fun record => predicate record = true) tracker result := by
  induction fuel generalizing tracker result predicate cause with
  | zero => cases returned
  | succ fuel inductionHypothesis =>
    have folded : ∀ (states : List Word) (start : TransactionUpdateTracker),
        CascadeUpTo states (fun record => predicate record = true) tracker start →
        states.foldlM (fun tracker state => discardWithFuel fuel tracker
          (fun record => record.details.initAccountState == state)
          .discardedInitialState) start = some result →
        Cascade (fun record => predicate record = true) tracker result := by
      intro states
      induction states with
      | nil =>
        intro start sofar done
        rw [← Option.some.inj done]
        exact sofar
      | cons state rest restHypothesis =>
        intro start sofar done
        obtain ⟨next, first, others⟩ := Option.bind_eq_some_iff.mp done
        have visit := inductionHypothesis _ _ _ _ first
        simp only [beq_iff_eq] at visit
        exact restHypothesis next (sofar.visit visit) others
    exact folded _ _ (tracker.discardPass_cascade predicate cause) returned

/-- More fuel than a discard needs changes nothing. -/
theorem discardWithFuel_mono (fuel more : ℕ) (tracker result : TransactionUpdateTracker)
    (predicate : TransactionRecord → Bool) (cause : DiscardCause) (enough : fuel ≤ more)
    (returned : discardWithFuel fuel tracker predicate cause = some result) :
    discardWithFuel more tracker predicate cause = some result := by
  induction fuel generalizing more tracker result predicate cause with
  | zero => cases returned
  | succ fuel inductionHypothesis =>
    obtain ⟨extra, rfl⟩ : ∃ extra, more = extra + 1 := ⟨more - 1, by omega⟩
    have folded : ∀ (states : List Word) (start : TransactionUpdateTracker),
        states.foldlM (fun tracker state => discardWithFuel fuel tracker
          (fun record => record.details.initAccountState == state)
          .discardedInitialState) start = some result →
        states.foldlM (fun tracker state => discardWithFuel extra tracker
          (fun record => record.details.initAccountState == state)
          .discardedInitialState) start = some result := by
      intro states
      induction states with
      | nil => exact fun _ done => done
      | cons state rest restHypothesis =>
        intro start done
        obtain ⟨next, first, others⟩ := Option.bind_eq_some_iff.mp done
        rw [List.foldlM_cons,
          inductionHypothesis extra _ _ _ _ (Nat.le_of_succ_le_succ enough) first]
        exact restHypothesis next others
    exact folded _ _ returned

theorem discardWithFuel_pendingCount (tracker : TransactionUpdateTracker)
    (predicate : TransactionRecord → Bool) (cause : DiscardCause) :
    discardWithFuel (tracker.pendingCount + 1) tracker predicate cause =
      some (tracker.discardTransactionWithPredicate predicate cause) :=
  (Option.some_get _).symm

theorem discardTransactionWithPredicate_cascade (tracker : TransactionUpdateTracker)
    (predicate : TransactionRecord → Bool) (cause : DiscardCause) :
    Cascade (fun record => predicate record = true) tracker
      (tracker.discardTransactionWithPredicate predicate cause) :=
  discardWithFuel_cascade _ _ _ predicate cause
    (tracker.discardWithFuel_pendingCount predicate cause)

/-- A discard commits nothing. -/
theorem discardTransactionWithPredicate_committed (tracker : TransactionUpdateTracker)
    (predicate : TransactionRecord → Bool) (cause : DiscardCause) {id : TransactionId}
    {record : TransactionRecord}
    (found : (tracker.discardTransactionWithPredicate predicate cause).transactions[id]? =
      some record)
    (committed : record.status.isCommitted = true) : tracker.transactions[id]? = some record := by
  refine discardWithFuel_related (fun before after => ∀ (id : TransactionId) record,
      after.transactions[id]? = some record → record.status.isCommitted = true →
      before.transactions[id]? = some record)
    (fun _ _ _ found _ => found)
    (fun early late id record found committed =>
      early id record (late id record found committed) committed)
    ?_ _ _ _ predicate cause (tracker.discardWithFuel_pendingCount predicate cause)
    id record found committed
  intro tracker predicate cause id record found committed
  obtain ⟨earlier, tracked, advances⟩ :=
    (tracker.discardPass_evolves predicate cause).of_after found
  rw [discardPass_getElem?, tracked, Option.map_some, Option.some.injEq] at found
  by_cases selected : isDiscardedBy predicate earlier = true
  · rw [if_pos selected] at found
    rw [← found] at committed
    cases committed
  · rw [if_neg selected] at found
    rw [tracked, found]

/-! ### A run of calls -/

/-- Two cascades in a row are one cascade from either set of hits. -/
theorem CascadeUpTo.trans {hit next : TransactionRecord → Prop}
    {first second third : TransactionUpdateTracker} (one : Cascade hit first second)
    (two : Cascade next second third) :
    Cascade (fun record => hit record ∨ next record) first third := by
  have both := newlyDiscarded_trans one.evolves two.evolves
  refine ⟨one.evolves.trans two.evolves, ?_, ?_, ?_, fun _ listed => nomatch listed⟩
  · intro record discarded
    rw [both] at discarded ⊢
    rcases discarded with member | member
    · exact (one.doomed record member).mono (fun _ selected => .direct (Or.inl selected))
        Set.subset_union_left
    · exact (two.doomed record member).mono (fun _ selected => .direct (Or.inr selected))
        Set.subset_union_right
  · intro id record tracked pending selected
    rcases selected with selected | selected
    · exact one.unhit id record (two.evolves.pending_before tracked pending) pending selected
    · exact two.unhit id record tracked pending selected
  · intro id record tracked pending earlier discarded link
    rw [both] at discarded
    rcases discarded with member | member
    · exact one.closed id record (two.evolves.pending_before tracked pending) pending earlier
        member link
    · exact two.closed id record tracked pending earlier member link

theorem newlyDiscarded_self (tracker : TransactionUpdateTracker) :
    newlyDiscarded tracker tracker = ∅ := by
  refine Set.eq_empty_of_forall_notMem ?_
  rintro record ⟨id, next, tracked, pending, found, discarded⟩
  rw [tracked] at found
  rw [← Option.some.inj found, pending] at discarded
  cases discarded

/-- A step that discards nothing is a cascade without hits. -/
theorem cascade_of_newlyDiscarded_empty {before after : TransactionUpdateTracker}
    (evolves : Evolves before after) (none : newlyDiscarded before after = ∅) :
    Cascade (fun _ => False) before after := by
  refine ⟨evolves, ?_, fun _ _ _ _ => not_false, ?_, fun _ listed => nomatch listed⟩
  · rw [none]
    exact fun _ member => member.elim
  · rw [none]
    exact fun _ _ _ _ _ member => member.elim

theorem modify_commit_getElem? (tracker : TransactionUpdateTracker) (target id : TransactionId)
    (height : BlockNumber) (timestamp : ℕ) :
    (tracker.transactions.modify target fun record =>
        (record.commitTransaction height timestamp).1)[id]? =
      tracker.transactions[id]?.map fun record =>
        if target = id then (record.commitTransaction height timestamp).1 else record := by
  rw [ExtTreeMap.getElem?_modify]
  by_cases same : target = id
  · subst same
    simp
  · simp [same]

/-- An inclusion leaves every record as it is, or commits it when it was pending. -/
theorem applyTransactionInclusion_of_before (tracker : TransactionUpdateTracker)
    (inclusion : TransactionInclusion) (timestamp : ℕ) (id : TransactionId) :
    (tracker.applyTransactionInclusion inclusion timestamp).transactions[id]? =
        tracker.transactions[id]? ∨
      ∃ record, tracker.transactions[id]? = some record ∧ record.status = .pending ∧
        (tracker.applyTransactionInclusion inclusion timestamp).transactions[id]? =
          some { record with status := .committed inclusion.blockNum timestamp } := by
  have modified : ∀ target : TransactionId,
      (tracker.transactions.modify target fun record =>
          (record.commitTransaction inclusion.blockNum timestamp).1)[id]? =
        tracker.transactions[id]? ∨
      ∃ record, tracker.transactions[id]? = some record ∧ record.status = .pending ∧
        (tracker.transactions.modify target fun record =>
          (record.commitTransaction inclusion.blockNum timestamp).1)[id]? =
          some { record with status := .committed inclusion.blockNum timestamp } := by
    intro target
    rw [modify_commit_getElem?]
    cases tracked : tracker.transactions[id]? with
    | none => exact Or.inl rfl
    | some record =>
      rw [Option.map_some]
      by_cases same : target = id
      · rw [if_pos same]
        by_cases pending : record.status = .pending
        · rw [record.commitTransaction_of_pending _ _ pending]
          exact Or.inr ⟨record, rfl, pending, rfl⟩
        · rw [record.commitTransaction_of_settled _ _ pending]
          exact Or.inl rfl
      · rw [if_neg same]
        exact Or.inl rfl
  unfold applyTransactionInclusion
  split
  · exact modified inclusion.transactionId
  · split
    · rename_i target _
      exact modified target
    · exact Or.inl rfl

theorem applyTransactionInclusion_evolves (tracker : TransactionUpdateTracker)
    (inclusion : TransactionInclusion) (timestamp : ℕ) :
    Evolves tracker (tracker.applyTransactionInclusion inclusion timestamp) := by
  intro id
  rcases tracker.applyTransactionInclusion_of_before inclusion timestamp id with
    same | ⟨record, tracked, pending, committed⟩
  · rw [same]
    exact Evolves.refl tracker id
  · rw [tracked, committed]
    exact .some (Or.inr ⟨pending, _, rfl⟩)

theorem newlyDiscarded_applyTransactionInclusion (tracker : TransactionUpdateTracker)
    (inclusion : TransactionInclusion) (timestamp : ℕ) :
    newlyDiscarded tracker (tracker.applyTransactionInclusion inclusion timestamp) = ∅ := by
  refine Set.eq_empty_of_forall_notMem ?_
  rintro record ⟨id, next, tracked, pending, found, discarded⟩
  rcases tracker.applyTransactionInclusion_of_before inclusion timestamp id with
    same | ⟨earlier, _, _, committed⟩
  · rw [same, tracked] at found
    rw [← Option.some.inj found, pending] at discarded
    cases discarded
  · rw [committed] at found
    rw [← Option.some.inj found] at discarded
    cases discarded

theorem CascadeUpTo.congr {hit other : TransactionRecord → Prop}
    {before after : TransactionUpdateTracker} (cascade : Cascade hit before after)
    (same : ∀ record, hit record ↔ other record) : Cascade other before after := by
  rwa [← funext fun record => propext (same record)]

/-- Every call is a cascade from the records it hits. -/
theorem applyCall_cascade (tracker : TransactionUpdateTracker) (call : Call) :
    Cascade (fun record => call.Hits record) tracker (tracker.applyCall call) := by
  cases call with
  | transactionInclusion inclusion timestamp =>
    exact cascade_of_newlyDiscarded_empty
      (tracker.applyTransactionInclusion_evolves inclusion timestamp)
      (tracker.newlyDiscarded_applyTransactionInclusion inclusion timestamp)
  | syncHeightUpdate height delta =>
    cases delta with
    | none =>
      refine (tracker.discardTransactionWithPredicate_cascade (isExpired height) .expired).congr ?_
      intro record
      simp [Call.Hits]
    | some blocks =>
      refine ((tracker.discardTransactionWithPredicate_cascade
        (isStale height blocks) .stale).trans
        (discardTransactionWithPredicate_cascade _ (isExpired height) .expired)).congr ?_
      intro record
      simp [Call.Hits]
  | inputNoteNullified nullifier =>
    refine (tracker.discardTransactionWithPredicate_cascade
      (fun record => record.details.inputNoteNullifiers.contains nullifier) .inputConsumed).congr ?_
    intro record
    simp [Call.Hits]
  | invalidInitialAccountState state =>
    refine (tracker.discardTransactionWithPredicate_cascade
      (fun record => record.details.initAccountState == state) .discardedInitialState).congr ?_
    intro record
    simp [Call.Hits]

/-- A whole run is a cascade from the records its calls hit. -/
theorem run_cascade (tracker : TransactionUpdateTracker) (calls : List Call) :
    Cascade (fun record => ∃ call ∈ calls, call.Hits record) tracker (tracker.run calls) := by
  induction calls generalizing tracker with
  | nil =>
    exact (cascade_of_newlyDiscarded_empty (Evolves.refl tracker)
      (newlyDiscarded_self tracker)).congr (by simp)
  | cons call rest inductionHypothesis =>
    exact ((tracker.applyCall_cascade call).trans (inductionHypothesis _)).congr (by simp)

theorem run_append (tracker : TransactionUpdateTracker) (earlier later : List Call) :
    tracker.run (earlier ++ later) = (tracker.run earlier).run later :=
  List.foldl_append

/-- Only an inclusion commits a record. -/
theorem applyCall_uncommitted (tracker : TransactionUpdateTracker) (call : Call)
    (discards : ∀ inclusion timestamp, call ≠ .transactionInclusion inclusion timestamp)
    {id : TransactionId} {record : TransactionRecord}
    (found : (tracker.applyCall call).transactions[id]? = some record)
    (committed : record.status.isCommitted = true) : tracker.transactions[id]? = some record := by
  cases call with
  | transactionInclusion inclusion timestamp => exact absurd rfl (discards inclusion timestamp)
  | syncHeightUpdate height delta =>
    have unexpired := discardTransactionWithPredicate_committed _ _ _ found committed
    cases delta with
    | none => exact unexpired
    | some blocks => exact discardTransactionWithPredicate_committed _ _ _ unexpired committed
  | inputNoteNullified nullifier =>
    exact discardTransactionWithPredicate_committed _ _ _ found committed
  | invalidInitialAccountState state =>
    exact discardTransactionWithPredicate_committed _ _ _ found committed

/-- The call discards the record: it hits it, or it discards a record whose final state is
the record's initial one, or such a record was discarded before. -/
def Reaches (tracker : TransactionUpdateTracker) (earlier : List Call) (call : Call)
    (record : TransactionRecord) : Prop :=
  call.Hits record ∨
    ∃ discarded ∈ newlyDiscarded tracker (tracker.run (earlier ++ [call])),
      discarded.details.finalAccountState = record.details.initAccountState

/-- A pending record a call reaches is discarded by that call. -/
theorem discarded_of_reaches (tracker : TransactionUpdateTracker) (earlier : List Call)
    (call : Call) {id : TransactionId} {record : TransactionRecord}
    (tracked : (tracker.run earlier).transactions[id]? = some record)
    (pending : record.status = .pending) (reached : tracker.Reaches earlier call record) :
    ∃ next, (tracker.run (earlier ++ [call])).transactions[id]? = some next ∧
      next.status.isDiscarded = true := by
  have cascade := tracker.run_cascade (earlier ++ [call])
  have step := (tracker.run earlier).applyCall_cascade call
  have unfolded : tracker.run (earlier ++ [call]) = (tracker.run earlier).applyCall call :=
    tracker.run_append earlier [call]
  obtain ⟨next, found, advances⟩ := step.evolves.of_before tracked
  rw [← unfolded] at found
  refine ⟨next, found, ?_⟩
  cases status : next.status with
  | discarded cause => rfl
  | pending =>
    obtain rfl := advances.eq_of_pending status
    rcases reached with hits | ⟨discarded, member, link⟩
    · exact absurd ⟨call, by simp, hits⟩ (cascade.unhit id next found status)
    · cases cascade.closed id next found status discarded member link
  | committed block timestamp =>
    have committed : next.status.isCommitted = true := by rw [status]; rfl
    rw [unfolded] at found
    by_cases discards : ∀ inclusion timestamp, call ≠ .transactionInclusion inclusion timestamp
    · have unchanged := (tracker.run earlier).applyCall_uncommitted call discards found committed
      rw [tracked] at unchanged
      rw [← Option.some.inj unchanged, pending] at committed
      cases committed
    · push Not at discards
      obtain ⟨inclusion, time, rfl⟩ := discards
      rcases reached with hits | ⟨discarded, member, link⟩
      · exact hits.elim
      · rw [unfolded, newlyDiscarded_trans (tracker.run_cascade earlier).evolves step.evolves,
          applyCall, newlyDiscarded_applyTransactionInclusion, Set.union_empty] at member
        cases (tracker.run_cascade earlier).closed id record tracked pending discarded member link

/-- A record is discarded in a run when some call of it reaches the still pending record. -/
theorem run_discarded_iff_reached (tracker : TransactionUpdateTracker) (calls : List Call)
    {id : TransactionId} {record next : TransactionRecord}
    (tracked : tracker.transactions[id]? = some record) (pending : record.status = .pending)
    (found : (tracker.run calls).transactions[id]? = some next) :
    next.status.isDiscarded = true ↔
      ∃ earlier call later, calls = earlier ++ call :: later ∧
        (tracker.run earlier).transactions[id]? = some record ∧
        tracker.Reaches earlier call record := by
  constructor
  · intro discarded
    induction calls using List.reverseRecOn generalizing next with
    | nil =>
      rw [show tracker.run [] = tracker from rfl, tracked] at found
      rw [← Option.some.inj found, pending] at discarded
      cases discarded
    | append_singleton calls call inductionHypothesis =>
      have step := (tracker.run calls).applyCall_cascade call
      have sofar := (tracker.run_cascade calls).evolves
      have unfolded : tracker.run (calls ++ [call]) = (tracker.run calls).applyCall call :=
        tracker.run_append calls [call]
      obtain ⟨middle, seen, early⟩ := sofar.of_before tracked
      obtain ⟨last, seenLast, late⟩ := step.evolves.of_before seen
      rw [unfolded, seenLast] at found
      obtain rfl := Option.some.inj found
      by_cases still : middle.status = .pending
      · obtain rfl := early.eq_of_pending still
        refine ⟨calls, call, [], rfl, seen, ?_⟩
        have doomed := step.doomed middle ⟨id, last, seen, still, seenLast, discarded⟩
        rcases doomed.hit_or_linked with hits | ⟨other, member, link⟩
        · exact Or.inl hits
        · refine Or.inr ⟨other, ?_, link⟩
          rw [unfolded, newlyDiscarded_trans sofar step.evolves]
          exact Or.inr member
      · obtain rfl := late.eq_of_settled still
        obtain ⟨earlier, which, later, split, before, reached⟩ :=
          inductionHypothesis seen discarded
        refine ⟨earlier, which, later ++ [call], ?_, before, reached⟩
        rw [split, List.append_assoc, List.cons_append]
  · rintro ⟨earlier, call, later, split, before, reached⟩
    obtain ⟨middle, seen, discarded⟩ :=
      tracker.discarded_of_reaches earlier call before pending reached
    have remaining := ((tracker.run (earlier ++ [call])).run_cascade later).evolves
    rw [← run_append, List.append_assoc, List.singleton_append, ← split] at remaining
    obtain ⟨last, seenLast, late⟩ := remaining.of_before seen
    have settled : middle.status ≠ .pending := by
      intro stillPending
      rw [stillPending] at discarded
      cases discarded
    rw [seenLast] at found
    rw [← Option.some.inj found, late.eq_of_settled settled]
    exact discarded

/-- What a run of calls does to the tracked records. The recursive discard always returns.
A settled record keeps its status. A pending record ends discarded exactly when some call
reaches it while it is pending, that is, when the run does not commit it and either a call
hits it or it starts from the final state of a record the run discards. No pending record
is left that starts from such a state. -/
theorem run_discards_exactly_reached (tracker : TransactionUpdateTracker) (calls : List Call) :
    (∀ predicate cause fuel, (tracker.run calls).pendingCount < fuel →
      discardWithFuel fuel (tracker.run calls) predicate cause =
        some ((tracker.run calls).discardTransactionWithPredicate predicate cause)) ∧
    (∀ earlier later (id : TransactionId) record, calls = earlier ++ later →
      (tracker.run earlier).transactions[id]? = some record → record.status ≠ .pending →
      (tracker.run calls).transactions[id]? = some record) ∧
    (∀ (id : TransactionId) record, tracker.transactions[id]? = some record →
      record.status = .pending →
      ∃ next, (tracker.run calls).transactions[id]? = some next ∧
        (next.status.isDiscarded = true ↔
          ∃ earlier call later, calls = earlier ++ call :: later ∧
            (tracker.run earlier).transactions[id]? = some record ∧
            tracker.Reaches earlier call record) ∧
        (next.status.isDiscarded = true ↔
          next.status.isCommitted = false ∧
            ((∃ call ∈ calls, call.Hits record) ∨
              ∃ discarded ∈ newlyDiscarded tracker (tracker.run calls),
                discarded.details.finalAccountState = record.details.initAccountState))) ∧
    (∀ (id : TransactionId) record, (tracker.run calls).transactions[id]? = some record →
      record.status = .pending →
      ∀ discarded ∈ newlyDiscarded tracker (tracker.run calls),
        discarded.details.finalAccountState ≠ record.details.initAccountState) := by
  have cascade := tracker.run_cascade calls
  refine ⟨?_, ?_, ?_, ?_⟩
  · intro predicate cause fuel enough
    exact discardWithFuel_mono _ fuel _ _ predicate cause enough
      ((tracker.run calls).discardWithFuel_pendingCount predicate cause)
  · rintro earlier later id record rfl tracked settled
    have remaining := ((tracker.run earlier).run_cascade later).evolves
    obtain ⟨next, found, advances⟩ := remaining.of_before tracked
    rw [run_append, found, advances.eq_of_settled settled]
  · intro id record tracked pending
    obtain ⟨next, found, advances⟩ := cascade.evolves.of_before tracked
    refine ⟨next, found, tracker.run_discarded_iff_reached calls tracked pending found, ?_⟩
    constructor
    · intro discarded
      refine ⟨?_, (cascade.doomed record
        ⟨id, next, tracked, pending, found, discarded⟩).hit_or_linked⟩
      obtain ⟨cause, status⟩ := next.status.isDiscarded_iff.mp discarded
      rw [status]
      rfl
    · rintro ⟨uncommitted, reached⟩
      cases status : next.status with
      | discarded cause => rfl
      | committed block timestamp =>
        rw [status] at uncommitted
        cases uncommitted
      | pending =>
        obtain rfl := advances.eq_of_pending status
        rcases reached with hits | ⟨discarded, member, link⟩
        · exact absurd hits (cascade.unhit id next found status)
        · cases cascade.closed id next found status discarded member link
  · intro id record tracked pending discarded member link
    cases cascade.closed id record tracked pending discarded member link

end TransactionUpdateTracker

end MidenClient
