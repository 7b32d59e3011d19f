/-
This file shows which local transactions the node's inclusions commit.

An inclusion with a tracked id commits that transaction. One with an unknown id
falls back to the first tracked transaction of the same account and initial state,
because the block producer may have changed the id by authenticating input notes.
The fallback compares neither the final state nor the input notes, and it looks at
one transaction only. It therefore commits the right transactions exactly when the
first transaction of every fallback really was included, and every transaction that
was included under another id is the first of its account and initial state.
-/

import MidenClient.Library.OrderedMap
import MidenClient.Sync.DiscardCascade

namespace MidenClient

open Std (ExtTreeMap)

namespace TransactionUpdateTracker

/-! ### The transaction an inclusion selects -/

/-- The local transaction has the inclusion's account and initial state. -/
def SameStart (inclusion : TransactionInclusion) (record : TransactionRecord) : Prop :=
  record.details.accountId = inclusion.accountId ∧
    record.details.initAccountState = inclusion.initialStateCommitment

/-- The tracked transaction an inclusion commits: the one with its id, or the first one with
its account and initial state. -/
def Selects (tracker : TransactionUpdateTracker) (inclusion : TransactionInclusion)
    (id : TransactionId) : Prop :=
  (id ∈ tracker.transactions ∧ id = inclusion.transactionId) ∨
    inclusion.transactionId ∉ tracker.transactions ∧
      (∃ record, tracker.transactions[id]? = some record ∧ SameStart inclusion record) ∧
      ∀ (other : TransactionId) record, tracker.transactions[other]? = some record →
        SameStart inclusion record → id ≤ other

/-- The search of the fallback finds the least id with the inclusion's start. -/
theorem findByInitialState_eq_some_iff (tracker : TransactionUpdateTracker)
    (inclusion : TransactionInclusion) (id : TransactionId) :
    tracker.findByInitialState inclusion = some id ↔
      (∃ record, tracker.transactions[id]? = some record ∧ SameStart inclusion record) ∧
      ∀ (other : TransactionId) record, tracker.transactions[other]? = some record →
        SameStart inclusion record → id ≤ other := by
  have matching : ∀ entry : TransactionId × TransactionRecord,
      (entry.2.details.accountId == inclusion.accountId &&
        entry.2.details.initAccountState == inclusion.initialStateCommitment) = true ↔
        SameStart inclusion entry.2 := by
    intro entry
    simp [SameStart]
  have least : ∀ found, tracker.findByInitialState inclusion = some found →
      (∃ record, tracker.transactions[found]? = some record ∧ SameStart inclusion record) ∧
      ∀ (other : TransactionId) record, tracker.transactions[other]? = some record →
        SameStart inclusion record → found ≤ other := by
    intro found searched
    obtain ⟨entry, first, rfl⟩ := Option.map_eq_some_iff.mp searched
    obtain ⟨selected, before, after, split, unselected⟩ :=
      List.find?_eq_some_iff_append.mp first
    have member : entry ∈ tracker.transactions.toList := by
      rw [split]
      exact List.mem_append_right _ List.mem_cons_self
    refine ⟨⟨entry.2, ExtTreeMap.mem_toList_iff_getElem?_eq_some.mp member,
      (matching entry).mp selected⟩, ?_⟩
    intro other record tracked starts
    have listed := ExtTreeMap.mem_toList_iff_getElem?_eq_some.mpr tracked
    have ordered := OrderedMap.pairwise_lt_toList tracker.transactions
    rw [split] at listed ordered
    rcases List.mem_append.mp listed with early | late
    · have rejected := unselected _ early
      rw [(matching (other, record)).mpr starts] at rejected
      cases rejected
    · rcases List.mem_cons.mp late with same | later
      · rw [← same]
      · have above := (List.pairwise_cons.mp (List.pairwise_append.mp ordered).2.1).1 _ later
        exact above.le
  constructor
  · exact least id
  · rintro ⟨⟨record, tracked, starts⟩, first⟩
    have listed := ExtTreeMap.mem_toList_iff_getElem?_eq_some.mpr tracked
    have some : (tracker.findByInitialState inclusion).isSome = true := by
      rw [findByInitialState, Option.isSome_map, List.find?_isSome]
      exact ⟨(id, record), listed, (matching (id, record)).mpr starts⟩
    obtain ⟨found, searched⟩ := Option.isSome_iff_exists.mp some
    obtain ⟨⟨other, seen, alike⟩, below⟩ := least found searched
    rw [searched, le_antisymm (below id record tracked starts) (first found other seen alike)]

/-- An inclusion commits the selected transaction and leaves the others alone. -/
theorem applyTransactionInclusion_getElem? (tracker : TransactionUpdateTracker)
    (inclusion : TransactionInclusion) (timestamp : ℕ) (id : TransactionId)
    [Decidable (tracker.Selects inclusion id)] :
    (tracker.applyTransactionInclusion inclusion timestamp).transactions[id]? =
      tracker.transactions[id]?.map fun record =>
        if tracker.Selects inclusion id then
          (record.commitTransaction inclusion.blockNum timestamp).1
        else record := by
  unfold applyTransactionInclusion
  cases tracked : tracker.transactions[inclusion.transactionId]? with
  | some known =>
    have present : inclusion.transactionId ∈ tracker.transactions := by
      rw [← ExtTreeMap.isSome_getElem?_iff_mem, tracked]
      rfl
    have selects : tracker.Selects inclusion id ↔ inclusion.transactionId = id := by
      constructor
      · rintro (⟨_, same⟩ | ⟨absent, _⟩)
        · exact same.symm
        · exact absurd present absent
      · rintro rfl
        exact Or.inl ⟨present, rfl⟩
    simp only [modify_commit_getElem?, selects]
  | none =>
    have absent : inclusion.transactionId ∉ tracker.transactions :=
      fun present => by simp [ExtTreeMap.getElem?_eq_some_getElem present] at tracked
    have selects : tracker.Selects inclusion id ↔
        tracker.findByInitialState inclusion = some id := by
      rw [findByInitialState_eq_some_iff]
      constructor
      · rintro (⟨present, same⟩ | ⟨_, first⟩)
        · exact absurd (same ▸ present) absent
        · exact first
      · exact fun first => Or.inr ⟨absent, first⟩
    simp only [selects]
    cases tracker.findByInitialState inclusion with
    | some target => simp only [modify_commit_getElem?, Option.some.injEq]
    | none => simp

theorem Evolves.mem_iff {before after : TransactionUpdateTracker} (step : Evolves before after)
    (id : TransactionId) : id ∈ before.transactions ↔ id ∈ after.transactions := by
  rw [← ExtTreeMap.isSome_getElem?_iff_mem, ← ExtTreeMap.isSome_getElem?_iff_mem]
  have related := step id
  revert related
  cases before.transactions[id]? <;> cases after.transactions[id]? <;> simp

theorem Evolves.sameStart_iff {before after : TransactionUpdateTracker}
    (step : Evolves before after) (inclusion : TransactionInclusion) (id : TransactionId) :
    (∃ record, before.transactions[id]? = some record ∧ SameStart inclusion record) ↔
      ∃ record, after.transactions[id]? = some record ∧ SameStart inclusion record := by
  constructor
  · rintro ⟨record, tracked, starts⟩
    obtain ⟨next, found, advances⟩ := step.of_before tracked
    exact ⟨next, found, by rwa [SameStart, advances.details_eq]⟩
  · rintro ⟨record, tracked, starts⟩
    obtain ⟨earlier, found, advances⟩ := step.of_after tracked
    exact ⟨earlier, found, by rwa [SameStart, ← advances.details_eq]⟩

/-- Which transaction an inclusion selects does not depend on the statuses. -/
theorem Evolves.selects_iff {before after : TransactionUpdateTracker}
    (step : Evolves before after) (inclusion : TransactionInclusion) (id : TransactionId) :
    before.Selects inclusion id ↔ after.Selects inclusion id := by
  have first : ∀ tracker : TransactionUpdateTracker,
      (∀ (other : TransactionId) record, tracker.transactions[other]? = some record →
        SameStart inclusion record → id ≤ other) ↔
      ∀ other : TransactionId, (∃ record, tracker.transactions[other]? = some record ∧
        SameStart inclusion record) → id ≤ other := by
    intro tracker
    simp only [forall_exists_index, and_imp]
  simp only [Selects, first, step.mem_iff, step.sameStart_iff]

/-! ### A list of inclusions -/

/-- The loop of `transaction_state_sync` over the records of one response. -/
def applyInclusions (tracker : TransactionUpdateTracker) (included : List RpcTransactionRecord)
    (timestamp : ℕ) : TransactionUpdateTracker :=
  included.foldl
    (fun tracker record => tracker.applyTransactionInclusion record.toInclusion timestamp) tracker

/-- Going through the inclusions commits exactly the selected pending transactions. -/
theorem applyInclusions_isCommitted_iff (tracker : TransactionUpdateTracker)
    (included : List RpcTransactionRecord) (timestamp : ℕ) {id : TransactionId}
    {record : TransactionRecord} (tracked : tracker.transactions[id]? = some record)
    (pending : record.status = .pending) :
    ∃ next, (tracker.applyInclusions included timestamp).transactions[id]? = some next ∧
      (next.status.isCommitted = true ↔
        ∃ inclusion ∈ included, tracker.Selects inclusion.toInclusion id) := by
  classical
  have settles : ∀ (rest : List RpcTransactionRecord) (current : TransactionUpdateTracker)
      (settled : TransactionRecord), current.transactions[id]? = some settled →
      settled.status ≠ .pending →
      (current.applyInclusions rest timestamp).transactions[id]? = some settled := by
    intro rest
    induction rest with
    | nil => exact fun _ _ found _ => found
    | cons inclusion rest restHypothesis =>
      intro current settled found notPending
      refine restHypothesis _ settled ?_ notPending
      rw [applyTransactionInclusion_getElem?, found, Option.map_some,
        settled.commitTransaction_of_settled _ _ notPending, ite_self]
  induction included generalizing tracker with
  | nil =>
    refine ⟨record, tracked, ?_⟩
    simp [pending, TransactionStatus.isCommitted]
  | cons inclusion rest inductionHypothesis =>
    have evolves := tracker.applyTransactionInclusion_evolves inclusion.toInclusion timestamp
    have step :=
      tracker.applyTransactionInclusion_getElem? inclusion.toInclusion timestamp id
    rw [tracked, Option.map_some] at step
    by_cases selected : tracker.Selects inclusion.toInclusion id
    · rw [if_pos selected, record.commitTransaction_of_pending _ _ pending] at step
      refine ⟨_, settles rest _ _ step (by simp), ?_⟩
      exact iff_of_true rfl ⟨inclusion, List.mem_cons_self, selected⟩
    · rw [if_neg selected] at step
      obtain ⟨next, found, committed⟩ := inductionHypothesis _ step
      refine ⟨next, found, committed.trans ?_⟩
      simp only [← evolves.selects_iff, List.mem_cons, exists_eq_or_imp, selected, false_or]

/-! ### Whether the right transactions are committed -/

/-- The node's record is the inclusion of the local transaction under another id: same
account, same initial and final state, same input nullifiers. -/
def SameEffect (included : RpcTransactionRecord) (record : TransactionRecord) : Prop :=
  included.transactionHeader.accountId = record.details.accountId ∧
    included.transactionHeader.initialStateCommitment = record.details.initAccountState ∧
    included.transactionHeader.finalStateCommitment = record.details.finalAccountState ∧
    included.transactionHeader.inputNotes = record.details.inputNoteNullifiers

/-- The node's record is the inclusion of that very local transaction. -/
def Corresponds (included : RpcTransactionRecord) (record : TransactionRecord) : Prop :=
  included.transactionHeader.id = record.id ∨ SameEffect included record

/-- The step of one inclusion turns the pending transaction into a committed one. -/
def Commits (tracker : TransactionUpdateTracker) (included : RpcTransactionRecord)
    (timestamp : ℕ) (id : TransactionId) : Prop :=
  ∃ record next, tracker.transactions[id]? = some record ∧ record.status = .pending ∧
    (tracker.applyTransactionInclusion included.toInclusion timestamp).transactions[id]? =
      some next ∧
    next.status.isCommitted = true

/-- Applying the inclusions commits only transactions that were included, each at most once,
and all of them. -/
def CommitsCorresponding (pending : List TransactionRecord)
    (included : List RpcTransactionRecord) (timestamp : ℕ) : Prop :=
  let tracker := new pending
  let committed (record : TransactionRecord) : Prop :=
    ∃ next, (tracker.applyInclusions included timestamp).transactions[record.id]? = some next ∧
      next.status.isCommitted = true
  (∀ record ∈ pending, committed record →
    ∃ inclusion ∈ included, Corresponds inclusion record) ∧
  (∀ before first between second after,
    included = before ++ first :: (between ++ second :: after) → ∀ id : TransactionId,
    ¬((tracker.applyInclusions before timestamp).Commits first timestamp id ∧
      (tracker.applyInclusions (before ++ first :: between) timestamp).Commits second timestamp
        id)) ∧
  (∀ record ∈ pending, (∃ inclusion ∈ included, Corresponds inclusion record) →
    committed record)

/-- No local transaction of the same account and initial state has a smaller id. -/
def IsFirstOfStart (pending : List TransactionRecord) (record : TransactionRecord) : Prop :=
  ∀ other ∈ pending, other.details.accountId = record.details.accountId →
    other.details.initAccountState = record.details.initAccountState → record.id ≤ other.id

/-- The node's record has an id that is not local, and the local transaction's account and
initial state. -/
def FallsBackTo (pending : List TransactionRecord) (included : RpcTransactionRecord)
    (record : TransactionRecord) : Prop :=
  (∀ other ∈ pending, other.id ≠ included.transactionHeader.id) ∧
    included.transactionHeader.accountId = record.details.accountId ∧
    included.transactionHeader.initialStateCommitment = record.details.initAccountState

theorem new_getElem?_eq_some_iff (pending : List TransactionRecord)
    (distinct : (pending.map TransactionRecord.id).Nodup) (id : TransactionId)
    (record : TransactionRecord) :
    (new pending).transactions[id]? = some record ↔ record ∈ pending ∧ record.id = id := by
  have keys : ((pending.map fun record => (record.id, record)).map Prod.fst).Nodup := by
    rwa [List.map_map]
  rw [new, OrderedMap.getElem?_ofList_eq_some_iff _ keys]
  constructor
  · intro listed
    obtain ⟨other, member, same⟩ := List.mem_map.mp listed
    obtain ⟨rfl, rfl⟩ := Prod.mk.inj same
    exact ⟨member, rfl⟩
  · rintro ⟨member, rfl⟩
    exact List.mem_map_of_mem member

theorem mem_new_iff (pending : List TransactionRecord)
    (distinct : (pending.map TransactionRecord.id).Nodup) (id : TransactionId) :
    id ∈ (new pending).transactions ↔ ∃ record ∈ pending, record.id = id := by
  rw [← ExtTreeMap.isSome_getElem?_iff_mem, Option.isSome_iff_exists]
  simp only [new_getElem?_eq_some_iff pending distinct]

/-- Selection over the local transactions themselves. -/
theorem new_selects_iff (pending : List TransactionRecord)
    (distinct : (pending.map TransactionRecord.id).Nodup) (included : RpcTransactionRecord)
    (record : TransactionRecord) (member : record ∈ pending) :
    (new pending).Selects included.toInclusion record.id ↔
      included.transactionHeader.id = record.id ∨
        FallsBackTo pending included record ∧ IsFirstOfStart pending record := by
  have tracked : ∀ (id : TransactionId) (other : TransactionRecord),
      (new pending).transactions[id]? = some other ↔ other ∈ pending ∧ other.id = id :=
    new_getElem?_eq_some_iff pending distinct
  have unique : ∀ other ∈ pending, other.id = record.id → other = record := fun other listed same =>
    List.inj_on_of_nodup_map distinct listed member same
  have fresh : included.toInclusion.transactionId ∉ (new pending).transactions ↔
      ∀ other ∈ pending, other.id ≠ included.transactionHeader.id := by
    rw [mem_new_iff pending distinct]
    simp [RpcTransactionRecord.toInclusion]
  constructor
  · rintro (⟨_, same⟩ | ⟨unknown, ⟨other, found, starts⟩, least⟩)
    · exact Or.inl same.symm
    · obtain ⟨listed, sameId⟩ := (tracked _ _).mp found
      obtain rfl := unique other listed sameId
      refine Or.inr ⟨⟨fresh.mp unknown, starts.1.symm, starts.2.symm⟩, ?_⟩
      intro rival rivalListed sameAccount sameState
      exact least rival.id rival ((tracked _ _).mpr ⟨rivalListed, rfl⟩)
        ⟨sameAccount.trans starts.1, sameState.trans starts.2⟩
  · rintro (same | ⟨⟨unknown, sameAccount, sameState⟩, least⟩)
    · exact Or.inl ⟨(mem_new_iff pending distinct record.id).mpr ⟨record, member, rfl⟩, same.symm⟩
    · refine Or.inr ⟨fresh.mpr unknown, ⟨record, (tracked _ _).mpr ⟨member, rfl⟩,
        sameAccount.symm, sameState.symm⟩, ?_⟩
      intro other rival found starts
      obtain ⟨listed, rfl⟩ := (tracked _ _).mp found
      exact least rival listed (starts.1.trans sameAccount) (starts.2.trans sameState)

/-- One transaction is committed by one inclusion at most, whatever the inclusions are. -/
theorem commits_once (tracker : TransactionUpdateTracker)
    (first second : RpcTransactionRecord) (between : List RpcTransactionRecord) (timestamp : ℕ)
    (id : TransactionId) (early : tracker.Commits first timestamp id) :
    ¬(tracker.applyInclusions (first :: between) timestamp).Commits second timestamp id := by
  rintro ⟨record, next, tracked, pending, _⟩
  obtain ⟨_, done, _, _, found, committed⟩ := early
  have evolves : ∀ (included : List RpcTransactionRecord) (start : TransactionUpdateTracker),
      Evolves start (start.applyInclusions included timestamp) := by
    intro included
    induction included with
    | nil => exact Evolves.refl
    | cons inclusion rest inductionHypothesis =>
      intro start
      exact (start.applyTransactionInclusion_evolves inclusion.toInclusion timestamp).trans
        (inductionHypothesis _)
  have unsettled := (evolves between _).pending_before tracked pending
  rw [found] at unsettled
  rw [Option.some.inj unsettled, pending] at committed
  cases committed

theorem applyInclusions_append (tracker : TransactionUpdateTracker)
    (before after : List RpcTransactionRecord) (timestamp : ℕ) :
    tracker.applyInclusions (before ++ after) timestamp =
      (tracker.applyInclusions before timestamp).applyInclusions after timestamp :=
  List.foldl_append

/-- The inclusions commit the right local transactions exactly when every fallback falls on a
transaction that was included, and every transaction that was included only under another id
is the first of its account and initial state and some fallback falls on it. -/
theorem commitsCorresponding_iff (pending : List TransactionRecord)
    (statuses : ∀ record ∈ pending, record.status = .pending)
    (distinct : (pending.map TransactionRecord.id).Nodup)
    (included : List RpcTransactionRecord) (timestamp : ℕ) :
    CommitsCorresponding pending included timestamp ↔
      (∀ record ∈ pending, IsFirstOfStart pending record →
        ∀ inclusion ∈ included, FallsBackTo pending inclusion record →
        ∃ other ∈ included, Corresponds other record) ∧
      ∀ record ∈ pending, ∀ inclusion ∈ included, SameEffect inclusion record →
        (∃ other ∈ included, other.transactionHeader.id = record.id) ∨
          IsFirstOfStart pending record ∧
            ∃ other ∈ included, FallsBackTo pending other record := by
  have committed : ∀ record ∈ pending,
      (∃ next, ((new pending).applyInclusions included timestamp).transactions[record.id]? =
          some next ∧ next.status.isCommitted = true) ↔
        ∃ inclusion ∈ included, inclusion.transactionHeader.id = record.id ∨
          FallsBackTo pending inclusion record ∧ IsFirstOfStart pending record := by
    intro record member
    have tracked := (new_getElem?_eq_some_iff pending distinct record.id record).mpr ⟨member, rfl⟩
    obtain ⟨next, found, iff⟩ := applyInclusions_isCommitted_iff _ included timestamp tracked
      (statuses record member)
    simp only [new_selects_iff pending distinct _ record member] at iff
    rw [← iff, found]
    simp
  have once : ∀ before first between second after,
      included = before ++ first :: (between ++ second :: after) → ∀ id : TransactionId,
      ¬(((new pending).applyInclusions before timestamp).Commits first timestamp id ∧
        ((new pending).applyInclusions (before ++ first :: between) timestamp).Commits second
          timestamp id) := by
    rintro before first between second after - id ⟨early, late⟩
    rw [applyInclusions_append] at late
    exact commits_once _ first second between timestamp id early late
  constructor
  · rintro ⟨sound, -, complete⟩
    refine ⟨?_, ?_⟩
    · intro record member first inclusion listed fallsBack
      exact sound record member
        ((committed record member).mpr ⟨inclusion, listed, Or.inr ⟨fallsBack, first⟩⟩)
    · intro record member inclusion listed effect
      obtain ⟨other, found, same | ⟨fallsBack, first⟩⟩ := (committed record member).mp
        (complete record member ⟨inclusion, listed, Or.inr effect⟩)
      · exact Or.inl ⟨other, found, same⟩
      · exact Or.inr ⟨first, other, found, fallsBack⟩
  · rintro ⟨fallbacks, renamed⟩
    refine ⟨?_, once, ?_⟩
    · intro record member done
      obtain ⟨inclusion, listed, same | ⟨fallsBack, first⟩⟩ := (committed record member).mp done
      · exact ⟨inclusion, listed, Or.inl same⟩
      · exact fallbacks record member first inclusion listed fallsBack
    · rintro record member ⟨inclusion, listed, same | effect⟩
      · exact (committed record member).mpr ⟨inclusion, listed, Or.inl same⟩
      · refine (committed record member).mpr ?_
        rcases renamed record member inclusion listed effect with
          ⟨other, found, same⟩ | ⟨first, other, found, fallsBack⟩
        · exact ⟨other, found, Or.inl same⟩
        · exact ⟨other, found, Or.inr ⟨fallsBack, first⟩⟩

/-- A pending transaction of account 7 that takes state 10 to state 11. -/
def ownTransaction : TransactionRecord where
  id := 1
  details :=
    { accountId := 7, initAccountState := 10, finalAccountState := 11, inputNoteNullifiers := [5],
      blockNum := 1, submissionHeight := 1, expirationBlockNum := 100, creationTimestamp := 0 }
  status := .pending

/-- A transaction another device built on the same state, with other notes. -/
def rivalInclusion : RpcTransactionRecord where
  blockNum := 2
  transactionHeader :=
    { id := 2, accountId := 7, initialStateCommitment := 10, finalStateCommitment := 12,
      inputNotes := [6] }

/-- The included transaction of the other device commits the local one. -/
theorem not_commitsCorresponding_rival :
    (∀ record ∈ [ownTransaction], record.status = .pending) ∧
      ([ownTransaction].map TransactionRecord.id).Nodup ∧
      ¬CommitsCorresponding [ownTransaction] [rivalInclusion] 0 := by
  refine ⟨by simp [ownTransaction], by simp, ?_⟩
  rintro ⟨sound, -⟩
  obtain ⟨inclusion, listed, corresponds⟩ := sound ownTransaction List.mem_cons_self
    ⟨{ ownTransaction with status := .committed 2 0 }, by rfl, rfl⟩
  obtain rfl := List.mem_singleton.mp listed
  simp [Corresponds, SameEffect, ownTransaction, rivalInclusion] at corresponds

/-- A transaction whose id changed is committed when it is the only one of its start. -/
theorem commitsCorresponding_iff_renamed :
    CommitsCorresponding [ownTransaction]
      [{ rivalInclusion with transactionHeader :=
          { rivalInclusion.transactionHeader with
            finalStateCommitment := 11, inputNotes := [5] } }] 0 := by
  refine (commitsCorresponding_iff [ownTransaction] (by simp [ownTransaction]) (by simp) _ 0).mpr ?_
  simp [IsFirstOfStart, FallsBackTo, Corresponds, SameEffect, ownTransaction, rivalInclusion]

end TransactionUpdateTracker

end MidenClient
