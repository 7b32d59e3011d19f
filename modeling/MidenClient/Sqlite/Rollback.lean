/-
This file relates the undoing of discarded account states to the transactions that
produced them.

Executed transactions that raise the nonce archive what they replace under a nonce that
has no rows yet. Undoing the final states of the last transactions of a run therefore
takes these transactions off the run one by one. One row can be lost: the historical
table is keyed by the commitment, so archiving a state again, after a transaction that
did not change the account had archived it, replaces the earlier row, and undoing
deletes the later one.
-/

import MidenClient.Sqlite.Undo

namespace MidenClient

open Std (ExtTreeMap)

/-- An executed transaction, as far as the account tables are concerned: the account state it
starts from and the one it ends in, the assets and roots read for it, and its delta. -/
structure AccountStep where
  initState : AccountHeader
  finalState : AccountHeader
  updatedFungibleAssets : ExtTreeMap AssetVaultKey FungibleAsset
  newRoots : StorageSlotName → Word
  delta : AccountDelta

section Library

variable [ProtocolLibrary]

namespace AccountStep

/-- Applies the transaction to the tables. -/
def apply (db : Database) (step : AccountStep) : Except StoreError Database :=
  db.applyDeltaTables step.initState step.finalState step.updatedFungibleAssets
    (Database.updatedSlots step.newRoots step.delta) step.delta

/-- What a successful application changes in each table. The content tables take recorded steps
when nothing was archived under the new nonce. -/
structure Effect (db next : Database) (step : AccountStep) : Prop where
  accountCode : next.accountCode = db.accountCode
  latest : next.latestAccountHeaders =
    (db.replaceLatestHeader ⟨step.finalState, none, false⟩).latestAccountHeaders
  historical : next.historicalAccountHeaders =
    (db.replaceHistoricalHeader
      (db.archivedRow step.initState step.finalState.nonce)).historicalAccountHeaders
  slots : db.RespectsSlotTypes step.finalState.id step.delta →
    (∀ key, db.accountStorage.archived step.finalState.id step.finalState.nonce key = none) →
    HistoryTable.Recorded Database.oldSlot step.finalState.id step.finalState.nonce
      db.accountStorage next.accountStorage
  entries :
    (∀ key, db.storageMapEntries.archived step.finalState.id step.finalState.nonce key = none) →
    HistoryTable.Recorded id step.finalState.id step.finalState.nonce db.storageMapEntries
      next.storageMapEntries
  assets :
    (∀ key, db.accountAssets.archived step.finalState.id step.finalState.nonce key = none) →
    HistoryTable.Recorded id step.finalState.id step.finalState.nonce db.accountAssets
      next.accountAssets

theorem apply_effect {db next : Database} {step : AccountStep}
    (applied : step.apply db = .ok next) :
    Effect db next step := by
  obtain ⟨headed, inserted, afterHeader⟩ := Fallible.bind_eq_ok.mp applied
  obtain ⟨changes, computed, written⟩ := Fallible.bind_eq_ok.mp afterHeader
  obtain ⟨-, -, -, rfl⟩ :=
    (db.insertAccountHeader_some_eq_ok_iff headed _ _ none).mp inserted
  cases written
  let vaulted := ((db.replaceHistoricalHeader (db.archivedRow step.initState
    step.finalState.nonce)).replaceLatestHeader ⟨step.finalState, none, false⟩).persistVaultDelta
    step.finalState.id step.finalState.nonce changes.removedVaultKeys changes.assets
  rw [Database.writeStorageDelta_frame]
  refine ⟨rfl, rfl, rfl, ?_, ?_, ?_⟩
  · intro typed fresh
    exact Database.writeStorageDelta_recorded_slots vaulted step.newRoots typed fresh
  · intro fresh
    exact Database.writeStorageDelta_recorded_entries vaulted _ step.delta fresh
  · intro fresh
    exact Database.persistVaultDelta_recorded (VaultChanges.ofDelta_valid computed) fresh

/-- The transaction was executed on top of the stored state of the account, raised its nonce and
did not change the type of a stored slot. -/
structure ExecutesOn (db : Database) (accountId : AccountId) (step : AccountStep) : Prop where
  stored : db.latestAccountHeaders[accountId]?.map HeaderRow.header = some step.initState
  sameAccount : step.finalState.id = accountId
  raisesNonce : step.initState.nonce < step.finalState.nonce
  typed : db.RespectsSlotTypes accountId step.delta

end AccountStep

namespace Database

/-- A run of executed transactions of one account. -/
inductive Run (accountId : AccountId) : Database → List AccountStep → Database → Prop
  | nil (db : Database) : Run accountId db [] db
  | cons {db next last : Database} {step : AccountStep} {rest : List AccountStep}
      (executes : step.ExecutesOn db accountId) (applied : step.apply db = .ok next)
      (remaining : Run accountId next rest last) : Run accountId db (step :: rest) last

/-- The history of an account is below a nonce: its rows were replaced at that nonce or before,
and no header was replaced before its own nonce. -/
structure HistoryBelow (db : Database) (accountId : AccountId) (nonce : ℕ) : Prop where
  headers : ∀ row ∈ db.historicalAccountHeaders, row.header.id = accountId →
    row.header.nonce ≤ row.replacedAtNonce ∧ row.replacedAtNonce ≤ nonce
  slots : db.accountStorage.Below accountId nonce
  entries : db.storageMapEntries.Below accountId nonce
  assets : db.accountAssets.Below accountId nonce

/-- An account with its latest row and a history below it. -/
structure StoredAccount (db : Database) (accountId : AccountId) (row : HeaderRow) : Prop where
  keyed : db.HeadersKeyed
  latest : db.latestAccountHeaders[accountId]? = some row
  below : db.HistoryBelow accountId row.header.nonce

/-! ### One transaction -/

section Step

variable {accountId : AccountId} {db next : Database} {row : HeaderRow} {step : AccountStep}

omit [ProtocolLibrary] in
/-- A stored header is archived with its own seed and lock. -/
theorem archivedRow_of_stored (keyed : db.HeadersKeyed)
    (stored : db.latestAccountHeaders[accountId]? = some row) (nonce : ℕ) :
    db.archivedRow row.header nonce = ⟨row, nonce⟩ := by
  rw [archivedRow, keyed accountId row stored, stored]
  rfl

omit [ProtocolLibrary] in
theorem initState_eq (executes : step.ExecutesOn db accountId)
    (stored : db.latestAccountHeaders[accountId]? = some row) : step.initState = row.header := by
  have same := executes.stored
  rw [stored] at same
  exact (Option.some.inj same).symm

theorem step_latest (collisionFree : CollisionFree) (keyed : db.HeadersKeyed)
    (executes : step.ExecutesOn db accountId) (applied : step.apply db = .ok next)
    (id : AccountId) :
    next.latestAccountHeaders[id]? =
      if accountId = id then some ⟨step.finalState, none, false⟩
      else db.latestAccountHeaders[id]? := by
  rw [(AccountStep.apply_effect applied).latest,
    db.replaceLatestHeader_getElem? _ collisionFree keyed, executes.sameAccount]

theorem step_keyed (collisionFree : CollisionFree) (keyed : db.HeadersKeyed)
    (applied : step.apply db = .ok next) : next.HeadersKeyed := by
  intro id row found
  rw [(AccountStep.apply_effect applied).latest] at found
  exact db.replaceLatestHeader_keyed _ collisionFree keyed id row found

/-- The stored header moves to the end of the historical table, in place of an earlier row of the
same state. -/
theorem step_historical (collisionFree : CollisionFree) (keyed : db.HeadersKeyed)
    (stored : db.latestAccountHeaders[accountId]? = some row)
    (executes : step.ExecutesOn db accountId) (applied : step.apply db = .ok next) :
    next.historicalAccountHeaders =
      (db.historicalAccountHeaders.filter fun other => other.header ≠ row.header) ++
        [⟨row, step.finalState.nonce⟩] := by
  rw [(AccountStep.apply_effect applied).historical, initState_eq executes stored,
    archivedRow_of_stored keyed stored]
  show _ ++ _ = _ ++ _
  congr 1
  refine List.filter_congr fun other _ => ?_
  rw [decide_eq_decide, ne_eq, ne_eq, collisionFree.eq_iff]

variable (collisionFree : CollisionFree) (account : db.StoredAccount accountId row)
  (executes : step.ExecutesOn db accountId) (applied : step.apply db = .ok next)

omit [ProtocolLibrary] in
include account executes in
theorem step_raisesNonce : row.header.nonce < step.finalState.nonce := by
  rw [← initState_eq executes account.latest]
  exact executes.raisesNonce

include account executes applied in
theorem step_recorded_slots :
    HistoryTable.Recorded oldSlot accountId step.finalState.nonce db.accountStorage
      next.accountStorage := by
  have recorded := (AccountStep.apply_effect applied).slots
  rw [executes.sameAccount] at recorded
  exact recorded executes.typed (account.below.slots.fresh (step_raisesNonce account executes))

include account executes applied in
theorem step_recorded_entries :
    HistoryTable.Recorded id accountId step.finalState.nonce db.storageMapEntries
      next.storageMapEntries := by
  have recorded := (AccountStep.apply_effect applied).entries
  rw [executes.sameAccount] at recorded
  exact recorded (account.below.entries.fresh (step_raisesNonce account executes))

include account executes applied in
theorem step_recorded_assets :
    HistoryTable.Recorded id accountId step.finalState.nonce db.accountAssets
      next.accountAssets := by
  have recorded := (AccountStep.apply_effect applied).assets
  rw [executes.sameAccount] at recorded
  exact recorded (account.below.assets.fresh (step_raisesNonce account executes))

include collisionFree account executes applied in
/-- After a transaction every historical state of the account is older than the latest. -/
theorem step_older (old : HistoricalHeaderRow) (member : old ∈ next.historicalAccountHeaders)
    (ofAccount : old.header.id = accountId) :
    old.header.nonce < step.finalState.nonce ∧ old.header.nonce ≤ old.replacedAtNonce ∧
      old.replacedAtNonce ≤ step.finalState.nonce := by
  have raised := step_raisesNonce account executes
  rw [step_historical collisionFree account.keyed account.latest executes applied,
    List.mem_append, List.mem_singleton] at member
  rcases member with earlier | rfl
  · have bound := account.below.headers old (List.mem_of_mem_filter earlier) ofAccount
    omega
  · exact ⟨raised, raised.le, le_rfl⟩

include collisionFree account executes applied in
theorem step_stored : next.StoredAccount accountId ⟨step.finalState, none, false⟩ where
  keyed := step_keyed collisionFree account.keyed applied
  latest := by
    rw [step_latest collisionFree account.keyed executes applied, if_pos rfl]
  below :=
    { headers := fun old member ofAccount =>
        (step_older collisionFree account executes applied old member ofAccount).2
      slots := (step_recorded_slots account executes applied).below account.below.slots
        (step_raisesNonce account executes)
      entries := (step_recorded_entries account executes applied).below account.below.entries
        (step_raisesNonce account executes)
      assets := (step_recorded_assets account executes applied).below account.below.assets
        (step_raisesNonce account executes) }

end Step

/-! ### Runs of transactions -/

/-- The latest row after some transactions. -/
def finalRow (row : HeaderRow) : List AccountStep → HeaderRow
  | [] => row
  | step :: rest => finalRow ⟨step.finalState, none, false⟩ rest

/-- The rows that transactions add to the historical headers. -/
def archivedRows (row : HeaderRow) : List AccountStep → List HistoricalHeaderRow
  | [] => []
  | step :: rest =>
    ⟨row, step.finalState.nonce⟩ :: archivedRows ⟨step.finalState, none, false⟩ rest

section Run

variable {accountId : AccountId} {db last : Database} {row : HeaderRow} {steps : List AccountStep}

theorem run_nonces (run : Run accountId db steps last)
    (collisionFree : CollisionFree) (account : db.StoredAccount accountId row) :
    (row.header.nonce :: steps.map fun step => step.finalState.nonce).Pairwise (· < ·) := by
  induction run generalizing row with
  | nil db => exact List.pairwise_singleton _ _
  | cons executes applied remaining inductionHypothesis =>
    rename_i step rest
    have raised := step_raisesNonce account executes
    have later := inductionHypothesis (step_stored collisionFree account executes applied)
    rw [List.map_cons, List.pairwise_cons]
    refine ⟨?_, later⟩
    intro nonce member
    rcases List.mem_cons.mp member with rfl | member
    · exact raised
    · exact raised.trans ((List.pairwise_cons.mp later).1 nonce member)

theorem run_stored (run : Run accountId db steps last) (collisionFree : CollisionFree)
    (account : db.StoredAccount accountId row) :
    last.StoredAccount accountId (finalRow row steps) := by
  induction run generalizing row with
  | nil db => exact account
  | cons executes applied remaining inductionHypothesis =>
    exact inductionHypothesis (step_stored collisionFree account executes applied)

theorem run_latest (run : Run accountId db steps last) (collisionFree : CollisionFree)
    (account : db.StoredAccount accountId row) (id : AccountId) :
    last.latestAccountHeaders[id]? =
      if accountId = id then some (finalRow row steps) else db.latestAccountHeaders[id]? := by
  induction run generalizing row with
  | nil db =>
    by_cases same : accountId = id
    · rw [if_pos same, ← same, account.latest]
      rfl
    · rw [if_neg same]
  | cons executes applied remaining inductionHypothesis =>
    rw [inductionHypothesis (step_stored collisionFree account executes applied),
      step_latest collisionFree account.keyed executes applied]
    by_cases same : accountId = id
    · rw [if_pos same, if_pos same]
      rfl
    · rw [if_neg same, if_neg same, if_neg same]

theorem run_accountCode (run : Run accountId db steps last) :
    last.accountCode = db.accountCode := by
  induction run with
  | nil db => rfl
  | cons executes applied remaining inductionHypothesis =>
    rw [inductionHypothesis, (AccountStep.apply_effect applied).accountCode]

/-- After at least one transaction no historical row has the state of the latest row. -/
theorem run_older (run : Run accountId db steps last) (collisionFree : CollisionFree)
    (account : db.StoredAccount accountId row) (some_ : steps ≠ [])
    (old : HistoricalHeaderRow) (member : old ∈ last.historicalAccountHeaders) :
    old.header ≠ (finalRow row steps).header := by
  induction run generalizing row with
  | nil db => exact absurd rfl some_
  | cons executes applied remaining inductionHypothesis =>
    rename_i db next last step rest
    have account' := step_stored collisionFree account executes applied
    cases rest with
    | nil =>
      cases remaining
      intro same
      have ofAccount : old.header.id = accountId := by
        rw [same]
        exact executes.sameAccount
      have older := (step_older collisionFree account executes applied old member ofAccount).1
      rw [same] at older
      exact lt_irrefl _ older
    | cons later rest => exact inductionHypothesis account' (List.cons_ne_nil _ _) member

/-- The historical headers after a run: the stored state and the intermediate ones come last. -/
theorem run_historical (run : Run accountId db steps last) (collisionFree : CollisionFree)
    (account : db.StoredAccount accountId row) (some_ : steps ≠ []) :
    last.historicalAccountHeaders =
      (db.historicalAccountHeaders.filter fun other => other.header ≠ row.header) ++
        archivedRows row steps := by
  induction run generalizing row with
  | nil db => exact absurd rfl some_
  | cons executes applied remaining inductionHypothesis =>
    rename_i db next last step rest
    have first := step_historical collisionFree account.keyed account.latest executes applied
    cases rest with
    | nil =>
      cases remaining
      exact first
    | cons later rest =>
      rw [inductionHypothesis (step_stored collisionFree account executes applied)
        (List.cons_ne_nil _ _)]
      have unchanged : (next.historicalAccountHeaders.filter fun other =>
          other.header ≠ step.finalState) = next.historicalAccountHeaders := by
        refine List.filter_eq_self.mpr fun old member => decide_eq_true fun same => ?_
        have ofAccount : old.header.id = accountId := by
          rw [same]
          exact executes.sameAccount
        have older := (step_older collisionFree account executes applied old member ofAccount).1
        rw [same] at older
        exact lt_irrefl _ older
      rw [unchanged, first, List.append_assoc]
      rfl

/-- The run rule for a content table: undoing the nonces of a run first takes the run off. -/
theorem run_undo {κ ν ρ : Type} [LinearOrder κ] {old : ρ → Option ν}
    (table : Database → HistoryTable AccountId κ ν ρ)
    (recorded : ∀ {db next : Database} {row : HeaderRow} {step : AccountStep},
      db.StoredAccount accountId row → step.ExecutesOn db accountId → step.apply db = .ok next →
      HistoryTable.Recorded old accountId step.finalState.nonce (table db) (table next))
    (run : Run accountId db steps last) (collisionFree : CollisionFree)
    (account : db.StoredAccount accountId row) (versions : List ℕ)
    (earlier : ∀ version ∈ versions, version ≤ row.header.nonce) :
    (table last).undo old accountId
        ((steps.map fun step => step.finalState.nonce).reverse ++ versions) =
      (table db).undo old accountId versions := by
  induction run generalizing row versions with
  | nil db => rfl
  | cons executes applied remaining inductionHypothesis =>
    rename_i db next last step rest
    have raised := step_raisesNonce account executes
    rw [List.map_cons, List.reverse_cons, List.append_assoc, List.singleton_append,
      inductionHypothesis (step_stored collisionFree account executes applied)]
    · refine HistoryTable.undo_cons (recorded account executes applied) versions ?_
      intro member
      exact absurd (earlier _ member) (not_le.mpr raised)
    · intro version member
      rcases List.mem_cons.mp member with rfl | member
      · exact le_rfl
      · exact (earlier version member).trans raised.le

theorem run_sameAccount (run : Run accountId db steps last) :
    ∀ step ∈ steps, step.finalState.id = accountId := by
  induction run with
  | nil db => exact fun _ member => nomatch member
  | cons executes applied remaining inductionHypothesis =>
    intro step member
    rcases List.mem_cons.mp member with rfl | member
    · exact executes.sameAccount
    · exact inductionHypothesis step member

omit [ProtocolLibrary] in
/-- Every state a run reaches is the latest one or was archived. -/
theorem finalState_archived (row : HeaderRow) (steps : List AccountStep) :
    ∀ step ∈ steps, step.finalState = (finalRow row steps).header ∨
      ∃ old ∈ archivedRows row steps, old.header = step.finalState := by
  induction steps generalizing row with
  | nil => exact fun _ member => nomatch member
  | cons first rest inductionHypothesis =>
    intro step member
    rcases List.mem_cons.mp member with rfl | member
    · cases rest with
      | nil => exact Or.inl rfl
      | cons later rest =>
        refine Or.inr ⟨⟨⟨step.finalState, none, false⟩, later.finalState.nonce⟩, ?_, rfl⟩
        exact List.mem_cons_of_mem _ List.mem_cons_self
    · rcases inductionHypothesis ⟨first.finalState, none, false⟩ step member with
        latest | ⟨old, archived, same⟩
      · exact Or.inl latest
      · exact Or.inr ⟨old, List.mem_cons_of_mem _ archived, same⟩

omit [ProtocolLibrary] in
/-- A row is archived with a state of the account and the nonce of a later transaction. -/
theorem mem_archivedRows (row : HeaderRow) (steps : List AccountStep)
    (ofAccount : row.header.id = accountId)
    (sameAccount : ∀ step ∈ steps, step.finalState.id = accountId) :
    ∀ old ∈ archivedRows row steps, old.header.id = accountId ∧
      ∃ step ∈ steps, old.replacedAtNonce = step.finalState.nonce := by
  induction steps generalizing row with
  | nil => exact fun _ member => nomatch member
  | cons first rest inductionHypothesis =>
    intro old member
    rcases List.mem_cons.mp member with rfl | member
    · exact ⟨ofAccount, first, List.mem_cons_self, rfl⟩
    · obtain ⟨same, step, listed, nonce⟩ :=
        inductionHypothesis ⟨first.finalState, none, false⟩ (sameAccount first List.mem_cons_self)
          (fun step listed => sameAccount step (List.mem_cons_of_mem first listed)) old member
      exact ⟨same, step, List.mem_cons_of_mem first listed, nonce⟩

/-- The final states of a run resolve to the nonces of its transactions. -/
theorem run_resolveStates (run : Run accountId db steps last) (collisionFree : CollisionFree)
    (account : db.StoredAccount accountId row) {commitments : List Word}
    (finals : ∀ commitment, commitment ∈ commitments ↔
      ∃ step ∈ steps, step.finalState.toCommitment = commitment) (state : AccountId × ℕ) :
    state ∈ last.resolveStates commitments ↔
      ∃ nonce ∈ (steps.map fun step => step.finalState.nonce).reverse,
        state = (accountId, nonce) := by
  have ofStep : ∀ header : AccountHeader, header.toCommitment ∈ commitments →
      ∃ nonce ∈ (steps.map fun step => step.finalState.nonce).reverse,
        (header.id, header.nonce) = (accountId, nonce) := by
    intro header discarded
    obtain ⟨step, listed, same⟩ := (finals _).mp discarded
    rw [← collisionFree same]
    exact ⟨step.finalState.nonce, List.mem_reverse.mpr (List.mem_map.mpr ⟨step, listed, rfl⟩),
      by rw [run_sameAccount run step listed]⟩
  rw [mem_resolveStates_iff]
  constructor
  · rintro (⟨id, stored, found, discarded, rfl⟩ | ⟨old, member, discarded, rfl⟩)
    · exact ofStep stored.header discarded
    · exact ofStep old.header discarded
  · rintro ⟨nonce, member, rfl⟩
    obtain ⟨step, listed, rfl⟩ := List.mem_map.mp (List.mem_reverse.mp member)
    have discarded := (finals _).mpr ⟨step, listed, rfl⟩
    have sameAccount := run_sameAccount run step listed
    rcases finalState_archived row steps step listed with latest | ⟨old, archived, same⟩
    · refine Or.inl ⟨accountId, finalRow row steps,
        (run_stored run collisionFree account).latest, ?_⟩
      rw [← latest, sameAccount]
      exact ⟨discarded, rfl⟩
    · refine Or.inr ⟨old, ?_, ?_⟩
      · rw [run_historical run collisionFree account (List.ne_nil_of_mem listed)]
        exact List.mem_append_right _ archived
      · rw [same, sameAccount]
        exact ⟨discarded, rfl⟩

/-- Undoing the final states of a run takes the run off, except that an earlier row of the
stored state is gone. -/
theorem run_undoStates (run : Run accountId db steps last) (collisionFree : CollisionFree)
    (account : db.StoredAccount accountId row) (some_ : steps ≠ [])
    {states : List (AccountId × Word)}
    (finals : ∀ commitment, commitment ∈ states.map Prod.snd ↔
      ∃ step ∈ steps, step.finalState.toCommitment = commitment) :
    last.undoStates states =
      { db with
        historicalAccountHeaders :=
          db.historicalAccountHeaders.filter fun other => other.header ≠ row.header } := by
  obtain ⟨first, rest, rfl⟩ := List.exists_cons_of_ne_nil some_
  have nonces := run_nonces run collisionFree account
  have raised := (List.pairwise_cons.mp nonces).1
  have historical := run_historical run collisionFree account some_
  have archived := mem_archivedRows row (first :: rest) (account.keyed accountId row account.latest)
    (run_sameAccount run)
  have earlier : ∀ old ∈ db.historicalAccountHeaders, old.header.id = accountId →
      ∀ nonce ∈ (first :: rest).map fun step => step.finalState.nonce,
        old.replacedAtNonce ≠ nonce := by
    intro old member ofAccount nonce listed same
    have bound := (account.below.headers old member ofAccount).2
    have above := raised nonce listed
    omega
  -- only the transaction that replaced the stored state was replaced at its nonce
  have replaced : last.replacedAt accountId first.finalState.nonce =
      [⟨row, first.finalState.nonce⟩] := by
    have later : ∀ old ∈ archivedRows ⟨first.finalState, none, false⟩ rest,
        old.replacedAtNonce ≠ first.finalState.nonce := by
      intro old member same
      obtain ⟨-, step, listed, nonce⟩ := mem_archivedRows ⟨first.finalState, none, false⟩ rest
        (run_sameAccount run first List.mem_cons_self)
        (fun step listed => run_sameAccount run step (List.mem_cons_of_mem first listed)) old member
      have above : first.finalState.nonce < step.finalState.nonce :=
        (List.pairwise_cons.mp (List.pairwise_cons.mp nonces).2).1 _
          (List.mem_map.mpr ⟨step, listed, rfl⟩)
      omega
    rw [replacedAt, historical, List.filter_append, List.filter_eq_nil_iff.mpr, List.nil_append,
      archivedRows, List.filter_cons_of_pos, List.filter_eq_nil_iff.mpr]
    · intro old member
      rw [decide_eq_true_iff]
      exact fun both => later old member both.2
    · exact decide_eq_true ⟨account.keyed accountId row account.latest, rfl⟩
    · intro old member
      rw [decide_eq_true_iff]
      exact fun both => earlier old (List.mem_of_mem_filter member) both.1 _ List.mem_cons_self
        both.2
  rw [undoStates_of_account last states accountId
      (List.pairwise_reverse.mpr (List.pairwise_cons.mp nonces).2) (by simp)
      (run_resolveStates run collisionFree account finals),
    undoAccountNonces_of_replaced last accountId _ first.finalState.nonce (by simp)
      (by rw [replaced]; exact List.cons_ne_nil _ _), replaced]
  refine mk.injEq .. ▸ ⟨run_accountCode run, ?_, ?_, ?_, ?_, ?_⟩
  · refine ExtTreeMap.ext_getElem? fun id => ?_
    rw [foldl_replaceLatestHeader_getElem? collisionFree _ last
        (run_stored run collisionFree account).keyed accountId
        (fun old member => by
          rw [List.mem_singleton.mp member]
          exact account.keyed accountId row account.latest),
      run_latest run collisionFree account]
    by_cases same : accountId = id
    · rw [if_pos same, ← same, account.latest]
      rfl
    · rw [if_neg same, if_neg same]
  · rw [historical, List.filter_append]
    refine (congrArg₂ (· ++ ·) (List.filter_eq_self.mpr ?_) (List.filter_eq_nil_iff.mpr ?_)).trans
      (List.append_nil _)
    rotate_left
    · intro old member
      obtain ⟨ofAccount, step, listed, nonce⟩ := archived old member
      rw [decide_eq_true_iff, not_not]
      exact ⟨ofAccount, List.mem_reverse.mpr (List.mem_map.mpr ⟨step, listed, nonce.symm⟩)⟩
    · intro old member
      refine decide_eq_true fun both => ?_
      exact earlier old (List.mem_of_mem_filter member) both.1 _ (List.mem_reverse.mp both.2) rfl
  · have undone := run_undo (fun db => db.accountStorage) step_recorded_slots run collisionFree
      account [] (fun _ member => absurd member List.not_mem_nil)
    rwa [List.append_nil, HistoryTable.undo_nil] at undone
  · have undone := run_undo (fun db => db.storageMapEntries) step_recorded_entries run
      collisionFree account [] (fun _ member => absurd member List.not_mem_nil)
    rwa [List.append_nil, HistoryTable.undo_nil] at undone
  · have undone := run_undo (fun db => db.accountAssets) step_recorded_assets run collisionFree
      account [] (fun _ member => absurd member List.not_mem_nil)
    rwa [List.append_nil, HistoryTable.undo_nil] at undone

end Run

/-- Discarding the last transactions of a run gives back the tables as they were before them,
exactly when there is nothing to discard, when a kept transaction separates them from the stored
state, or when no historical row has the stored state. -/
theorem undoAccountState_restores_iff (collisionFree : CollisionFree) {accountId : AccountId}
    {db middle last : Database} {row : HeaderRow} (account : db.StoredAccount accountId row)
    {kept discarded : List AccountStep} (keptRun : Run accountId db kept middle)
    (discardedRun : Run accountId middle discarded last) {states : List (AccountId × Word)}
    (listed : states.Perm (discarded.map fun step => (accountId, step.finalState.toCommitment)))
    (forest : AccountSmtForest) :
    (last.undoAccountState forest states).1 = middle ↔
      discarded = [] ∨ kept ≠ [] ∨
        ∀ old ∈ db.historicalAccountHeaders, old.header ≠ row.header := by
  by_cases none_ : discarded = []
  · subst none_
    rw [List.map_nil, List.perm_nil] at listed
    cases discardedRun
    rw [listed]
    exact iff_of_true rfl (Or.inl rfl)
  · have middleAccount := run_stored keptRun collisionFree account
    have finals : ∀ commitment, commitment ∈ states.map Prod.snd ↔
        ∃ step ∈ discarded, step.finalState.toCommitment = commitment := by
      intro commitment
      rw [(listed.map Prod.snd).mem_iff, List.map_map, List.mem_map]
      rfl
    have someStates : states ≠ [] := by
      intro empty
      rw [empty, List.nil_perm, List.map_eq_nil_iff] at listed
      exact none_ listed
    rw [undoAccountState, if_neg (by rwa [List.isEmpty_iff]),
      run_undoStates discardedRun collisionFree middleAccount none_ finals]
    have restored : { middle with historicalAccountHeaders :=
          middle.historicalAccountHeaders.filter fun other =>
            other.header ≠ (finalRow row kept).header } = middle ↔
        ∀ old ∈ middle.historicalAccountHeaders, old.header ≠ (finalRow row kept).header := by
      constructor
      · intro same old member
        rw [← same] at member
        exact of_decide_eq_true (List.mem_filter.mp member).2
      · intro absent
        rw [List.filter_eq_self.mpr fun old member => decide_eq_true (absent old member)]
    rw [restored]
    by_cases first : kept = []
    · subst first
      cases keptRun
      constructor
      · exact fun absent => Or.inr (Or.inr absent)
      · rintro (empty | some_ | absent)
        · exact absurd empty none_
        · exact absurd rfl some_
        · exact absent
    · exact iff_of_true (run_older keptRun collisionFree account first) (Or.inr (Or.inl first))

end Database

end Library

/-! ### A state that is archived twice -/

namespace Sample

/-- An account without assets and storage. -/
def newAccount : Account where
  id := 7
  vault := ∅
  storage := ∅
  codeCommitment := 3
  nonce := 1
  seed := none

def newRow : HeaderRow :=
  ⟨newAccount.toHeader, none, false⟩

/-- The store with this account. -/
def inserted : Database :=
  { Database.empty with
    accountCode := {3}
    latestAccountHeaders := (∅ : ExtTreeMap AccountId HeaderRow).insert 7 newRow }

/-- A transaction that leaves the account as it is. -/
def passThrough : AccountStep where
  initState := newAccount.toHeader
  finalState := newAccount.toHeader
  updatedFungibleAssets := ∅
  newRoots _ := emptyWord
  delta := AccountDelta.empty

/-- The store after it. -/
def passed : Database :=
  (inserted.replaceHistoricalHeader ⟨newRow, 1⟩).replaceLatestHeader newRow

/-- The account with five units of the faucet 9. -/
def fundedHeader : AccountHeader :=
  { newAccount.toHeader with nonce := 2, vaultRoot := 24 }

/-- The transaction that adds them. -/
def fund : AccountStep where
  initState := newAccount.toHeader
  finalState := fundedHeader
  updatedFungibleAssets := ∅
  newRoots _ := emptyWord
  delta := { AccountDelta.empty with fungible := (∅ : ExtTreeMap AccountId ℤ).insert 9 5 }

theorem inserted_latest (id : AccountId) :
    inserted.latestAccountHeaders[id]? = if 7 = id then some newRow else none := by
  rw [inserted, ExtTreeMap.getElem?_insert]
  simp only [Std.compare_eq_iff_eq, ExtTreeMap.getElem?_empty]

theorem inserted_keyed : inserted.HeadersKeyed := by
  intro id row found
  rw [inserted_latest] at found
  split at found
  · cases found
    assumption
  · cases found

theorem inserted_stored : inserted.StoredAccount 7 newRow where
  keyed := inserted_keyed
  latest := inserted_latest 7
  below :=
    { headers := fun _ member => nomatch member
      slots := fun _ _ archived => absurd rfl archived
      entries := fun _ _ archived => absurd rfl archived
      assets := fun _ _ archived => absurd rfl archived }

theorem passed_applied : passThrough.apply inserted = .ok passed := by
  have headed : inserted.insertAccountHeader newAccount.toHeader none (some newAccount.toHeader) =
      .ok passed :=
    (inserted.insertAccountHeader_some_eq_ok_iff _ _ _ none).mpr
      ⟨by decide, by decide, by decide, rfl⟩
  rw [AccountStep.apply, Database.applyDeltaTables, passThrough, headed]
  rfl

theorem passed_latest (id : AccountId) :
    passed.latestAccountHeaders[id]? = if 7 = id then some newRow else none := by
  refine (Database.replaceLatestHeader_getElem? (inserted.replaceHistoricalHeader ⟨newRow, 1⟩)
    newRow collisionFree inserted_keyed id).trans ?_
  split
  · rename_i same
    exact (if_pos same).symm
  · exact inserted_latest id

theorem passed_stored : passed.StoredAccount 7 newRow where
  keyed := Database.replaceLatestHeader_keyed _ _ collisionFree inserted_keyed
  latest := passed_latest 7
  below :=
    { headers := by
        intro row member _
        rw [List.mem_singleton.mp member]
        exact ⟨le_rfl, le_rfl⟩
      slots := fun _ _ archived => absurd rfl archived
      entries := fun _ _ archived => absurd rfl archived
      assets := fun _ _ archived => absurd rfl archived }

/-- A forest in which the sample account is registered. -/
def registered (vaultRoot : Word) : AccountSmtForest :=
  AccountSmtForest.new.stageRoots 7 [vaultRoot]

/-- The store after the account was funded. -/
def funded : Database :=
  { (inserted.replaceHistoricalHeader ⟨newRow, 2⟩).replaceLatestHeader
      ⟨fundedHeader, none, false⟩ with
    accountAssets := (inserted.accountAssets.archive 7 2 (.fungible 9) none).put 7 (.fungible 9)
      (.fungible ⟨9, 5⟩) }

theorem funded_applied : fund.apply inserted = .ok funded := by
  have headed := (inserted.insertAccountHeader_some_eq_ok_iff _ fundedHeader newAccount.toHeader
    none).mpr ⟨by decide, by decide, by decide, rfl⟩
  rw [AccountStep.apply, Database.applyDeltaTables, fund, headed]
  rfl

theorem funded_keyed : funded.HeadersKeyed :=
  Database.replaceLatestHeader_keyed _ _ collisionFree inserted_keyed

theorem funded_latest : funded.latestAccountHeaders[7]? = some ⟨fundedHeader, none, false⟩ := by
  refine (Database.replaceLatestHeader_getElem? (inserted.replaceHistoricalHeader ⟨newRow, 2⟩)
    ⟨fundedHeader, none, false⟩ collisionFree inserted_keyed 7).trans ?_
  exact if_pos rfl

/-- A transaction that changes the assets of the account alone can be applied. -/
theorem exists_applied {db : Database} {row : HeaderRow} (account : db.StoredAccount 7 row)
    (code : db.accountCode = {3}) {step : AccountStep} (initial : step.initState = row.header)
    (sameAccount : step.finalState.id = 7) (positive : step.initState.nonce ≠ 0)
    (raisesNonce : step.initState.nonce < step.finalState.nonce)
    (coded : step.initState.codeCommitment = 3 ∧ step.finalState.codeCommitment = 3)
    (unstored : step.delta.storage = ∅)
    (computed : ∃ changes,
      VaultChanges.ofDelta step.updatedFungibleAssets step.delta = .ok changes) :
    ∃ next, Database.Run 7 db [step] next ∧
      next.StoredAccount 7 ⟨step.finalState, none, false⟩ ∧ next.accountCode = {3} := by
  have headed := (db.insertAccountHeader_some_eq_ok_iff _ step.finalState step.initState
    none).mpr ⟨fun unseeded => positive unseeded.1, by rw [code, coded.1]; decide,
      by rw [code, coded.2]; decide, rfl⟩
  obtain ⟨changes, computed⟩ := computed
  obtain ⟨next, applied⟩ : ∃ next, step.apply db = .ok next := by
    rw [AccountStep.apply, Database.applyDeltaTables, headed]
    exact ⟨_, Fallible.bind_eq_ok.mpr ⟨_, rfl, Fallible.bind_eq_ok.mpr ⟨changes, computed, rfl⟩⟩⟩
  have executes : step.ExecutesOn db 7 := by
    refine ⟨?_, sameAccount, raisesNonce, fun slot stored change found changed => ?_⟩
    · rw [account.latest, initial]
      rfl
    · rw [unstored] at changed
      cases changed
  exact ⟨next, .cons executes applied (.nil next),
    Database.step_stored collisionFree account executes applied,
    (AccountStep.apply_effect applied).accountCode.trans code⟩

/-- Three more units are added, and then all are removed. -/
def grownHeader : AccountHeader :=
  { newAccount.toHeader with nonce := 3, vaultRoot := 48 }

def spentHeader : AccountHeader :=
  { newAccount.toHeader with nonce := 4 }

def grow : AccountStep where
  initState := fundedHeader
  finalState := grownHeader
  updatedFungibleAssets := (∅ : ExtTreeMap AssetVaultKey FungibleAsset).insert (.fungible 9) ⟨9, 5⟩
  newRoots _ := emptyWord
  delta := { AccountDelta.empty with fungible := (∅ : ExtTreeMap AccountId ℤ).insert 9 3 }

def spend : AccountStep where
  initState := grownHeader
  finalState := spentHeader
  updatedFungibleAssets := (∅ : ExtTreeMap AssetVaultKey FungibleAsset).insert (.fungible 9) ⟨9, 8⟩
  newRoots _ := emptyWord
  delta := { AccountDelta.empty with fungible := (∅ : ExtTreeMap AccountId ℤ).insert 9 (-8) }

/-- Undoing a transaction loses the row that a transaction without effect had archived. -/
theorem undoAccountState_loses_row :
    ∃ last, Database.empty.insertAccountTables newAccount = .ok inserted ∧
      passThrough.apply inserted = .ok passed ∧ passed.StoredAccount 7 newRow ∧
      Database.Run 7 passed [fund] last ∧
      (last.undoAccountState .new [(7, fundedHeader.toCommitment)]).1 ≠ passed := by
  obtain ⟨last, run, -⟩ := exists_applied passed_stored rfl (show fund.initState = _ from rfl) rfl
    (by decide) (by decide) ⟨rfl, rfl⟩ rfl ⟨_, rfl⟩
  refine ⟨last, rfl, passed_applied, passed_stored, run, ?_⟩
  have finals : ∀ commitment,
      commitment ∈ [((7 : AccountId), fundedHeader.toCommitment)].map Prod.snd ↔
        ∃ step ∈ [fund], step.finalState.toCommitment = commitment := by
    simp [fund, eq_comm]
  rw [Database.undoAccountState, if_neg (by simp),
    Database.run_undoStates run collisionFree passed_stored (List.cons_ne_nil _ _) finals]
  intro same
  have rows := congrArg Database.historicalAccountHeaders same
  exact absurd rows (by decide)

/-- Two transactions are undone exactly that follow a third one. -/
theorem undoAccountState_restores_grown :
    ∃ middle last, Database.Run 7 inserted [fund] middle ∧
      Database.Run 7 middle [grow, spend] last ∧
      (last.undoAccountState .new
        [(7, spentHeader.toCommitment), (7, grownHeader.toCommitment)]).1 = middle := by
  obtain ⟨middle, kept, account, code⟩ := exists_applied inserted_stored rfl
    (show fund.initState = _ from rfl) rfl (by decide) (by decide) ⟨rfl, rfl⟩ rfl ⟨_, rfl⟩
  obtain ⟨next, grew, grown, code⟩ := exists_applied account code
    (show grow.initState = _ from rfl) rfl (by decide) (by decide) ⟨rfl, rfl⟩ rfl ⟨_, rfl⟩
  obtain ⟨last, spent, -⟩ := exists_applied grown code (show spend.initState = _ from rfl) rfl
    (by decide) (by decide) ⟨rfl, rfl⟩ rfl ⟨_, rfl⟩
  have discarded : Database.Run 7 middle [grow, spend] last := by
    cases grew with
    | cons executes applied remaining =>
      cases remaining
      exact .cons executes applied spent
  exact ⟨middle, last, kept, discarded, (Database.undoAccountState_restores_iff collisionFree
    inserted_stored kept discarded (List.Perm.swap _ _ _) .new).mpr
      (Or.inr (Or.inl (List.cons_ne_nil _ _)))⟩

end Sample

end MidenClient
