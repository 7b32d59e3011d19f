/-
This file follows a transaction that leaves the account as it is, as pass-through
transactions do, through the tables: it is applied and then discarded.

Applying it archives the header under its own nonce. Discarding it undoes that nonce,
and with it whatever the transaction that reached the nonce had archived there.
-/

import MidenClient.Sqlite.Rollback

namespace MidenClient

open Std (ExtTreeMap)

namespace Database

/-- The rows of one account are the same. -/
structure SameAccount (first second : Database) (accountId : AccountId) : Prop where
  latest : first.latestAccountHeaders[accountId]? = second.latestAccountHeaders[accountId]?
  historical : (first.historicalAccountHeaders.filter fun row => row.header.id = accountId) =
    second.historicalAccountHeaders.filter fun row => row.header.id = accountId
  slots : first.accountStorage.SameOwner second.accountStorage accountId
  entries : first.storageMapEntries.SameOwner second.storageMapEntries accountId
  assets : first.accountAssets.SameOwner second.accountAssets accountId

/-- Nothing of the account was replaced at a nonce. -/
structure NothingReplacedAt (db : Database) (accountId : AccountId) (nonce : ℕ) : Prop where
  headers : ∀ row ∈ db.historicalAccountHeaders, row.header.id = accountId →
    row.replacedAtNonce ≠ nonce
  slots : ∀ key, db.accountStorage.archived accountId nonce key = none
  entries : ∀ key, db.storageMapEntries.archived accountId nonce key = none
  assets : ∀ key, db.accountAssets.archived accountId nonce key = none

section Library

variable [ProtocolLibrary] {db applied : Database} {accountId : AccountId} {row : HeaderRow}

/-- Applying the transaction archives the header and rewrites it without seed and lock. -/
theorem passThrough_applied {updatedFungibleAssets : ExtTreeMap AssetVaultKey FungibleAsset}
    {oldMapRoots : ExtTreeMap StorageSlotName Word} {forest next : AccountSmtForest}
    (keyed : db.HeadersKeyed) (stored : db.latestAccountHeaders[accountId]? = some row)
    (succeeded : db.applyAccountDelta row.header row.header updatedFungibleAssets oldMapRoots
      AccountDelta.empty forest = .ok applied next) :
    applied = (db.replaceHistoricalHeader ⟨row, row.header.nonce⟩).replaceLatestHeader
      ⟨row.header, none, false⟩ := by
  obtain ⟨_, _, tables, -⟩ := applyAccountDelta_eq_ok succeeded
  obtain ⟨headed, inserted, afterHeader⟩ := Fallible.bind_eq_ok.mp tables
  obtain ⟨changes, computed, written⟩ := Fallible.bind_eq_ok.mp afterHeader
  cases computed
  cases written
  obtain ⟨-, -, -, rfl⟩ := (db.insertAccountHeader_some_eq_ok_iff headed _ _ none).mp inserted
  rw [archivedRow_of_stored keyed stored]
  rfl

/-- Discarding it afterwards restores the header, undoes its nonce, and loses the rows replaced
at that nonce and the rows with the same state. -/
theorem passThrough_undone (collisionFree : CollisionFree) (keyed : db.HeadersKeyed)
    (stored : db.latestAccountHeaders[accountId]? = some row) :
    ((db.replaceHistoricalHeader ⟨row, row.header.nonce⟩).replaceLatestHeader
        ⟨row.header, none, false⟩).undoStates [(accountId, row.header.toCommitment)] =
      { db with
        historicalAccountHeaders := db.historicalAccountHeaders.filter fun old =>
          old.header ≠ row.header ∧
            ¬(old.header.id = accountId ∧ old.replacedAtNonce = row.header.nonce)
        accountStorage := db.accountStorage.undo oldSlot accountId [row.header.nonce]
        storageMapEntries := db.storageMapEntries.undo id accountId [row.header.nonce]
        accountAssets := db.accountAssets.undo id accountId [row.header.nonce] } := by
  have ofAccount := keyed accountId row stored
  let archived := db.replaceHistoricalHeader ⟨row, row.header.nonce⟩
  let applied := archived.replaceLatestHeader ⟨row.header, none, false⟩
  have latest (id : AccountId) : applied.latestAccountHeaders[id]? =
      if row.header.id = id then some ⟨row.header, none, false⟩
      else db.latestAccountHeaders[id]? :=
    archived.replaceLatestHeader_getElem? _ collisionFree keyed id
  have historical : applied.historicalAccountHeaders =
      (db.historicalAccountHeaders.filter fun old => old.header ≠ row.header) ++
        [⟨row, row.header.nonce⟩] := by
    refine congrArg (· ++ [_]) (List.filter_congr fun old _ => ?_)
    rw [decide_eq_decide, ne_eq, ne_eq, collisionFree.eq_iff]
  have resolved (state : AccountId × ℕ) :
      state ∈ applied.resolveStates [row.header.toCommitment] ↔
        ∃ nonce ∈ [row.header.nonce], state = (accountId, nonce) := by
    rw [mem_resolveStates_iff]
    constructor
    · rintro (⟨id, other, -, same, rfl⟩ | ⟨old, -, same, rfl⟩)
      · rw [collisionFree (List.mem_singleton.mp same), ofAccount]
        exact ⟨_, List.mem_singleton_self _, rfl⟩
      · rw [collisionFree (List.mem_singleton.mp same), ofAccount]
        exact ⟨_, List.mem_singleton_self _, rfl⟩
    · rintro ⟨nonce, same, rfl⟩
      rw [List.mem_singleton.mp same, ← ofAccount]
      exact Or.inl ⟨row.header.id, ⟨row.header, none, false⟩, by rw [latest, if_pos rfl],
        List.mem_singleton_self _, rfl⟩
  -- the row archived last is the one the header is restored from
  have replaced : applied.replacedAt accountId row.header.nonce =
      ((db.historicalAccountHeaders.filter fun old => old.header ≠ row.header).filter fun old =>
        old.header.id = accountId ∧ old.replacedAtNonce = row.header.nonce) ++
        [⟨row, row.header.nonce⟩] := by
    rw [replacedAt, historical, List.filter_append]
    refine congrArg _ (List.filter_eq_self.mpr fun old member => ?_)
    rw [List.mem_singleton.mp member]
    exact decide_eq_true ⟨ofAccount, rfl⟩
  show applied.undoStates [(accountId, row.header.toCommitment)] = _
  rw [undoStates_of_account applied [(accountId, row.header.toCommitment)] accountId
      (List.pairwise_singleton _ row.header.nonce) (List.cons_ne_nil _ _) resolved,
    undoAccountNonces_of_replaced applied accountId _ row.header.nonce rfl
      (by rw [replaced]; exact List.append_ne_nil_of_right_ne_nil _ (List.cons_ne_nil _ _))]
  refine mk.injEq .. ▸ ⟨rfl, ?_, ?_, rfl, rfl, rfl⟩
  · refine ExtTreeMap.ext_getElem? fun id => ?_
    rw [foldl_replaceLatestHeader_getElem? collisionFree _ applied
        (archived.replaceLatestHeader_keyed _ collisionFree keyed) accountId
        (fun old member => (of_decide_eq_true (List.mem_filter.mp member).2).1),
      replaced, List.getLast?_append_of_ne_nil _ (List.cons_ne_nil _ _)]
    by_cases same : accountId = id
    · rw [if_pos same, ← same, stored]
      rfl
    · rw [if_neg same, latest, if_neg (by rwa [ofAccount])]
  · rw [historical, List.filter_append, List.filter_filter]
    refine (congrArg₂ (· ++ ·) (List.filter_congr ?_) (List.filter_eq_nil_iff.mpr ?_)).trans
      (List.append_nil _)
    · intro old _
      simp [Bool.and_comm]
    · intro old member
      rw [List.mem_singleton.mp member]
      simp [ofAccount]

/-- The account is as it was before exactly when nothing of it was replaced at its nonce and no
historical row has its state. -/
theorem passThrough_undo_sameAccount_iff (collisionFree : CollisionFree) (keyed : db.HeadersKeyed)
    (stored : db.latestAccountHeaders[accountId]? = some row)
    {updatedFungibleAssets : ExtTreeMap AssetVaultKey FungibleAsset}
    {oldMapRoots : ExtTreeMap StorageSlotName Word} {forest next later : AccountSmtForest}
    (succeeded : db.applyAccountDelta row.header row.header updatedFungibleAssets oldMapRoots
      AccountDelta.empty forest = .ok applied next) :
    db.SameAccount (applied.undoAccountState later [(accountId, row.header.toCommitment)]).1
        accountId ↔
      db.NothingReplacedAt accountId row.header.nonce ∧
        ∀ old ∈ db.historicalAccountHeaders, old.header ≠ row.header := by
  have ofAccount := keyed accountId row stored
  rw [passThrough_applied keyed stored succeeded, undoAccountState, if_neg (by simp),
    passThrough_undone collisionFree keyed stored]
  constructor
  · rintro ⟨-, historical, slots, entries, assets⟩
    have kept : ∀ old ∈ db.historicalAccountHeaders, old.header.id = accountId →
        old.header ≠ row.header ∧
          ¬(old.header.id = accountId ∧ old.replacedAtNonce = row.header.nonce) := by
      intro old member same
      have listed : old ∈ db.historicalAccountHeaders.filter fun old =>
          old.header.id = accountId :=
        List.mem_filter.mpr ⟨member, decide_eq_true same⟩
      rw [historical] at listed
      exact of_decide_eq_true (List.mem_filter.mp (List.mem_of_mem_filter listed)).2
    refine ⟨⟨fun old member same => fun nonce => (kept old member same).2 ⟨same, nonce⟩,
      (HistoryTable.sameOwner_undo_iff ..).mp slots,
      (HistoryTable.sameOwner_undo_iff ..).mp entries,
      (HistoryTable.sameOwner_undo_iff ..).mp assets⟩, ?_⟩
    intro old member same
    exact (kept old member (by rw [same, ofAccount])).1 same
  · rintro ⟨nothing, absent⟩
    refine ⟨rfl, ?_, (HistoryTable.sameOwner_undo_iff ..).mpr nothing.slots,
      (HistoryTable.sameOwner_undo_iff ..).mpr nothing.entries,
      (HistoryTable.sameOwner_undo_iff ..).mpr nothing.assets⟩
    congr 1
    refine (List.filter_eq_self.mpr fun old member => decide_eq_true ?_).symm
    exact ⟨absent old member, fun both => nothing.headers old member both.1 both.2⟩

end Library

end Database

/-! ### A transaction that loses an earlier one -/

namespace Sample

/-- Discarding a transaction without effect takes back the funds of the one before it. -/
theorem passThrough_undo_loses_funds :
    fund.apply inserted = .ok funded ∧
    ∃ applied next, funded.applyAccountDelta fundedHeader fundedHeader ∅ ∅ AccountDelta.empty
        (registered 24) = .ok applied next ∧
      funded.accountAssets.current 7 (.fungible 9) = some (.fungible ⟨9, 5⟩) ∧
      (applied.undoAccountState next
        [(7, fundedHeader.toCommitment)]).1.accountAssets.current 7 (.fungible 9) = none := by
  obtain ⟨applied, next, succeeded⟩ : ∃ applied next, funded.applyAccountDelta fundedHeader
      fundedHeader ∅ ∅ AccountDelta.empty (registered 24) = .ok applied next := ⟨_, _, rfl⟩
  refine ⟨funded_applied, applied, next, succeeded, ?_, ?_⟩
  · simp [funded]
  · rw [Database.passThrough_applied funded_keyed funded_latest succeeded,
      Database.undoAccountState, if_neg (by simp),
      Database.passThrough_undone collisionFree funded_keyed funded_latest]
    simp [HistoryTable.undo, HistoryTable.current_restore, funded, fundedHeader]

/-- Without an earlier transaction the account stays as it was. -/
theorem passThrough_undo_sameAccount_inserted :
    ∃ applied next, inserted.applyAccountDelta newAccount.toHeader newAccount.toHeader ∅ ∅
        AccountDelta.empty (registered 0) = .ok applied next ∧
      inserted.SameAccount
        (applied.undoAccountState next [(7, newAccount.toHeader.toCommitment)]).1 7 := by
  obtain ⟨applied, next, succeeded⟩ : ∃ applied next, inserted.applyAccountDelta
      newAccount.toHeader newAccount.toHeader ∅ ∅ AccountDelta.empty (registered 0) =
      .ok applied next := ⟨_, _, rfl⟩
  refine ⟨applied, next, succeeded, ?_⟩
  refine (Database.passThrough_undo_sameAccount_iff collisionFree inserted_keyed
    (inserted_latest 7) succeeded).mpr ⟨⟨?_, fun _ => rfl, fun _ => rfl, fun _ => rfl⟩, ?_⟩
  · exact fun _ member => nomatch member
  · exact fun _ member => nomatch member

end Sample

end MidenClient
