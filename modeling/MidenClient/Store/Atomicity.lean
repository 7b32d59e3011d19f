/-
This file says when a failed update leaves a store as it was
(`rust-client/src/store/mod.rs`).

The trait asks that every update is rolled back when it fails. In the SQLite store this
holds of the tables, but not of the forest of account trees; the IndexedDB store also
keeps the tables of the transactions it completed before the failure.
-/

import MidenClient.Idxdb.Failures
import MidenClient.Sqlite.Failures
import MidenClient.Sqlite.StoreRun

namespace MidenClient

open Std (ExtTreeMap)

section Library

variable [NoteLibrary] [ProtocolLibrary]

/-- In both stores a failed update leaves the tables and the registration as they were exactly when
everything it completed outside an open transaction changed nothing. -/
theorem failed_update_unchanged_iff (refusals : Refusals) (call : UpdateCall) :
    (∀ (store after : Store Database) (reason : StoreError), store.forest.WellCounted →
      SqliteStore.perform refusals call store = .error reason after →
        (store.Unchanged after ↔ SqliteStore.FailsClean refusals store call)) ∧
    ∀ (store after : Store IdxdbDatabase) (reason : StoreError), store.forest.WellCounted →
      IdxdbStore.perform refusals call store = .error reason after →
        (store.Unchanged after ↔ IdxdbStore.FailsClean refusals store call) :=
  ⟨fun _ _ _ well failed => SqliteStore.unchanged_iff_failsClean well call failed,
    fun _ _ _ well failed => IdxdbStore.unchanged_iff_failsClean well call failed⟩

end Library

/-! ### A commit that fails -/

namespace Sample

open Database

/-- Both stores with empty tables beside the accounts. -/
def emptyTables {Accounts : Type} (accounts : Accounts) : StoreTables Accounts :=
  ⟨accounts, ClientStore.empty, ∅, ∅, ∅⟩

/-- A store that was just opened. -/
def opened {Accounts : Type} (accounts : Accounts) (forest : AccountSmtForest) : Store Accounts :=
  ⟨emptyTables accounts, forest, false⟩

/-- A sync to block 5 that brings an account as it is stored. -/
def sameAccountSync : SyncStoreUpdate where
  blockNum := 5
  noteUpdates := NoteUpdateTracker.new [] []
  transactionUpdates := .new []
  blockHeaders := []
  newAuthenticationNodes := [(1, 17)]
  updatedPublicAccounts := [mapAccount]
  mismatchedPrivateAccounts := []

/-- The database refuses some statements. -/
def refusing (places : List Statement) : Refusals := fun statement =>
  if statement ∈ places then some ⟨.databaseError, rfl⟩ else none

/-- The last statement of a sync is refused. -/
def refuseSync : Refusals :=
  refusing [.commit, .syncUpdate]

/-- With the account in both stores, a sync that is refused at its end leaves no trace: what it did
to the forest was to register the roots that were registered. -/
theorem failed_update_unchanged_sync :
    ∃ db forest, Reaches [.insertAccount mapAccount] db forest ∧
      (∃ reason after, SqliteStore.perform refuseSync (.applyStateSync sameAccountSync)
          (opened db forest) = .error reason after ∧ (opened db forest).Unchanged after) ∧
      ∃ reason after, IdxdbStore.perform refuseSync (.applyStateSync sameAccountSync)
          (opened (IdxdbDatabase.empty.insertAccount mapAccount) forest) = .error reason after ∧
        (opened (IdxdbDatabase.empty.insertAccount mapAccount) forest).Unchanged after := by
  obtain ⟨db, forest, reaches, tested⟩ := Fallible.exists_of_succeedsWith
    (show Fallible.succeedsWith ([StoreOperation.insertAccount mapAccount].foldlM
        Database.perform Database.empty AccountSmtForest.new) (fun db forest =>
      (decide (forest.getRoots 7 = some (AccountSmtForest.collectAccountRoots mapAccount)) &&
        decide (forest.pendingOldRoots[(7 : AccountId)]? = none)) &&
      (Fallible.failsWith (SqliteStore.perform refuseSync (.applyStateSync sameAccountSync)
          (opened db forest)) .databaseError &&
        Fallible.failsWith (IdxdbStore.perform refuseSync (.applyStateSync sameAccountSync)
          (opened (IdxdbDatabase.empty.insertAccount mapAccount) forest)) .databaseError)) = true
      by decide +kernel)
  rw [Bool.and_eq_true, Bool.and_eq_true, Bool.and_eq_true, decide_eq_true_eq,
    decide_eq_true_eq] at tested
  obtain ⟨⟨roots, absent⟩, sqliteFails, idxdbFails⟩ := tested
  obtain ⟨sqliteAfter, sqliteFailed⟩ := Fallible.exists_of_failsWith sqliteFails
  obtain ⟨idxdbAfter, idxdbFailed⟩ := Fallible.exists_of_failsWith idxdbFails
  obtain ⟨sqlite, idxdb⟩ :=
    failed_update_unchanged_iff refuseSync (.applyStateSync sameAccountSync)
  obtain ⟨_, _, inserted, ended⟩ := Fallible.bind_eq_result_ok.mp reaches
  cases ended
  have well : forest.WellCounted :=
    AccountSmtForest.wellCounted_new.insertAndRegisterAccountState (insertAccount_eq_ok inserted).2
  have settled : forest.Settled [mapAccount] :=
    List.forall_mem_singleton.mpr absent
  have keeps : forest.KeepsRoots [] [] [mapAccount] := by
    rw [AccountSmtForest.keepsRoots_singleton_iff]
    refine RootStack.ext roots ?_
    show (forest.pendingOldRoots[(7 : AccountId)]?).getD [] = []
    rw [absent]
    rfl
  refine ⟨db, forest, reaches, ⟨_, _, sqliteFailed, ?_⟩, ⟨_, _, idxdbFailed, ?_⟩⟩
  · have only : SqliteStore.syncReplaced refuseSync (opened db forest) sameAccountSync =
        [mapAccount] := Database.replacedAccounts_singleton _ _ _
    refine (sqlite _ _ _ well sqliteFailed).mpr (Or.inr (Or.inr ?_))
    rw [only]
    exact ⟨settled, keeps⟩
  · refine (idxdb _ _ _ well idxdbFailed).mpr ⟨?_, Or.inr (Or.inr ⟨settled, keeps⟩)⟩
    intro change member
    cases List.mem_singleton.mp (List.takeWhile_subset _ member)
    rfl

/-- The database cannot commit. -/
def refuseCommit : Refusals :=
  refusing [.commit]

/-- The update of the funding of an account. -/
def fundUpdate : TransactionStoreUpdate where
  fullState := none
  executedTransaction := setEntry 24 ((∅ : ExtTreeMap AccountId ℤ).insert 9 5)
  record := ⟨1, ⟨7, 0, 0, [], 0, 0, 0, 0⟩, .pending⟩
  script := none
  noteUpdates := ⟨∅, ∅, ∅, ∅, ∅⟩
  newTags := []

/-- A transaction whose commit fails leaves its roots staged. -/
theorem failed_update_changes_forest :
    ∃ db forest, Reaches [.insertAccount mapAccount] db forest ∧
      ∃ reason after, SqliteStore.perform refuseCommit (.applyTransaction fundUpdate)
        (opened db forest) = .error reason after ∧ ¬(opened db forest).Unchanged after := by
  obtain ⟨db, forest, reaches, fails⟩ := Fallible.exists_of_succeedsWith
    (show Fallible.succeedsWith ([StoreOperation.insertAccount mapAccount].foldlM
        Database.perform Database.empty AccountSmtForest.new) (fun db forest =>
      Fallible.failsLeaving (SqliteStore.perform refuseCommit (.applyTransaction fundUpdate)
        (opened db forest)) fun after =>
          after.forest.getRoots 7 ≠ forest.getRoots 7) = true by decide +kernel)
  obtain ⟨reason, after, failed, differs⟩ := Fallible.exists_of_failsLeaving fails
  refine ⟨db, forest, reaches, reason, after, failed, fun unchanged => ?_⟩
  refine of_decide_eq_true differs ?_
  rw [AccountSmtForest.getRoots, unchanged.registration.accountRoots]
  rfl

end Sample

end MidenClient
