/-
This file puts the operations of the SQLite store together, as far as accounts are
concerned: inserting an account, applying a transaction, applying a state sync update,
updating an account from the network, pruning its history, and opening the store again.

The tables are on disk and the forest is in memory. Opening the store builds a new forest
from the tables, in which nothing is pending.
-/

import MidenClient.Sqlite.StagedRoots
import MidenClient.Sqlite.StateSync

namespace MidenClient

open Std (ExtTreeMap)

section Library

variable [ProtocolLibrary]

namespace Database

/-! ### Operations on one account -/

/-- `insert_account`. The tables are committed before the forest is touched. -/
def insertAccount (db : Database) (account : Account) : ForestM Database := do
  let db ← ForestM.liftExcept (db.insertAccountTables account)
  ForestM.update fun forest =>
    (forest.insertAndRegisterAccountState account).map fun next => (next, db)

/-- `update_account`, for an account that is stored. -/
def updateAccount (db : Database) (account : Account) : ForestM Database :=
  if db.latestAccountHeaders[account.id]? = none then throw (.accountDataNotFound account.id)
  else db.updateAccountState account

/-! ### Pruning -/

/-- The signed integer that the database keeps for a number of 64 bits. -/
def u64ToValue (value : ℕ) : ℤ :=
  if value < 2 ^ 63 then value else value - 2 ^ 64

/-- Whether a nonce is compared as at most the bound. -/
def nonceUpTo (upToNonce nonce : ℕ) : Bool :=
  u64ToValue nonce ≤ u64ToValue upToNonce

/-- Deletes the historical entries of an account that were replaced up to a nonce, and the code
that no header uses any more. Codes of foreign accounts are kept. -/
def pruneAccountHistory (db : Database) (foreignCodes : Finset Word) (accountId : AccountId)
    (upToNonce : ℕ) : Database :=
  let old : HistoricalHeaderRow → Bool := fun row =>
    row.header.id = accountId ∧ nonceUpTo upToNonce row.replacedAtNonce
  let kept := db.historicalAccountHeaders.filter fun row => ¬old row
  { db with
    historicalAccountHeaders := kept
    accountStorage := db.accountStorage.prune accountId (nonceUpTo upToNonce)
    storageMapEntries := db.storageMapEntries.prune accountId (nonceUpTo upToNonce)
    accountAssets := db.accountAssets.prune accountId (nonceUpTo upToNonce)
    accountCode := db.accountCode.filter fun code =>
      ¬(code ∈ (db.historicalAccountHeaders.filter old).map (fun row => row.header.codeCommitment) ∧
        (∀ row ∈ OrderedMap.values db.latestAccountHeaders, row.header.codeCommitment ≠ code) ∧
        (∀ row ∈ kept, row.header.codeCommitment ≠ code) ∧ code ∉ foreignCodes) }

/-! ### Opening the store -/

/-- `get_account_vault`. -/
def getAccountVault (db : Database) (accountId : AccountId) : ExtTreeMap AssetVaultKey Asset :=
  ExtTreeMap.ofList ((db.accountAssets.ownedBy accountId).map fun entry =>
    (entry.2.vaultKey, entry.2))

/-- The entries of one storage map. -/
def getMapEntries (db : Database) (accountId : AccountId) (slotName : StorageSlotName) :
    ExtTreeMap StorageMapKey Word :=
  ExtTreeMap.ofList (((db.storageMapEntries.ownedBy accountId).filter fun entry =>
    (ofLex (ofLex entry.1).2).1 = slotName).map fun entry =>
      ((ofLex (ofLex entry.1).2).2, entry.2))

/-- `get_account_storage`, for all slots. -/
def getAccountStorage (db : Database) (accountId : AccountId) :
    ExtTreeMap StorageSlotName StorageSlotContent :=
  ExtTreeMap.ofList ((db.accountStorage.ownedBy accountId).map fun entry =>
    ((ofLex entry.1).2, match entry.2.2 with
      | .value => StorageSlotContent.value entry.2.1
      | .map => StorageSlotContent.map (db.getMapEntries accountId (ofLex entry.1).2)))

/-- The stored account with a header. -/
def storedAccount (db : Database) (row : HeaderRow) : Account where
  id := row.header.id
  vault := db.getAccountVault row.header.id
  storage := db.getAccountStorage row.header.id
  codeCommitment := row.header.codeCommitment
  nonce := row.header.nonce
  seed := row.accountSeed

/-- The part of `SqliteStore::new` that builds the forest from the tables. -/
def initializeForest (db : Database) : Except StoreError AccountSmtForest :=
  (OrderedMap.values db.latestAccountHeaders).foldlM (fun forest row =>
    forest.insertAndRegisterAccountState (db.storedAccount row)) AccountSmtForest.new

/-- Closes the store, which forgets the forest, and opens it again. -/
def reopen (db : Database) : ForestM Database :=
  ForestM.update fun _ => db.initializeForest.map fun forest => (forest, db)

end Database

/-! ### Runs -/

/-- An operation of the store on its accounts. -/
inductive StoreOperation where
  | insertAccount (account : Account)
  | applyTransaction (transaction : ExecutedTransaction)
  | applyStateSync (update : AccountSyncUpdate)
  | updateAccount (account : Account)
  | pruneAccountHistory (foreignCodes : Finset Word) (accountId : AccountId) (upToNonce : ℕ)
  | reopen

namespace Database

def perform (db : Database) : StoreOperation → ForestM Database
  | .insertAccount account => db.insertAccount account
  | .applyTransaction transaction => db.applyTransaction transaction
  | .applyStateSync update => db.applyStateSync update
  | .updateAccount account => db.updateAccount account
  | .pruneAccountHistory foreignCodes accountId upToNonce =>
    return db.pruneAccountHistory foreignCodes accountId upToNonce
  | .reopen => db.reopen

/-- The operations succeed one after the other, from an empty store. -/
def Reaches (operations : List StoreOperation) (db : Database) (forest : AccountSmtForest) :
    Prop :=
  operations.foldlM perform Database.empty AccountSmtForest.new = .ok db forest

/-! ### What successful operations do -/

omit [ProtocolLibrary] in
theorem update_map_eq_ok {α : Type}
    {operation : AccountSmtForest → Except StoreError AccountSmtForest} {result value : α}
    {forest last : AccountSmtForest}
    (updated : ForestM.update (fun forest =>
      (operation forest).map fun next => (next, result)) forest = .ok value last) :
    operation forest = .ok last ∧ value = result := by
  have mapped := ForestM.update_eq_ok.mp updated
  cases outcome : operation forest with
  | error reason =>
    rw [outcome] at mapped
    cases mapped
  | ok next =>
    rw [outcome] at mapped
    cases mapped
    exact ⟨rfl, rfl⟩

variable {db next : Database} {forest last : AccountSmtForest} {account : Account}

theorem insertAccount_eq_ok (inserted : db.insertAccount account forest = .ok next last) :
    db.insertAccountTables account = .ok next ∧
      forest.insertAndRegisterAccountState account = .ok last := by
  obtain ⟨stored, middle, tables, registered⟩ := Fallible.bind_eq_result_ok.mp inserted
  obtain ⟨written, rfl⟩ := ForestM.liftExcept_eq_ok.mp tables
  obtain ⟨succeeded, rfl⟩ := update_map_eq_ok registered
  exact ⟨written, succeeded⟩

/-- Inserting an account writes its content, and then its header. -/
theorem insertAccountTables_eq_ok (inserted : db.insertAccountTables account = .ok next) :
    ∃ content : Database, content.latestAccountHeaders = db.latestAccountHeaders ∧
      content.historicalAccountHeaders = db.historicalAccountHeaders ∧
      content.insertAccountHeader account.toHeader account.seed none = .ok next := by
  refine ⟨_, ?_, ?_, inserted⟩
  · show (insertStorageSlots _ account.id account.storage.toList).latestAccountHeaders = _
    rw [insertStorageSlots_frame]
  · show (insertStorageSlots _ account.id account.storage.toList).historicalAccountHeaders = _
    rw [insertStorageSlots_frame]

theorem updateAccount_eq_ok (updated : db.updateAccount account forest = .ok next last) :
    db.updateAccountState account forest = .ok next last := by
  unfold updateAccount at updated
  split at updated
  · cases updated
  · exact updated

theorem reopen_eq_ok (opened : db.reopen forest = .ok next last) :
    db.initializeForest = .ok last ∧ next = db :=
  update_map_eq_ok opened

end Database

end Library

end MidenClient
