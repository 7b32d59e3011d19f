/-
This file models the account tables of the IndexedDB store: the loops over its tables
(`idxdb-store/src/ts/accounts.ts`) and what is computed before them
(`idxdb-store/src/account/utils.rs`).

The tables have the keys of the SQLite tables, but the historical headers are only keyed
by their commitment: a query for the header replaced at a nonce takes the first row in
the order of commitments. Values are written one at a time, a removal as an empty text.
-/

import MidenClient.Sqlite.StagedRoots

open Std (ExtTreeMap)

namespace HistoryTable

variable {α κ ν ρ : Type*} [LinearOrder α] [LinearOrder κ]

/-! ### Loops over one table -/

/-- Writes one changed value: archives the old one, then removes or replaces it. -/
def writeChange (row : Option ν → ρ) (owner : α) (version : ℕ) (table : HistoryTable α κ ν ρ)
    (change : κ × Option ν) : HistoryTable α κ ν ρ :=
  let archived := table.archive owner version change.1 (row (table.current owner change.1))
  match change.2 with
  | none => archived.drop owner change.1
  | some value => archived.put owner change.1 value

/-- Archives every old value, marks the new keys as absent before, and replaces the latest
values. -/
def archiveAndReplace (oldRow newRow : ν → ρ) (table : HistoryTable α κ ν ρ) (owner : α)
    (version : ℕ) (entries : List (κ × ν)) : HistoryTable α κ ν ρ :=
  let oldKeys := (table.ownedBy owner).map fun entry => (ofLex entry.1).2
  let archived := (table.ownedBy owner).foldl (fun table entry =>
    table.archive owner version (ofLex entry.1).2 (oldRow entry.2)) table
  let marked := entries.foldl (fun table entry =>
    if entry.1 ∈ oldKeys then table else table.archive owner version entry.1 (newRow entry.2))
    archived
  entries.foldl (fun table entry => table.put owner entry.1 entry.2) (marked.clear owner)

/-- Writes the archived rows of one version back, one at a time. -/
def restoreFromHistorical (old : ρ → Option ν) (table : HistoryTable α κ ν ρ) (owner : α)
    (version : ℕ) : HistoryTable α κ ν ρ :=
  (table.rowsAt owner version).foldl (fun table entry =>
    match old entry.2 with
    | some value => table.put owner (ofLex (ofLex entry.1).2).2 value
    | none => table.drop owner (ofLex (ofLex entry.1).2).2) table

end HistoryTable

namespace MidenClient

/-- The account tables of the IndexedDB store. -/
structure IdxdbDatabase where
  accountCodes : Finset Word
  latestAccountHeaders : ExtTreeMap AccountId HeaderRow
  historicalAccountHeaders : ExtTreeMap Word HistoricalHeaderRow
  accountStorages :
    HistoryTable AccountId StorageSlotName (Word × StorageSlotType) (Option Word × StorageSlotType)
  storageMapEntries :
    HistoryTable AccountId (StorageSlotName ×ₗ StorageMapKey) Word (Option Word)
  accountAssets : HistoryTable AccountId AssetVaultKey Asset (Option Asset)

namespace IdxdbDatabase

def empty : IdxdbDatabase :=
  ⟨∅, ∅, ∅, ⟨∅, ∅⟩, ⟨∅, ∅⟩, ⟨∅, ∅⟩⟩

/-! ### Reading -/

/-- The assets of an account with the given keys, or all of them when no key is given. -/
def getVaultAssets (db : IdxdbDatabase) (accountId : AccountId) (vaultKeys : List AssetVaultKey) :
    List Asset :=
  ((db.accountAssets.ownedBy accountId).filter fun entry =>
    vaultKeys = [] ∨ (ofLex entry.1).2 ∈ vaultKeys).map Prod.snd

/-- The roots of the maps with the given names, or of all maps when no name is given. -/
def getStorageMapRoots (db : IdxdbDatabase) (accountId : AccountId)
    (slotNames : List StorageSlotName) : ExtTreeMap StorageSlotName Word :=
  ExtTreeMap.ofList (((db.accountStorages.ownedBy accountId).filter fun entry =>
    (slotNames = [] ∨ (ofLex entry.1).2 ∈ slotNames) ∧ entry.2.2 = .map).map fun entry =>
      ((ofLex entry.1).2, entry.2.1))

/-! ### Writing whole accounts -/

variable [ProtocolLibrary]

/-- The table part of `insert_account`. -/
def insertAccount (db : IdxdbDatabase) (account : Account) : IdxdbDatabase :=
  { db with
    accountCodes := insert account.codeCommitment db.accountCodes
    accountStorages := db.accountStorages.upsert account.id account.storageSlots
    storageMapEntries := db.storageMapEntries.upsert account.id account.mapEntries
    accountAssets := db.accountAssets.upsert account.id account.vaultAssets
    latestAccountHeaders :=
      db.latestAccountHeaders.insert account.id ⟨account.toHeader, account.seed, false⟩ }

/-- Archives the latest header of an account, if there is one, and puts the new one. -/
def replaceHeader (db : IdxdbDatabase) (header : AccountHeader) (accountSeed : Option Word) :
    IdxdbDatabase :=
  { db with
    historicalAccountHeaders := match db.latestAccountHeaders[header.id]? with
      | some row => db.historicalAccountHeaders.insert row.header.toCommitment ⟨row, header.nonce⟩
      | none => db.historicalAccountHeaders
    latestAccountHeaders := db.latestAccountHeaders.insert header.id ⟨header, accountSeed, false⟩ }

/-- Replaces the full state of an account with a new snapshot. -/
def applyFullAccountState (db : IdxdbDatabase) (account : Account) : IdxdbDatabase :=
  ({ db with
    accountStorages := db.accountStorages.archiveAndReplace (fun slot => (some slot.1, slot.2))
      (fun slot => (none, slot.2)) account.id account.nonce account.storageSlots
    storageMapEntries := db.storageMapEntries.archiveAndReplace some (fun _ => none) account.id
      account.nonce account.mapEntries
    accountAssets := db.accountAssets.archiveAndReplace some (fun _ => none) account.id
      account.nonce account.vaultAssets }).replaceHeader account.toHeader account.seed

/-! ### Applying a delta -/

/-- The entries that the map deltas change; an entry set to the empty word is removed. -/
def changedMapEntries (delta : AccountDelta) :
    List ((StorageSlotName ×ₗ StorageMapKey) × Option Word) :=
  delta.maps.flatMap fun slot => slot.2.toList.map fun entry =>
    (toLex (slot.1, entry.1), if entry.2 = emptyWord then none else some entry.2)

/-- Writes the changed values of a transaction and its final header. -/
def applyTransactionDelta (db : IdxdbDatabase) (finalHeader : AccountHeader)
    (updatedSlots : ExtTreeMap StorageSlotName (Word × StorageSlotType))
    (updatedAssets : List Asset) (removedVaultKeys : List AssetVaultKey) (delta : AccountDelta) :
    IdxdbDatabase :=
  ({ db with
    accountStorages := updatedSlots.toList.foldl
      (Database.writeSlot finalHeader.id finalHeader.nonce) db.accountStorages
    storageMapEntries := (changedMapEntries delta).foldl
      (HistoryTable.writeChange id finalHeader.id finalHeader.nonce) db.storageMapEntries
    accountAssets := (updatedAssets.map (fun asset : Asset => (asset.vaultKey, some asset)) ++
        removedVaultKeys.map fun key => (key, none)).foldl
      (HistoryTable.writeChange id finalHeader.id finalHeader.nonce) db.accountAssets
      }).replaceHeader finalHeader none

def fungibleEntry : Asset → Option (AssetVaultKey × FungibleAsset)
  | .fungible asset => some (asset.vaultKey, asset)
  | .nonFungible _ => none

/-- The fungible assets by their vault keys. -/
def fungibleMap (assets : List Asset) : ExtTreeMap AssetVaultKey FungibleAsset :=
  ExtTreeMap.ofList (assets.filterMap fungibleEntry)

/-- One fungible change of `compute_vault_delta`: the old asset is taken out of the lookup map. -/
def computeFungible (state : ExtTreeMap AssetVaultKey FungibleAsset × List Asset ×
      List AssetVaultKey) (change : AccountId × ℤ) :
    Except StoreError (ExtTreeMap AssetVaultKey FungibleAsset × List Asset ×
      List AssetVaultKey) := do
  let deltaAsset ← FungibleAsset.new change.1 change.2.natAbs
  let asset ← VaultChanges.changedAsset state.1[AssetVaultKey.fungible change.1]? deltaAsset
    change.2
  let remaining := state.1.erase (.fungible change.1)
  return if asset.amount > 0 then (remaining, state.2.1 ++ [.fungible asset], state.2.2)
    else (remaining, state.2.1, state.2.2 ++ [asset.vaultKey])

/-- The new assets and the removed vault keys of a delta. -/
def computeVaultDelta (oldVaultAssets : List Asset) (delta : AccountDelta) :
    Except StoreError (List Asset × List AssetVaultKey) := do
  let fungible ← delta.fungible.toList.foldlM computeFungible
    (fungibleMap oldVaultAssets, [], [])
  return delta.nonFungible.toList.foldl (fun changes entry => match entry.2 with
    | .add => (changes.1 ++ [.nonFungible entry.1], changes.2)
    | .remove => (changes.1, changes.2 ++ [.nonFungible entry.1])) fungible.2

/-- `compute_storage_delta`, which is the computation of the SQLite store. -/
def computeStorageDelta (oldMapRoots : ExtTreeMap StorageSlotName Word) (delta : AccountDelta) :
    ForestM (ExtTreeMap StorageSlotName (Word × StorageSlotType)) :=
  applyAccountStorageDelta oldMapRoots delta

/-- The changes that a transaction makes to the tables. -/
structure TransactionChanges where
  updatedSlots : ExtTreeMap StorageSlotName (Word × StorageSlotType)
  updatedAssets : List Asset
  removedVaultKeys : List AssetVaultKey

/-- The part of `apply_transaction` that holds the lock of the forest: computes the changes,
checks the vault root, and stages the final roots. The map roots are replaced first, and the old
vault root is read from the front of the list after that. -/
def stageTransaction (db : IdxdbDatabase) (transaction : ExecutedTransaction) :
    ForestM TransactionChanges := do
  let accountId := transaction.finalAccount.id
  let delta := transaction.accountDelta
  let oldMapRoots := db.getStorageMapRoots accountId (delta.maps.map Prod.fst)
  let registered ← ForestM.registeredRoots accountId
  let updatedSlots ← computeStorageDelta oldMapRoots delta
  let finalRoots := replaceMapRoots registered oldMapRoots updatedSlots.toList
  let (updatedAssets, removedVaultKeys) ← ForestM.liftExcept (computeVaultDelta
    (db.getVaultAssets accountId (delta.fungible.toList.map fun change => .fungible change.1))
    delta)
  -- an empty list would be a panic here
  let newVaultRoot ← ForestM.update fun forest =>
    forest.updateAssetNodes (finalRoots.headD emptyWord) updatedAssets removedVaultKeys
  if newVaultRoot = transaction.finalAccount.vaultRoot then
    ForestM.update fun forest => .ok (forest.stageRoots accountId (finalRoots.set 0 newVaultRoot),
      ⟨updatedSlots, updatedAssets, removedVaultKeys⟩)
  else throw .databaseError

/-! ### Undoing and pruning -/

/-- Writes the archived values of one nonce back into all tables. -/
def restoreFromHistorical (db : IdxdbDatabase) (accountId : AccountId) (nonce : ℕ) :
    IdxdbDatabase :=
  { db with
    accountStorages :=
      db.accountStorages.restoreFromHistorical Database.oldSlot accountId nonce
    storageMapEntries := db.storageMapEntries.restoreFromHistorical id accountId nonce
    accountAssets := db.accountAssets.restoreFromHistorical id accountId nonce }

/-- The first historical header of an account that was replaced at a nonce. -/
def replacedAt (db : IdxdbDatabase) (accountId : AccountId) (nonce : ℕ) :
    Option HistoricalHeaderRow :=
  (OrderedMap.values db.historicalAccountHeaders).find? fun row =>
    row.header.id = accountId ∧ row.replacedAtNonce = nonce

/-- Restores the header that the earliest discarded nonce replaced, or deletes the account. -/
def restoreHeader (db : IdxdbDatabase) (accountId : AccountId) (minNonce : ℕ) : IdxdbDatabase :=
  match db.replacedAt accountId minNonce with
  | some row => { db with
      latestAccountHeaders := db.latestAccountHeaders.insert row.header.id row.toHeaderRow }
  | none => { db with
      latestAccountHeaders := db.latestAccountHeaders.erase accountId
      accountStorages := db.accountStorages.clear accountId
      storageMapEntries := db.storageMapEntries.clear accountId
      accountAssets := db.accountAssets.clear accountId }

/-- Deletes the historical entries of an account at one nonce. -/
def deleteHistorical (db : IdxdbDatabase) (accountId : AccountId) (nonce : ℕ) : IdxdbDatabase :=
  { db with
    accountStorages := db.accountStorages.forget accountId [nonce]
    storageMapEntries := db.storageMapEntries.forget accountId [nonce]
    accountAssets := db.accountAssets.forget accountId [nonce]
    historicalAccountHeaders := db.historicalAccountHeaders.filter fun _ row =>
      ¬(row.header.id = accountId ∧ row.replacedAtNonce = nonce) }

/-- Undoes the nonces of one account, from the last to the first. -/
def undoAccountNonces (db : IdxdbDatabase) (accountId : AccountId) (nonces : List ℕ) :
    IdxdbDatabase :=
  let sortedNonces := Database.descending nonces
  let restored := sortedNonces.foldl (fun db nonce => db.restoreFromHistorical accountId nonce) db
  match sortedNonces.getLast? with
  | none => db
  | some minNonce => sortedNonces.foldl (fun db nonce => db.deleteHistorical accountId nonce)
      (restored.restoreHeader accountId minNonce)

/-- The account and nonce of the state with a commitment, from the latest headers or, when it is
not there, from the historical ones. -/
def resolveState (db : IdxdbDatabase) (commitment : Word) : Option (AccountId × ℕ) :=
  match (OrderedMap.values db.latestAccountHeaders).find? fun row =>
      row.header.toCommitment = commitment with
  | some row => some (row.header.id, row.header.nonce)
  | none => (db.historicalAccountHeaders[commitment]?).map fun row =>
      (row.header.id, row.header.nonce)

/-- Undoes discarded account states by restoring old values. The accounts are taken in the order
in which they were found first; they do not share rows, so any order does the same. -/
def undoAccountStates (db : IdxdbDatabase) (accountCommitments : List Word) : IdxdbDatabase :=
  (Grouping.groupBy Prod.fst (accountCommitments.filterMap db.resolveState)).toList.foldl
    (fun db account => db.undoAccountNonces account.1 (account.2.map Prod.snd)) db

/-- The historical headers of an account up to a nonce. -/
def headersToPrune (db : IdxdbDatabase) (accountId : AccountId) (upToNonce : ℕ) :
    List HistoricalHeaderRow :=
  (OrderedMap.values db.historicalAccountHeaders).filter fun row =>
    row.header.id = accountId ∧ row.replacedAtNonce ≤ upToNonce

/-- Deletes one historical header, and the values replaced with it. -/
def pruneHeader (accountId : AccountId) (db : IdxdbDatabase) (row : HistoricalHeaderRow) :
    IdxdbDatabase :=
  { db with
    historicalAccountHeaders := db.historicalAccountHeaders.erase row.header.toCommitment
    accountStorages := db.accountStorages.forget accountId [row.replacedAtNonce]
    storageMapEntries := db.storageMapEntries.forget accountId [row.replacedAtNonce]
    accountAssets := db.accountAssets.forget accountId [row.replacedAtNonce] }

/-- Deletes the historical headers up to a nonce with the values replaced with them, and the code
that no header uses any more. Codes of foreign accounts are kept. -/
def pruneAccountHistory (db : IdxdbDatabase) (foreignCodes : Finset Word) (accountId : AccountId)
    (upToNonce : ℕ) : IdxdbDatabase :=
  let toPrune := db.headersToPrune accountId upToNonce
  let pruned := toPrune.foldl (pruneHeader accountId) db
  { pruned with
    accountCodes := pruned.accountCodes.filter fun code =>
      ¬(code ∈ toPrune.map (fun row => row.header.codeCommitment) ∧
        (∀ row ∈ OrderedMap.values pruned.latestAccountHeaders, row.header.codeCommitment ≠ code) ∧
        (∀ row ∈ OrderedMap.values pruned.historicalAccountHeaders,
          row.header.codeCommitment ≠ code) ∧ code ∉ foreignCodes) }

end IdxdbDatabase

end MidenClient
