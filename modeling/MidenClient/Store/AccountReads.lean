/-
This file models how the stores answer the questions of a transaction about the vault and
the storage maps of an account (`get_account_asset`, `get_account_vault` and
`get_account_storage` of `sqlite-store/src/account/accounts.rs` and
`idxdb-store/src/account/mod.rs`, and the readers of `rust-client/src/store/smt_forest.rs`).

An asset is opened in the tree of the latest header of its account, whatever tree the
transaction asks about. A storage map is looked up by its root.

The opening of a tree belongs to the Merkle library. All that is known of it is the root
it hashes to and the values of the keys in the opened leaf.
-/

import MidenClient.Sqlite.AccountContent
import MidenClient.Sqlite.StoreRun
import MidenClient.Store.ChainData

namespace MidenClient

open Std (ExtTreeMap)

/-- An opening of a sparse Merkle tree: the root it hashes to, and the values of the keys that the
opened leaf covers. -/
structure SmtProof where
  root : Word
  get : Word → Option Word

/-- The proof opens the tree with the root for the key. -/
def SmtProof.Opens (proof : SmtProof) (root key : Word) : Prop :=
  proof.root = root ∧ (proof.get key).isSome = true

structure AssetWitness where
  proof : SmtProof

structure StorageMapWitness where
  proof : SmtProof
  keys : List StorageMapKey

/-- What the client uses of the Merkle and asset libraries. Opening a tree gives a proof for the
root and the key that are asked for. -/
class WitnessLibrary where
  openTree : Word → Word → SmtProof
  openTree_opens : ∀ root key, (openTree root key).Opens root key
  /-- `Asset::from_key_value_words`. -/
  assetOfWords : Word → Word → Except String Asset
  /-- The check of `AssetWitness::new`, that the leaf holds assets. -/
  checkAssetWitness : SmtProof → Except String Unit

/-- The errors of a read. -/
inductive AccountReadError where
  | storeError (error : StoreError)
  | untrackedKey (key : Word)
  | assetError (message : String)
  | storageRootNotFound (root : Word)
  deriving DecidableEq, Repr

/-- The root of a vault. -/
def assetVaultRoot [ProtocolLibrary] (vault : ExtTreeMap AssetVaultKey Asset) : Word :=
  ProtocolLibrary.smtBatchInsert ProtocolLibrary.emptySmtRoot
    (vault.toList.map fun entry =>
      (ProtocolLibrary.vaultKeyWord entry.1, ProtocolLibrary.assetValueWord entry.2))

section Witnesses

variable [ProtocolLibrary] [WitnessLibrary]

def AssetWitness.new (proof : SmtProof) : Except AccountReadError AssetWitness := do
  (WitnessLibrary.checkAssetWitness proof).mapError .assetError
  return ⟨proof⟩

/-- A witness of the keys, all of which the proof must cover. -/
def StorageMapWitness.new (proof : SmtProof) (keys : List StorageMapKey) :
    Except String StorageMapWitness :=
  if keys.all fun key => (proof.get (ProtocolLibrary.mapKeyHash key)).isSome then
    .ok ⟨proof, keys⟩
  else .error "storage map proof does not cover the key"

/-- `AssetVault::open`. -/
def openVault (vault : ExtTreeMap AssetVaultKey Asset) (vaultKey : AssetVaultKey) : SmtProof :=
  WitnessLibrary.openTree (assetVaultRoot vault) (ProtocolLibrary.vaultKeyWord vaultKey)

/-- `StorageMap::open`. -/
def openStorageMap (entries : ExtTreeMap StorageMapKey Word) (key : StorageMapKey) :
    StorageMapWitness :=
  ⟨WitnessLibrary.openTree (storageMapRoot entries) (ProtocolLibrary.mapKeyHash key), [key]⟩

/-- `SmtForest::open`. -/
def AccountSmtForest.openRoot (forest : AccountSmtForest) (root key : Word) :
    Except AccountReadError SmtProof :=
  if root ≠ ProtocolLibrary.emptySmtRoot ∧ root ∉ forest.forest.roots then
    .error (.storeError (.rootNotInStore root))
  else .ok (WitnessLibrary.openTree root key)

/-- Retrieves the vault asset and its witness for a specific vault key. -/
def AccountSmtForest.getAssetAndWitness (forest : AccountSmtForest) (vaultRoot : Word)
    (vaultKey : AssetVaultKey) : Except AccountReadError (Asset × AssetWitness) := do
  let key := ProtocolLibrary.vaultKeyWord vaultKey
  let proof ← forest.openRoot vaultRoot key
  match proof.get key with
  | none => throw (.untrackedKey key)
  | some value =>
    if value = emptyWord then throw (.untrackedKey key)
    let asset ← (WitnessLibrary.assetOfWords key value).mapError .assetError
    let witness ← AssetWitness.new proof
    return (asset, witness)

end Witnesses

/-! ### The tables of a store -/

/-- The latest states of the accounts, as either store keeps them, and its forest. -/
structure AccountTables where
  kind : StoreKind
  header : AccountId → Option AccountHeader
  assets : AccountId → ExtTreeMap AssetVaultKey Asset
  /-- The slots of an account in order, with their top-level values. -/
  slots : AccountId → List (StorageSlotName × Word × StorageSlotType)
  mapEntries : AccountId → StorageSlotName → ExtTreeMap StorageMapKey Word
  forest : AccountSmtForest

namespace AccountTables

section Reads

variable [ProtocolLibrary]

/-- What is stored of an account fits together: its header has the root of its assets, and its map
slots have the roots of their entries. -/
structure ConsistentAt (tables : AccountTables) (accountId : AccountId) : Prop where
  vault : ∀ header, tables.header accountId = some header →
    assetVaultRoot (tables.assets accountId) = header.vaultRoot
  maps : ∀ slotName root, (slotName, root, StorageSlotType.map) ∈ tables.slots accountId →
    storageMapRoot (tables.mapEntries accountId slotName) = root

def slotContent (tables : AccountTables) (accountId : AccountId)
    (slot : StorageSlotName × Word × StorageSlotType) : StorageSlotContent :=
  match slot.2.2 with
  | .value => .value slot.2.1
  | .map => .map (tables.mapEntries accountId slot.1)

/-- Only the IndexedDB store checks that it has the account. -/
def checkStored (tables : AccountTables) (accountId : AccountId) : Except AccountReadError Unit :=
  match tables.kind, tables.header accountId with
  | .idxdb, none => .error (.storeError (.accountDataNotFound accountId))
  | _, _ => .ok ()

/-- The asset vault of an account. -/
def getAccountVault (tables : AccountTables) (accountId : AccountId) :
    Except AccountReadError (ExtTreeMap AssetVaultKey Asset) := do
  tables.checkStored accountId
  return tables.assets accountId

/-- The slots of an account with a top-level value. The IndexedDB store reads the first such map
only. -/
def getAccountStorage (tables : AccountTables) (accountId : AccountId) (mapRoot : Word) :
    Except AccountReadError (List StorageSlotContent) := do
  tables.checkStored accountId
  match tables.kind with
  | .sqlite =>
    return ((tables.slots accountId).filter fun slot => slot.2.1 = mapRoot).map
      (tables.slotContent accountId)
  | .idxdb =>
    match (tables.slots accountId).find? fun slot => slot.2.1 = mapRoot ∧ slot.2.2 = .map with
    | none => throw (.storageRootNotFound mapRoot)
    | some slot => return [tables.slotContent accountId slot]

variable [WitnessLibrary]

/-- Fetches a specific asset from the account's latest vault. -/
def getAccountAsset (tables : AccountTables) (accountId : AccountId) (vaultKey : AssetVaultKey) :
    Except AccountReadError (Option (Asset × AssetWitness)) :=
  match tables.header accountId with
  | none => .error (.storeError (.accountDataNotFound accountId))
  | some header =>
    match tables.forest.getAssetAndWitness header.vaultRoot vaultKey with
    | .ok found => .ok (some found)
    | .error (.untrackedKey _) => .ok none
    | .error error => .error error

end Reads

end AccountTables

/-- Consistent tables, which is how the operations of a store leave them. -/
structure StoredAccounts [ProtocolLibrary] extends AccountTables where
  consistent : ∀ accountId, toAccountTables.ConsistentAt accountId

/-! ### What the reads find -/

section Found

variable [ProtocolLibrary] [WitnessLibrary]

omit [ProtocolLibrary] in
theorem AssetWitness.new_eq_ok {proof : SmtProof} {witness : AssetWitness}
    (made : AssetWitness.new proof = .ok witness) : witness.proof = proof := by
  obtain ⟨_, _, returned⟩ := Fallible.bind_eq_ok.mp made
  cases returned
  rfl

omit [WitnessLibrary] in
theorem StorageMapWitness.new_eq_ok_iff {proof : SmtProof} {key : StorageMapKey}
    {witness : StorageMapWitness} :
    StorageMapWitness.new proof [key] = .ok witness ↔
      (proof.get (ProtocolLibrary.mapKeyHash key)).isSome = true ∧ witness = ⟨proof, [key]⟩ := by
  unfold StorageMapWitness.new
  rw [List.all_cons, List.all_nil, Bool.and_true]
  split
  · rename_i covered
    exact ⟨fun made => ⟨covered, (Except.ok.inj made).symm⟩, fun ⟨_, same⟩ => same ▸ rfl⟩
  · rename_i missing
    exact ⟨fun made => (nomatch made), fun ⟨covered, _⟩ => absurd covered missing⟩

/-- An asset is opened in the tree with the asked root. -/
theorem AccountSmtForest.getAssetAndWitness_opens {forest : AccountSmtForest} {vaultRoot : Word}
    {vaultKey : AssetVaultKey} {asset : Asset} {witness : AssetWitness}
    (found : forest.getAssetAndWitness vaultRoot vaultKey = .ok (asset, witness)) :
    witness.proof.Opens vaultRoot (ProtocolLibrary.vaultKeyWord vaultKey) := by
  obtain ⟨proof, opened, found⟩ := Fallible.bind_eq_ok.mp found
  have opens : proof.Opens vaultRoot (ProtocolLibrary.vaultKeyWord vaultKey) := by
    unfold AccountSmtForest.openRoot at opened
    split at opened
    · cases opened
    · cases opened
      exact WitnessLibrary.openTree_opens _ _
  split at found
  · cases found
  · split at found
    · cases found
    · obtain ⟨_, _, found⟩ := Fallible.bind_eq_ok.mp found
      obtain ⟨made, new, returned⟩ := Fallible.bind_eq_ok.mp found
      cases returned
      rw [AssetWitness.new_eq_ok new]
      exact opens

namespace AccountTables

variable {tables : AccountTables} {accountId : AccountId}

/-- An asset is opened in the tree of the latest header. -/
theorem getAccountAsset_of_opened {vaultKey : AssetVaultKey} {header : AccountHeader}
    {found : Asset × AssetWitness} (stored : tables.header accountId = some header)
    (opened : tables.forest.getAssetAndWitness header.vaultRoot vaultKey = .ok found) :
    tables.getAccountAsset accountId vaultKey = .ok (some found) := by
  unfold getAccountAsset
  rw [stored]
  dsimp only
  rw [opened]

theorem getAccountAsset_opens {vaultKey : AssetVaultKey} {asset : Asset} {witness : AssetWitness}
    (found : tables.getAccountAsset accountId vaultKey = .ok (some (asset, witness))) :
    ∃ header, tables.header accountId = some header ∧
      witness.proof.Opens header.vaultRoot (ProtocolLibrary.vaultKeyWord vaultKey) := by
  unfold getAccountAsset at found
  cases stored : tables.header accountId with
  | none =>
    rw [stored] at found
    cases found
  | some header =>
    rw [stored] at found
    dsimp only at found
    split at found
    · rename_i opened
      cases found
      exact ⟨header, rfl, AccountSmtForest.getAssetAndWitness_opens opened⟩
    · cases found
    · cases found

omit [WitnessLibrary] in
/-- A read vault has the root of the latest header. -/
theorem ConsistentAt.root_of_getAccountVault (consistent : tables.ConsistentAt accountId)
    {header : AccountHeader} (stored : tables.header accountId = some header)
    {vault : ExtTreeMap AssetVaultKey Asset}
    (read : tables.getAccountVault accountId = .ok vault) :
    assetVaultRoot vault = header.vaultRoot := by
  obtain ⟨_, _, returned⟩ := Fallible.bind_eq_ok.mp read
  cases returned
  exact consistent.vault header stored

omit [WitnessLibrary] in
/-- The map that is found under a root has that root. -/
theorem ConsistentAt.root_of_getAccountStorage (consistent : tables.ConsistentAt accountId)
    {mapRoot : Word} {contents : List StorageSlotContent}
    (read : tables.getAccountStorage accountId mapRoot = .ok contents)
    {entries : ExtTreeMap StorageMapKey Word} (listed : .map entries ∈ contents) :
    storageMapRoot entries = mapRoot := by
  have each : ∀ slot ∈ tables.slots accountId, slot.2.1 = mapRoot →
      tables.slotContent accountId slot = .map entries → storageMapRoot entries = mapRoot := by
    rintro ⟨slotName, root, slotType⟩ stored rfl same
    cases slotType with
    | value => cases same
    | map =>
      cases same
      exact consistent.maps slotName root stored
  obtain ⟨_, _, read⟩ := Fallible.bind_eq_ok.mp read
  split at read
  · cases read
    obtain ⟨slot, kept, same⟩ := List.mem_map.mp listed
    obtain ⟨stored, valued⟩ := List.mem_filter.mp kept
    exact each slot stored (of_decide_eq_true valued) same
  · split at read
    · cases read
    · rename_i slot found
      cases read
      have matching := List.find?_some found
      exact each slot (List.mem_of_find?_eq_some found) (of_decide_eq_true matching).1
        (List.mem_singleton.mp listed).symm

end AccountTables

end Found

/-! ### The tables of the SQLite store -/

namespace Database

variable [ProtocolLibrary]

/-- What the SQLite store reads from its tables. -/
def accountTables (db : Database) (forest : AccountSmtForest) : AccountTables where
  kind := .sqlite
  header accountId := db.latestAccountHeaders[accountId]?.map HeaderRow.header
  assets accountId := db.getAccountVault accountId
  slots accountId := (db.accountStorage.ownedBy accountId).map fun entry =>
    ((ofLex entry.1).2, entry.2)
  mapEntries accountId slotName := db.getMapEntries accountId slotName
  forest := forest

variable {db : Database} {account : Account}

/-- The vault that is read is the vault of the account. -/
theorem HoldsState.getAccountVault_eq (holds : db.HoldsState account)
    (keyed : account.VaultKeyed) : db.getAccountVault account.id = account.vault := by
  have rowKey : ∀ entry ∈ db.accountAssets.ownedBy account.id,
      entry.2.vaultKey = (ofLex entry.1).2 := by
    intro entry owned
    have current := ((HistoryTable.mem_ownedBy_iff _ _ entry).mp owned).2
    exact keyed _ _ ((holds.assets _).symm.trans current)
  have distinct : (((db.accountAssets.ownedBy account.id).map fun entry =>
      (entry.2.vaultKey, entry.2)).map Prod.fst).Nodup := by
    rw [List.map_map]
    refine (List.map_congr_left rowKey).symm ▸ ?_
    exact HistoryTable.ownedBy_keys_nodup db.accountAssets account.id
  refine ExtTreeMap.ext_getElem? fun key => Option.ext fun asset => ?_
  unfold getAccountVault
  rw [OrderedMap.getElem?_ofList_eq_some_iff _ distinct, List.mem_map, ← holds.assets]
  constructor
  · rintro ⟨entry, owned, same⟩
    obtain ⟨rfl, rfl⟩ := Prod.mk.inj same
    rw [rowKey entry owned]
    exact ((HistoryTable.mem_ownedBy_iff _ _ entry).mp owned).2
  · intro current
    have owned := (HistoryTable.mem_ownedBy_iff db.accountAssets account.id
      (toLex (account.id, key), asset)).mpr ⟨rfl, current⟩
    exact ⟨_, owned, Prod.ext (rowKey _ owned) rfl⟩

/-- The entries that are read for a map are its entries. -/
theorem HoldsState.getMapEntries_eq (holds : db.HoldsState account) {slotName : StorageSlotName}
    {entries : ExtTreeMap StorageMapKey Word}
    (stored : account.storage[slotName]? = some (.map entries)) :
    db.getMapEntries account.id slotName = entries := by
  have distinct : ((((db.storageMapEntries.ownedBy account.id).filter fun entry =>
      (ofLex (ofLex entry.1).2).1 = slotName).map fun entry =>
        ((ofLex (ofLex entry.1).2).2, entry.2)).map Prod.fst).Nodup := by
    have keys := HistoryTable.ownedBy_keys_nodup db.storageMapEntries account.id
    rw [List.map_map, List.Nodup, List.pairwise_map]
    rw [List.Nodup, List.pairwise_map] at keys
    refine (keys.filter _).imp_of_mem fun {first second} kept other different same => ?_
    refine different (ofLex_inj.mp (Prod.ext ?_ same))
    rw [of_decide_eq_true (List.mem_filter.mp kept).2,
      of_decide_eq_true (List.mem_filter.mp other).2]
  have entriesAt : ∀ key : StorageMapKey, db.storageMapEntries.current account.id
      (toLex (slotName, key)) = entries[key]? := by
    intro key
    rw [holds.entries, stored]
  refine ExtTreeMap.ext_getElem? fun key => Option.ext fun value => ?_
  unfold getMapEntries
  rw [OrderedMap.getElem?_ofList_eq_some_iff _ distinct, List.mem_map, ← entriesAt]
  constructor
  · rintro ⟨entry, kept, same⟩
    obtain ⟨owned, slot⟩ := List.mem_filter.mp kept
    obtain ⟨rfl, rfl⟩ := Prod.mk.inj same
    have current := ((HistoryTable.mem_ownedBy_iff _ _ entry).mp owned).2
    rw [← of_decide_eq_true slot]
    exact current
  · intro current
    have owned := (HistoryTable.mem_ownedBy_iff db.storageMapEntries account.id
      (toLex (account.id, toLex (slotName, key)), value)).mpr ⟨rfl, current⟩
    exact ⟨_, List.mem_filter.mpr ⟨owned, decide_eq_true rfl⟩, rfl⟩

/-- The tables of an account that was written as a whole are consistent. -/
theorem HoldsState.consistentAt (holds : db.HoldsState account) (keyed : account.VaultKeyed)
    (forest : AccountSmtForest) : (db.accountTables forest).ConsistentAt account.id := by
  constructor
  · intro header stored
    obtain rfl := Option.some.inj (holds.header.symm.trans stored)
    exact congrArg assetVaultRoot (holds.getAccountVault_eq keyed)
  · intro slotName root listed
    obtain ⟨entry, owned, same⟩ := List.mem_map.mp listed
    obtain ⟨rfl, valued⟩ := Prod.mk.inj same
    have current := ((HistoryTable.mem_ownedBy_iff _ _ entry).mp owned).2
    rw [valued, holds.slots] at current
    obtain ⟨content, stored, top⟩ := Option.map_eq_some_iff.mp current
    obtain ⟨topValue, slotType⟩ := Prod.mk.inj top
    cases content with
    | value word => cases slotType
    | map entries =>
      refine Eq.trans ?_ topValue
      exact congrArg storageMapRoot (holds.getMapEntries_eq stored)

end Database

end MidenClient
