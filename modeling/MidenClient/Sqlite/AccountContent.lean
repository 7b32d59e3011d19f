/-
This file says what the tables hold of an account after it was written as a whole: by
`insert_account`, or by the update from the network.

The slots, map entries and assets are written row by row. With one row for every key the
tables hold exactly the rows of the account afterwards, and the history tables have the
rows that were there before, under the nonce of the account.
-/

import MidenClient.Sqlite.StateSync

namespace MidenClient

open Std (ExtTreeMap)

/-! ### The rows of an account -/

namespace Account

/-- Every asset is in the vault under its own key. -/
def VaultKeyed (account : Account) : Prop :=
  ∀ (key : AssetVaultKey) (asset : Asset), account.vault[key]? = some asset → asset.vaultKey = key

theorem vaultAssets_eq {account : Account} (keyed : account.VaultKeyed) :
    account.vaultAssets = account.vault.toList := by
  unfold vaultAssets
  refine (List.map_congr_left fun entry member => ?_).trans (List.map_id _)
  exact Prod.ext (keyed _ _ (ExtTreeMap.mem_toList_iff_getElem?_eq_some.mp member)) rfl

theorem vaultAssets_keys_nodup {account : Account} (keyed : account.VaultKeyed) :
    (account.vaultAssets.map Prod.fst).Nodup := by
  rw [vaultAssets_eq keyed, ExtTreeMap.map_fst_toList_eq_keys]
  exact ExtTreeMap.nodup_keys

theorem mapEntries_keys_nodup (account : Account) : (account.mapEntries.map Prod.fst).Nodup := by
  have slots : account.storage.toList.Pairwise fun first second => first.1 ≠ second.1 :=
    (OrderedMap.pairwise_lt_toList account.storage).imp fun below => below.ne
  unfold mapEntries
  rw [List.map_flatMap, List.nodup_flatMap]
  constructor
  · intro slot _
    split
    · exact List.nodup_nil
    · rename_i entries _
      rw [List.map_map]
      have keys : (entries.toList.map Prod.fst).Nodup := by
        rw [ExtTreeMap.map_fst_toList_eq_keys]
        exact ExtTreeMap.nodup_keys
      have slotKeys := keys.map (f := fun key => toLex (slot.1, key))
        fun first second same => (Prod.mk.inj (toLex_inj.mp same)).2
      rw [List.map_map] at slotKeys
      exact slotKeys
  · refine slots.imp fun {first second} different => ?_
    rw [Function.onFun, List.disjoint_left]
    intro key memberFirst memberSecond
    have ofFirst : (ofLex key).1 = first.1 := by
      split at memberFirst
      · cases memberFirst
      · obtain ⟨pair, listed, rfl⟩ := List.mem_map.mp memberFirst
        obtain ⟨entry, -, rfl⟩ := List.mem_map.mp listed
        rfl
    have ofSecond : (ofLex key).1 = second.1 := by
      split at memberSecond
      · cases memberSecond
      · obtain ⟨pair, listed, rfl⟩ := List.mem_map.mp memberSecond
        obtain ⟨entry, -, rfl⟩ := List.mem_map.mp listed
        rfl
    exact different (ofFirst.symm.trans ofSecond)

theorem mem_mapEntries_iff (account : Account) (slotName : StorageSlotName) (key : StorageMapKey)
    (value : Word) :
    (toLex (slotName, key), value) ∈ account.mapEntries ↔
      (match account.storage[slotName]? with
        | some (.map entries) => entries[key]?
        | _ => none) = some value := by
  unfold mapEntries
  rw [List.mem_flatMap]
  constructor
  · rintro ⟨slot, member, listed⟩
    have stored := ExtTreeMap.mem_toList_iff_getElem?_eq_some.mp member
    split at listed
    · cases listed
    · rename_i content entries isMap
      obtain ⟨entry, found, same⟩ := List.mem_map.mp listed
      obtain ⟨keys, rfl⟩ := Prod.mk.inj same
      obtain ⟨rfl, rfl⟩ := Prod.mk.inj (toLex_inj.mp keys)
      rw [stored, isMap]
      exact ExtTreeMap.mem_toList_iff_getElem?_eq_some.mp found
  · intro found
    split at found
    · rename_i entries stored
      refine ⟨(slotName, .map entries), ExtTreeMap.mem_toList_iff_getElem?_eq_some.mpr stored, ?_⟩
      exact List.mem_map.mpr
        ⟨(key, value), ExtTreeMap.mem_toList_iff_getElem?_eq_some.mpr found, rfl⟩
    · cases found

section Library

variable [ProtocolLibrary]

theorem storageSlots_keys_nodup (account : Account) :
    (account.storageSlots.map Prod.fst).Nodup := by
  have keys : account.storage.keys.Nodup := ExtTreeMap.nodup_keys
  rw [← ExtTreeMap.map_fst_toList_eq_keys] at keys
  unfold storageSlots
  rw [List.map_map]
  exact keys

theorem mem_storageSlots_iff (account : Account) (slotName : StorageSlotName)
    (value : Word × StorageSlotType) :
    (slotName, value) ∈ account.storageSlots ↔
      (account.storage[slotName]?).map (fun content => (content.topValue, content.slotType)) =
        some value := by
  unfold storageSlots
  rw [List.mem_map, Option.map_eq_some_iff]
  constructor
  · rintro ⟨slot, member, same⟩
    obtain ⟨rfl, rfl⟩ := Prod.mk.inj same
    exact ⟨slot.2, ExtTreeMap.mem_toList_iff_getElem?_eq_some.mp member, rfl⟩
  · rintro ⟨content, found, rfl⟩
    exact ⟨(slotName, content), ExtTreeMap.mem_toList_iff_getElem?_eq_some.mpr found, rfl⟩

end Library

end Account

/-! ### Writing the rows -/

namespace Database

variable [ProtocolLibrary]

theorem insertStorageSlots_accountStorage (db : Database) (accountId : AccountId)
    (account : Account) :
    (db.insertStorageSlots accountId account.storage.toList).accountStorage =
      account.storageSlots.foldl (fun table slot => table.put accountId slot.1 slot.2)
        db.accountStorage := by
  unfold insertStorageSlots Account.storageSlots
  rw [List.foldl_map]
  generalize account.storage.toList = slots
  induction slots generalizing db with
  | nil => rfl
  | cons slot rest inductionHypothesis =>
    rw [List.foldl_cons, List.foldl_cons]
    exact inductionHypothesis _

theorem insertStorageSlots_storageMapEntries (db : Database) (accountId : AccountId)
    (account : Account) :
    (db.insertStorageSlots accountId account.storage.toList).storageMapEntries =
      account.mapEntries.foldl (fun table entry => table.put accountId entry.1 entry.2)
        db.storageMapEntries := by
  unfold insertStorageSlots Account.mapEntries
  rw [List.foldl_flatMap]
  generalize account.storage.toList = slots
  induction slots generalizing db with
  | nil => rfl
  | cons slot rest inductionHypothesis =>
    rw [List.foldl_cons, List.foldl_cons]
    refine (inductionHypothesis _).trans (congrArg (rest.foldl _) ?_)
    rcases slot with ⟨slotName, word | entries⟩
    · rfl
    · show _ = (entries.toList.map _).foldl _ _
      rw [List.foldl_map]

omit [ProtocolLibrary] in
theorem insertAssets_accountAssets (db : Database) (accountId : AccountId) (account : Account) :
    (db.insertAssets accountId (account.vault.toList.map Prod.snd)).accountAssets =
      account.vaultAssets.foldl (fun table asset => table.put accountId asset.1 asset.2)
        db.accountAssets := by
  unfold insertAssets Account.vaultAssets
  rw [List.foldl_map, List.foldl_map]

/-- What replacing the content of an account does to the tables. -/
theorem replaceContent_eq (db : Database) (account : Account) :
    db.replaceContent account =
      { db with
        accountStorage := ((db.accountStorage.archiveLatest account.id account.nonce
          fun slot => (some slot.1, slot.2)).upsert account.id account.storageSlots).archiveMissing
            account.id account.nonce fun slot => (none, slot.2)
        storageMapEntries := ((db.storageMapEntries.archiveLatest account.id account.nonce
          some).upsert account.id account.mapEntries).archiveMissing account.id account.nonce
            fun _ => none
        accountAssets := ((db.accountAssets.archiveLatest account.id account.nonce some).upsert
          account.id account.vaultAssets).archiveMissing account.id account.nonce
            fun _ => none } := by
  unfold replaceContent
  dsimp only
  rw [insertAssets_accountAssets]
  unfold insertAssets
  dsimp only
  rw [insertStorageSlots_accountStorage, insertStorageSlots_storageMapEntries,
    insertStorageSlots_frame]
  rfl

/-- The latest state of an account in the tables is the given one. -/
structure HoldsState (db : Database) (account : Account) : Prop where
  header : db.latestAccountHeaders[account.id]?.map HeaderRow.header = some account.toHeader
  slots : ∀ slotName : StorageSlotName, db.accountStorage.current account.id slotName =
    (account.storage[slotName]?).map fun content => (content.topValue, content.slotType)
  entries : ∀ (slotName : StorageSlotName) (key : StorageMapKey),
    db.storageMapEntries.current account.id (toLex (slotName, key)) =
      match account.storage[slotName]? with
      | some (.map entries) => entries[key]?
      | _ => none
  assets : ∀ key : AssetVaultKey, db.accountAssets.current account.id key = account.vault[key]?

/-- Inserting a header writes the header tables only. -/
theorem insertAccountHeader_frame {db next : Database} {header : AccountHeader}
    {seed : Option Word} {oldHeader : Option AccountHeader}
    (inserted : db.insertAccountHeader header seed oldHeader = .ok next) :
    next = { db with
      latestAccountHeaders := (db.replaceLatestHeader ⟨header, seed, false⟩).latestAccountHeaders
      historicalAccountHeaders := next.historicalAccountHeaders } := by
  cases oldHeader with
  | none =>
    obtain ⟨-, rfl⟩ := (db.insertAccountHeader_none_eq_ok_iff next header seed).mp inserted
    rfl
  | some old =>
    obtain ⟨-, -, -, rfl⟩ :=
      (db.insertAccountHeader_some_eq_ok_iff next header old seed).mp inserted
    rfl

/-- A successful update from the network leaves the account in the given state. -/
theorem updateAccountState_holdsState {db next : Database} {account : Account}
    (keyed : account.VaultKeyed) {forest last : AccountSmtForest}
    (updated : db.updateAccountState account forest = .ok next last) :
    next.HoldsState account := by
  obtain ⟨-, inserted⟩ := updateAccountState_eq_ok updated
  have frame := insertAccountHeader_frame inserted
  rw [replaceContent_eq] at frame
  rw [frame]
  constructor
  · show Option.map _ (ExtTreeMap.insert _ account.toHeader.id _)[account.id]? = _
    rw [show account.toHeader.id = account.id from rfl, ExtTreeMap.getElem?_insert_self]
    rfl
  · intro slotName
    refine Option.ext fun value => ?_
    refine (congrArg (· = some value) (HistoryTable.current_archiveMissing ..)).to_iff.trans ?_
    rw [HistoryTable.current_upsert _ _ account.storageSlots_keys_nodup]
    exact account.mem_storageSlots_iff slotName value
  · intro slotName key
    refine Option.ext fun value => ?_
    refine (congrArg (· = some value) (HistoryTable.current_archiveMissing ..)).to_iff.trans ?_
    rw [HistoryTable.current_upsert _ _ account.mapEntries_keys_nodup]
    exact account.mem_mapEntries_iff slotName key value
  · intro key
    refine Option.ext fun asset => ?_
    refine (congrArg (· = some asset) (HistoryTable.current_archiveMissing ..)).to_iff.trans ?_
    rw [HistoryTable.current_upsert _ _ (Account.vaultAssets_keys_nodup keyed),
      Account.vaultAssets_eq keyed]
    exact ExtTreeMap.mem_toList_iff_getElem?_eq_some

end Database

end MidenClient
