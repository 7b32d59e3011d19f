/-
This file models how the SQLite store writes account storage
(`sqlite-store/src/account/storage.rs`).

A changed slot is archived with its old value and its new type, so the slot table
takes a recorded step as long as no slot changes its type. Map entries are archived
and replaced one by one; an entry set to the empty word is deleted.
-/

import MidenClient.Sqlite.Vault

namespace MidenClient

open Std (ExtTreeMap)

/-! ### Deltas -/

namespace AccountDelta

/-- The slots with a map delta. -/
def maps (delta : AccountDelta) : List (StorageSlotName × ExtTreeMap StorageMapKey Word) :=
  delta.storage.toList.filterMap fun slot => match slot.2 with
    | .map entries => some (slot.1, entries)
    | .value _ => none

/-- The slots with a new value. -/
def values (delta : AccountDelta) : List (StorageSlotName × Word) :=
  delta.storage.toList.filterMap fun slot => match slot.2 with
    | .map _ => none
    | .value word => some (slot.1, word)

theorem mem_maps_entry_iff (delta : AccountDelta) (slotName : StorageSlotName)
    (entries : ExtTreeMap StorageMapKey Word compare) :
    (slotName, entries) ∈ delta.maps ↔ delta.storage[slotName]? = some (.map entries) := by
  rw [maps, List.mem_filterMap]
  constructor
  · rintro ⟨entry, listed, isMap⟩
    have found := ExtTreeMap.mem_toList_iff_getElem?_eq_some.mp listed
    split at isMap
    · rename_i others change
      cases isMap
      rw [found, change]
    · cases isMap
  · intro found
    exact ⟨(slotName, .map entries), ExtTreeMap.mem_toList_iff_getElem?_eq_some.mpr found, rfl⟩

theorem mem_maps_iff (delta : AccountDelta) (slotName : StorageSlotName) :
    slotName ∈ delta.maps.map Prod.fst ↔
      ∃ entries, delta.storage[slotName]? = some (.map entries) := by
  rw [List.mem_map]
  constructor
  · rintro ⟨slot, member, rfl⟩
    exact ⟨slot.2, (delta.mem_maps_entry_iff slot.1 slot.2).mp member⟩
  · rintro ⟨entries, found⟩
    exact ⟨(slotName, entries), (delta.mem_maps_entry_iff slotName entries).mpr found, rfl⟩

theorem mem_values_iff (delta : AccountDelta) (slotName : StorageSlotName) (word : Word) :
    (slotName, word) ∈ delta.values ↔ delta.storage[slotName]? = some (.value word) := by
  rw [values, List.mem_filterMap]
  constructor
  · rintro ⟨entry, listed, isValue⟩
    have found := ExtTreeMap.mem_toList_iff_getElem?_eq_some.mp listed
    split at isValue
    · cases isValue
    · rename_i value change
      cases isValue
      rw [found, change]
  · intro found
    exact ⟨(slotName, .value word), ExtTreeMap.mem_toList_iff_getElem?_eq_some.mpr found, rfl⟩

theorem maps_nodup (delta : AccountDelta) : (delta.maps.map Prod.fst).Nodup := by
  have ordered := OrderedMap.pairwise_lt_toList delta.storage
  rw [maps, List.Nodup, List.pairwise_map, List.pairwise_filterMap]
  refine ordered.imp ?_
  intro first second below one mapOne two mapTwo same
  split at mapOne
  · split at mapTwo
    · cases mapOne
      cases mapTwo
      exact absurd below (same ▸ lt_irrefl _)
    · cases mapTwo
  · cases mapOne

theorem values_nodup (delta : AccountDelta) : (delta.values.map Prod.fst).Nodup := by
  have ordered := OrderedMap.pairwise_lt_toList delta.storage
  rw [values, List.Nodup, List.pairwise_map, List.pairwise_filterMap]
  refine ordered.imp ?_
  intro first second below one valueOne two valueTwo same
  split at valueOne
  · cases valueOne
  · split at valueTwo
    · cases valueTwo
    · cases valueOne
      cases valueTwo
      exact absurd below (same ▸ lt_irrefl _)

end AccountDelta

def StorageSlotDelta.slotType : StorageSlotDelta → StorageSlotType
  | .value _ => .value
  | .map _ => .map

/-! ### Slot and entry tables -/

namespace Database

/-- The current roots of the storage maps that a delta updates. -/
def getStorageMapRootsForDelta (db : Database) (accountId : AccountId) (delta : AccountDelta) :
    ExtTreeMap StorageSlotName Word :=
  ExtTreeMap.ofList (delta.maps.filterMap fun slot =>
    (db.accountStorage.current accountId slot.1).map fun stored => (slot.1, stored.1))

/-- Archives the old value of a slot under its new type, then updates the slot. -/
def writeSlot (accountId : AccountId) (nonce : ℕ)
    (table : HistoryTable AccountId StorageSlotName (Word × StorageSlotType)
      (Option Word × StorageSlotType)) (slot : StorageSlotName × Word × StorageSlotType) :
    HistoryTable AccountId StorageSlotName (Word × StorageSlotType)
      (Option Word × StorageSlotType) :=
  (table.archive accountId nonce slot.1
    ((table.current accountId slot.1).map Prod.fst, slot.2.2)).put accountId slot.1 slot.2

/-- Archives the old value of a map entry, then deletes or replaces the entry. -/
def writeMapEntry (accountId : AccountId) (nonce : ℕ)
    (table : HistoryTable AccountId (StorageSlotName ×ₗ StorageMapKey) Word (Option Word))
    (entry : (StorageSlotName ×ₗ StorageMapKey) × Word) :
    HistoryTable AccountId (StorageSlotName ×ₗ StorageMapKey) Word (Option Word) :=
  let archived := table.archive accountId nonce entry.1 (table.current accountId entry.1)
  if entry.2 = emptyWord then archived.drop accountId entry.1
  else archived.put accountId entry.1 entry.2

/-- The changed entries of one slot, with the keys of the entry table. -/
def changedEntries (delta : AccountDelta) (slotName : StorageSlotName) :
    List ((StorageSlotName ×ₗ StorageMapKey) × Word) :=
  match delta.storage[slotName]? with
  | some (.map entries) => entries.toList.map fun entry => (toLex (slotName, entry.1), entry.2)
  | _ => []

/-- Writes only the changed storage slots and map entries, archiving old values first. -/
def writeStorageDelta (db : Database) (accountId : AccountId) (nonce : ℕ)
    (updatedSlots : ExtTreeMap StorageSlotName (Word × StorageSlotType)) (delta : AccountDelta) :
    Database :=
  updatedSlots.toList.foldl (fun db slot =>
    { db with
      accountStorage := writeSlot accountId nonce db.accountStorage slot
      storageMapEntries := (changedEntries delta slot.1).foldl (writeMapEntry accountId nonce)
        db.storageMapEntries }) db

/-- Inserts storage slots into the latest tables only. -/
def insertStorageSlots [ProtocolLibrary] (db : Database) (accountId : AccountId)
    (slots : List (StorageSlotName × StorageSlotContent)) : Database :=
  slots.foldl (fun db slot =>
    { db with
      accountStorage :=
        db.accountStorage.put accountId slot.1 (slot.2.topValue, slot.2.slotType)
      storageMapEntries := match slot.2 with
        | .value _ => db.storageMapEntries
        | .map entries => entries.toList.foldl (fun table entry =>
            table.put accountId (toLex (slot.1, entry.1)) entry.2) db.storageMapEntries }) db

/-- The slots a delta updates, given the new roots of its maps. -/
def updatedSlots (newRoots : StorageSlotName → Word) (delta : AccountDelta) :
    ExtTreeMap StorageSlotName (Word × StorageSlotType) :=
  delta.storage.map fun slotName change => match change with
    | .value word => (word, .value)
    | .map _ => (newRoots slotName, .map)

/-- No stored slot changes its type. -/
def RespectsSlotTypes (db : Database) (accountId : AccountId) (delta : AccountDelta) : Prop :=
  ∀ (slotName : StorageSlotName) (stored : Word × StorageSlotType) (change : StorageSlotDelta),
    db.accountStorage.current accountId slotName = some stored →
    delta.storage[slotName]? = some change → change.slotType = stored.2

/-! ### Recorded steps -/

variable {accountId : AccountId} {nonce : ℕ} {delta : AccountDelta}

theorem writeStorageDelta_accountStorage (db : Database) (accountId : AccountId) (nonce : ℕ)
    (slots : ExtTreeMap StorageSlotName (Word × StorageSlotType)) (delta : AccountDelta) :
    (db.writeStorageDelta accountId nonce slots delta).accountStorage =
      slots.toList.foldl (writeSlot accountId nonce) db.accountStorage := by
  unfold writeStorageDelta
  induction slots.toList generalizing db with
  | nil => rfl
  | cons slot rest inductionHypothesis => exact inductionHypothesis _

theorem writeStorageDelta_storageMapEntries (db : Database) (accountId : AccountId) (nonce : ℕ)
    (slots : ExtTreeMap StorageSlotName (Word × StorageSlotType)) (delta : AccountDelta) :
    (db.writeStorageDelta accountId nonce slots delta).storageMapEntries =
      (slots.toList.flatMap fun slot => changedEntries delta slot.1).foldl
        (writeMapEntry accountId nonce) db.storageMapEntries := by
  unfold writeStorageDelta
  induction slots.toList generalizing db with
  | nil => rfl
  | cons slot rest inductionHypothesis =>
    rw [List.foldl_cons, inductionHypothesis, List.flatMap_cons, List.foldl_append]

/-- Only the slot and entry tables change. -/
theorem writeStorageDelta_frame (db : Database) (accountId : AccountId) (nonce : ℕ)
    (slots : ExtTreeMap StorageSlotName (Word × StorageSlotType)) (delta : AccountDelta) :
    db.writeStorageDelta accountId nonce slots delta =
      { db with
        accountStorage := (db.writeStorageDelta accountId nonce slots delta).accountStorage
        storageMapEntries :=
          (db.writeStorageDelta accountId nonce slots delta).storageMapEntries } := by
  unfold writeStorageDelta
  induction slots.toList generalizing db with
  | nil => rfl
  | cons slot rest inductionHypothesis =>
    rw [List.foldl_cons]
    exact inductionHypothesis _

/-- The slot table takes a recorded step when no stored slot changes its type. -/
theorem writeStorageDelta_recorded_slots (db : Database) (newRoots : StorageSlotName → Word)
    (typed : db.RespectsSlotTypes accountId delta)
    (fresh : ∀ slotName, db.accountStorage.archived accountId nonce slotName = none) :
    HistoryTable.Recorded oldSlot accountId nonce db.accountStorage
      (db.writeStorageDelta accountId nonce (updatedSlots newRoots delta)
        delta).accountStorage := by
  rw [writeStorageDelta_accountStorage]
  refine ((HistoryTable.Recorded.refl oldSlot fresh).foldl Prod.fst (writeSlot accountId nonce)
    _ ?_ (fun slot _ => fresh slot.1) ?_ ?_).1
  · rw [ExtTreeMap.map_fst_toList_eq_keys]
    exact ExtTreeMap.nodup_keys
  · intro slot member table recorded untouched
    have written := ExtTreeMap.mem_toList_iff_getElem?_eq_some.mp member
    rw [updatedSlots, ExtTreeMap.getElem?_map] at written
    obtain ⟨change, changed, same⟩ := Option.map_eq_some_iff.mp written
    have slotType : slot.2.2 = change.slotType := by
      rw [← same]
      cases change <;> rfl
    refine (recorded.archive untouched ?_).put slot.2 ?_
    · rw [recorded.unchanged slot.1 untouched]
      cases stored : db.accountStorage.current accountId slot.1 with
      | none => rfl
      | some old =>
        rw [slotType, typed slot.1 old change stored changed]
        rfl
    · rw [ne_eq, HistoryTable.Recorded.archived_archive_eq_none_iff]
      exact fun unarchived => unarchived.1 rfl
  · intro table slot asked
    exact HistoryTable.Recorded.archived_archive_eq_none_iff table slot.1 asked _

theorem changedEntries_slotName {slotName : StorageSlotName}
    {entry : (StorageSlotName ×ₗ StorageMapKey) × Word}
    (member : entry ∈ changedEntries delta slotName) : (ofLex entry.1).1 = slotName := by
  unfold changedEntries at member
  split at member
  · obtain ⟨_, _, rfl⟩ := List.mem_map.mp member
    rfl
  · cases member

theorem changedEntries_nodup (delta : AccountDelta) (slotName : StorageSlotName) :
    ((changedEntries delta slotName).map Prod.fst).Nodup := by
  unfold changedEntries
  split
  · rename_i entries found
    have keys : entries.keys.Nodup := ExtTreeMap.nodup_keys
    rw [← ExtTreeMap.map_fst_toList_eq_keys] at keys
    rw [List.map_map]
    have mapped := keys.map (f := fun key => toLex (slotName, key))
      fun first second same => (Prod.mk.inj (toLex_inj.mp same)).2
    rwa [List.map_map] at mapped
  · exact List.nodup_nil

/-- The changed entries of all slots have distinct keys. -/
theorem flatMap_changedEntries_nodup (delta : AccountDelta)
    (slots : ExtTreeMap StorageSlotName (Word × StorageSlotType)) :
    ((slots.toList.flatMap fun slot => changedEntries delta slot.1).map Prod.fst).Nodup := by
  rw [List.map_flatMap, List.nodup_flatMap]
  refine ⟨fun slot _ => changedEntries_nodup delta slot.1, ?_⟩
  refine (OrderedMap.pairwise_lt_toList slots).imp ?_
  intro first second below key memberFirst memberSecond
  obtain ⟨entryFirst, changedFirst, rfl⟩ := List.mem_map.mp memberFirst
  obtain ⟨entrySecond, changedSecond, same⟩ := List.mem_map.mp memberSecond
  rw [← changedEntries_slotName changedFirst, ← changedEntries_slotName changedSecond,
    same] at below
  exact lt_irrefl _ below

/-- The entry table takes a recorded step. -/
theorem writeStorageDelta_recorded_entries (db : Database)
    (slots : ExtTreeMap StorageSlotName (Word × StorageSlotType)) (delta : AccountDelta)
    (fresh : ∀ key, db.storageMapEntries.archived accountId nonce key = none) :
    HistoryTable.Recorded id accountId nonce db.storageMapEntries
      (db.writeStorageDelta accountId nonce slots delta).storageMapEntries := by
  rw [writeStorageDelta_storageMapEntries]
  refine ((HistoryTable.Recorded.refl id fresh).foldl Prod.fst (writeMapEntry accountId nonce)
    _ ?_ (fun entry _ => fresh entry.1) ?_ ?_).1
  · exact flatMap_changedEntries_nodup delta slots
  · intro entry _ table recorded untouched
    have archived : HistoryTable.Recorded id accountId nonce db.storageMapEntries
        (table.archive accountId nonce entry.1 (table.current accountId entry.1)) :=
      recorded.archive untouched rfl
    have marked : (table.archive accountId nonce entry.1
        (table.current accountId entry.1)).archived accountId nonce entry.1 ≠ none := by
      rw [ne_eq, HistoryTable.Recorded.archived_archive_eq_none_iff]
      exact fun unarchived => unarchived.1 rfl
    unfold writeMapEntry
    split
    · exact archived.drop marked
    · exact archived.put entry.2 marked
  · intro table entry asked
    rw [← HistoryTable.Recorded.archived_archive_eq_none_iff table entry.1 asked
      (table.current accountId entry.1)]
    unfold writeMapEntry
    split
    · rfl
    · rfl

end Database

end MidenClient
