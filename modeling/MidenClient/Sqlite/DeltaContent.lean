/-
This file says what is read from the SQLite store after a transaction was applied to an
account (`apply_account_delta`), and after an account was replaced by a state from the
network (`update_account_state`).

A delta is applied by targeted reads and writes: balances are computed from the stored
assets of its faucets, a zero balance or an empty word deletes a row, and the roots of the
maps come from the forest while their entries come from the delta. The tables hold the
account with the delta applied all the same, because each of the four tables is written
once under every key that the delta changes.
-/

import MidenClient.Idxdb.VaultCheck
import MidenClient.Store.AccountReads

namespace MidenClient

open Std (ExtTreeMap)
open HistoryTable (Writes)

section Library

variable [ProtocolLibrary]

/-! ### Accounts under a delta -/

/-- The second storage is the first one with the delta applied. A value slot takes a new value; a
map takes new values under some keys, and the empty word removes the entry of a key. -/
structure AccountDelta.AppliesToStorage (delta : AccountDelta)
    (before after : ExtTreeMap StorageSlotName StorageSlotContent) : Prop where
  value : ∀ (slotName : StorageSlotName) (word : Word),
    delta.storage[slotName]? = some (.value word) →
      (∃ old, before[slotName]? = some (.value old)) ∧ after[slotName]? = some (.value word)
  map : ∀ (slotName : StorageSlotName) (changes : ExtTreeMap StorageMapKey Word),
    delta.storage[slotName]? = some (.map changes) →
      ∃ old new, before[slotName]? = some (.map old) ∧ after[slotName]? = some (.map new) ∧
        ∀ key : StorageMapKey, new[key]? = match changes[key]? with
          | some word => if word = emptyWord then none else some word
          | none => old[key]?
  unchanged : ∀ slotName : StorageSlotName, delta.storage[slotName]? = none →
    after[slotName]? = before[slotName]?

/-- The transaction leads from the first account to the second one: its delta is valid for the
first account and yields the second one, which has the final header. -/
structure ExecutedTransaction.LeadsTo (transaction : ExecutedTransaction)
    (before after : Account) : Prop where
  initialHeader : transaction.initialAccount = before.toHeader
  finalHeader : transaction.finalAccount = after.toHeader
  code : after.codeCommitment = before.codeCommitment
  vault : transaction.accountDelta.AppliesToVault before.vault after.vault
  storage : transaction.accountDelta.AppliesToStorage before.storage after.storage

/-- The entry of a map of the storage. -/
def mapEntry (storage : ExtTreeMap StorageSlotName StorageSlotContent) (slotName : StorageSlotName)
    (key : StorageMapKey) : Option Word :=
  match storage[slotName]? with
  | some (.map entries) => entries[key]?
  | _ => none

/-! ### Assets -/

/-- The fungible asset of a vault is given by its amount. -/
theorem ValidVault.getElem?_fungible {vault : ExtTreeMap AssetVaultKey Asset}
    (valid : ValidVault vault) (faucetId : AccountId) :
    vault[AssetVaultKey.fungible faucetId]? =
      if 0 < fungibleAmount vault faucetId then
        some (Asset.fungible ⟨faucetId, fungibleAmount vault faucetId⟩)
      else none := by
  cases found : MidenClient.fungibleAsset vault faucetId with
  | some asset =>
    obtain ⟨same, positive, -⟩ := valid.fungibleAsset found
    rw [if_pos positive, ← same]
    exact IdxdbDatabase.fungibleAsset_eq_some_iff.mp found
  | none =>
    have nothing : fungibleAmount vault faucetId = 0 := by
      rw [fungibleAmount, found]
      rfl
    rw [nothing, if_neg (lt_irrefl 0)]
    cases listed : vault[AssetVaultKey.fungible faucetId]? with
    | none => rfl
    | some stored =>
      cases stored with
      | fungible asset =>
        rw [IdxdbDatabase.fungibleAsset_eq_some_iff.mpr listed] at found
        cases found
      | nonFungible asset => cases valid.keyed _ _ listed

omit [ProtocolLibrary] in
theorem AccountDelta.fungible_mem_vaultKeys_iff (delta : AccountDelta) (faucetId : AccountId) :
    .fungible faucetId ∈ delta.vaultKeys ↔
      AssetVaultKey.fungible faucetId ∈
        delta.fungible.toList.map fun change => AssetVaultKey.fungible change.1 := by
  unfold vaultKeys
  rw [List.mem_append, or_iff_left]
  intro listed
  obtain ⟨_, -, same⟩ := List.mem_map.mp listed
  cases same

omit [ProtocolLibrary] in
theorem AccountDelta.nonFungible_mem_vaultKeys_iff (delta : AccountDelta) (asset : Word) :
    .nonFungible asset ∈ delta.vaultKeys ↔ ∃ action, delta.nonFungible[asset]? = some action := by
  unfold vaultKeys
  rw [List.mem_append]
  constructor
  · rintro (listed | listed)
    · obtain ⟨_, -, same⟩ := List.mem_map.mp listed
      cases same
    · obtain ⟨entry, member, same⟩ := List.mem_map.mp listed
      cases same
      exact ⟨entry.2, ExtTreeMap.mem_toList_iff_getElem?_eq_some.mp member⟩
  · rintro ⟨action, found⟩
    refine Or.inr (List.mem_map.mpr ⟨(asset, action), ?_, rfl⟩)
    exact ExtTreeMap.mem_toList_iff_getElem?_eq_some.mpr found

namespace VaultChanges

/-- The changes set and remove, of some keys, what a vault has and does not have. -/
structure LeadTo (changes : VaultChanges) (keys : List AssetVaultKey)
    (after : ExtTreeMap AssetVaultKey Asset) : Prop where
  updated : ∀ key : AssetVaultKey,
    changes.updatedAssets[key]? = if key ∈ keys then after[key]? else none
  removed : ∀ key : AssetVaultKey,
    key ∈ changes.removedVaultKeys ↔ key ∈ keys ∧ after[key]? = none

variable {delta : AccountDelta} {before after : ExtTreeMap AssetVaultKey Asset}

/-- One fungible change does with the asset of its faucet what the delta leads to. -/
theorem applyFungible_leadTo (applies : delta.AppliesToVault before after)
    {assets : ExtTreeMap AssetVaultKey FungibleAsset} {change : AccountId × ℤ}
    (changed : delta.fungible[change.1]? = some change.2)
    (stored : assets[AssetVaultKey.fungible change.1]? = fungibleAsset before change.1)
    {changes : VaultChanges} {keys : List AssetVaultKey} (leads : changes.LeadTo keys after) :
    ∃ next, applyFungible assets changes change = .ok next ∧
      next.LeadTo (keys ++ [.fungible change.1]) after := by
  obtain ⟨deltaAsset, created, changedTo⟩ :=
    Fallible.bind_eq_ok.mp (IdxdbDatabase.changedAsset_eq applies changed)
  have here := applies.validAfter.getElem?_fungible change.1
  unfold applyFungible
  rw [stored, created]
  show ∃ next, (changedAsset _ deltaAsset change.2 >>= _) = .ok next ∧ _
  rw [changedTo]
  have listed : ∀ key : AssetVaultKey, key ∈ keys ++ [.fungible change.1] ↔
      key ∈ keys ∨ key = .fungible change.1 := by
    intro key
    rw [List.mem_append, List.mem_singleton]
  by_cases positive : 0 < fungibleAmount after change.1
  · rw [if_pos positive] at here
    refine ⟨_, if_pos positive, ?_, ?_⟩
    · intro key
      show (ExtTreeMap.insert _ (AssetVaultKey.fungible change.1) _)[key]? = _
      rw [ExtTreeMap.getElem?_insert, leads.updated]
      by_cases same : AssetVaultKey.fungible change.1 = key
      · rw [if_pos (Std.compare_eq_iff_eq.mpr same),
          if_pos ((listed key).mpr (Or.inr same.symm)), ← same, here]
      · rw [if_neg (by rwa [Std.compare_eq_iff_eq])]
        simp only [listed, Ne.symm same, or_false]
    · intro key
      rw [leads.removed, listed]
      refine and_congr_left fun missing => ⟨Or.inl, fun either => either.resolve_right ?_⟩
      rintro rfl
      rw [here] at missing
      cases missing
  · rw [if_neg positive] at here
    refine ⟨_, if_neg positive, ?_, ?_⟩
    · intro key
      rw [leads.updated]
      by_cases same : key = AssetVaultKey.fungible change.1
      · rw [if_pos ((listed key).mpr (Or.inr same)), same, here]
        split
        · rfl
        · rfl
      · simp only [listed, same, or_false]
    · intro key
      show key ∈ changes.removedVaultKeys ++ [AssetVaultKey.fungible change.1] ↔ _
      rw [List.mem_append, List.mem_singleton, leads.removed, listed, or_and_right]
      refine or_congr_right ⟨fun same => ⟨same, ?_⟩, And.left⟩
      rw [same, here]

/-- All fungible changes do with the assets of their faucets what the delta leads to. -/
theorem foldlM_applyFungible_leadTo (applies : delta.AppliesToVault before after)
    {assets : ExtTreeMap AssetVaultKey FungibleAsset} (fungible : List (AccountId × ℤ))
    (listed : ∀ change ∈ fungible, delta.fungible[change.1]? = some change.2)
    (stored : ∀ change ∈ fungible,
      assets[AssetVaultKey.fungible change.1]? = fungibleAsset before change.1)
    {changes : VaultChanges} {keys : List AssetVaultKey} (leads : changes.LeadTo keys after) :
    ∃ result, fungible.foldlM (applyFungible assets) changes = .ok result ∧
      result.LeadTo (keys ++ fungible.map fun change => .fungible change.1) after := by
  induction fungible generalizing changes keys with
  | nil =>
    refine ⟨changes, rfl, ?_⟩
    rwa [List.map_nil, List.append_nil]
  | cons change rest inductionHypothesis =>
    obtain ⟨next, applied, nextLeads⟩ := applyFungible_leadTo applies
      (listed change List.mem_cons_self) (stored change List.mem_cons_self) leads
    obtain ⟨result, folded, resultLeads⟩ := inductionHypothesis
      (fun other member => listed other (List.mem_cons_of_mem _ member))
      (fun other member => stored other (List.mem_cons_of_mem _ member)) nextLeads
    refine ⟨result, ?_, ?_⟩
    · rw [List.foldlM_cons, applied]
      exact folded
    · rw [List.append_assoc, List.singleton_append] at resultLeads
      exact resultLeads

/-- The changes of a delta do with all its keys what it leads to. -/
theorem ofDelta_leadTo (applies : delta.AppliesToVault before after)
    {assets : ExtTreeMap AssetVaultKey FungibleAsset}
    (stored : ∀ faucetId change, delta.fungible[faucetId]? = some change →
      assets[AssetVaultKey.fungible faucetId]? = fungibleAsset before faucetId) :
    ∃ changes, ofDelta assets delta = .ok changes ∧ changes.LeadTo delta.vaultKeys after := by
  have listed : ∀ change ∈ delta.fungible.toList, delta.fungible[change.1]? = some change.2 :=
    fun change member => ExtTreeMap.mem_toList_iff_getElem?_eq_some.mp member
  have nothing : LeadTo ⟨∅, []⟩ [] after := by
    refine ⟨fun key => ?_, fun key => ?_⟩
    · rw [if_neg List.not_mem_nil]
      exact ExtTreeMap.getElem?_empty
    · simp only [List.not_mem_nil, false_and]
  obtain ⟨fungible, folded, leads⟩ := foldlM_applyFungible_leadTo applies delta.fungible.toList
    listed (fun change member => stored change.1 change.2 (listed change member)) nothing
  rw [List.nil_append] at leads
  have notFungible : ∀ asset : Word, AssetVaultKey.nonFungible asset ∉
      delta.fungible.toList.map fun change => AssetVaultKey.fungible change.1 := by
    intro asset member
    obtain ⟨_, -, same⟩ := List.mem_map.mp member
    cases same
  have added : ∀ asset : Word, (∃ entry ∈ delta.nonFungible.toList.filter fun entry =>
      entry.2 = .add, AssetVaultKey.nonFungible entry.1 = .nonFungible asset) ↔
        delta.nonFungible[asset]? = some .add := by
    intro asset
    constructor
    · rintro ⟨entry, member, same⟩
      obtain ⟨entryListed, isAdd⟩ := List.mem_filter.mp member
      cases same
      rw [← of_decide_eq_true isAdd]
      exact ExtTreeMap.mem_toList_iff_getElem?_eq_some.mp entryListed
    · intro found
      refine ⟨(asset, .add), List.mem_filter.mpr ⟨?_, decide_eq_true rfl⟩, rfl⟩
      exact ExtTreeMap.mem_toList_iff_getElem?_eq_some.mpr found
  have removed : ∀ asset : Word, AssetVaultKey.nonFungible asset ∈
      ((delta.nonFungible.toList.filter fun entry => entry.2 ≠ .add).map fun entry =>
        AssetVaultKey.nonFungible entry.1) ↔ delta.nonFungible[asset]? = some .remove := by
    intro asset
    rw [List.mem_map]
    constructor
    · rintro ⟨⟨other, action⟩, member, same⟩
      obtain ⟨entryListed, isRemove⟩ := List.mem_filter.mp member
      cases same
      cases action with
      | add => exact absurd rfl (of_decide_eq_true isRemove)
      | remove => exact ExtTreeMap.mem_toList_iff_getElem?_eq_some.mp entryListed
    · intro found
      have removes : NonFungibleDeltaAction.remove ≠ .add := fun same => by cases same
      refine ⟨(asset, .remove), List.mem_filter.mpr ⟨?_, decide_eq_true removes⟩, rfl⟩
      exact ExtTreeMap.mem_toList_iff_getElem?_eq_some.mpr found
  refine ⟨_, Fallible.bind_eq_ok.mpr ⟨fungible, folded, rfl⟩, fun key => ?_, fun key => ?_⟩
  · dsimp only
    rw [getElem?_foldl_added]
    cases key with
    | fungible faucetId =>
      rw [if_neg (fun ⟨_, _, same⟩ => (by cases same)), leads.updated]
      simp only [delta.fungible_mem_vaultKeys_iff]
    | nonFungible asset =>
      have isAdded := added asset
      have isKey := delta.nonFungible_mem_vaultKeys_iff asset
      rw [leads.updated, if_neg (notFungible asset)]
      cases found : delta.nonFungible[asset]? with
      | none =>
        rw [found] at isAdded isKey
        rw [if_neg (fun member => (by cases isAdded.mp member)), if_neg]
        intro member
        obtain ⟨_, same⟩ := isKey.mp member
        cases same
      | some action =>
        have result := applies.nonFungible asset action found
        rw [found] at isAdded isKey
        rw [if_pos (isKey.mpr ⟨action, rfl⟩), result]
        cases action with
        | add => rw [if_pos (isAdded.mpr rfl)]
        | remove => rw [if_neg (fun member => (by cases isAdded.mp member))]
  · dsimp only
    rw [List.mem_append, leads.removed]
    cases key with
    | fungible faucetId =>
      rw [← delta.fungible_mem_vaultKeys_iff, or_iff_left]
      intro member
      obtain ⟨_, -, same⟩ := List.mem_map.mp member
      cases same
    | nonFungible asset =>
      have isKey := delta.nonFungible_mem_vaultKeys_iff asset
      rw [removed, or_iff_right fun member => notFungible asset member.1]
      constructor
      · intro found
        exact ⟨isKey.mpr ⟨_, found⟩, applies.nonFungible asset _ found⟩
      · rintro ⟨member, missing⟩
        obtain ⟨action, found⟩ := isKey.mp member
        have result := applies.nonFungible asset action found
        cases action with
        | add =>
          rw [missing] at result
          cases result
        | remove => exact found

variable {changes : VaultChanges} {keys : List AssetVaultKey}

omit [ProtocolLibrary] in
theorem LeadTo.of_mem_assets (leads : changes.LeadTo keys after) {asset : Asset}
    (valid : changes.Valid)
    (listed : asset ∈ changes.assets) :
    asset.vaultKey ∈ keys ∧ after[asset.vaultKey]? = some asset := by
  obtain ⟨entry, member, rfl⟩ := List.mem_map.mp listed
  have found := ExtTreeMap.mem_toList_iff_getElem?_eq_some.mp member
  have updated := leads.updated entry.1
  rw [found] at updated
  rw [valid.keyed _ _ found]
  split at updated
  · rename_i touched
    exact ⟨touched, updated.symm⟩
  · cases updated

/-- The tree of the vault is updated at the leaves of the keys, with what the vault has. -/
theorem LeadTo.assetEntries_perm (leads : changes.LeadTo keys after) (valid : changes.Valid)
    (distinct : keys.Nodup) :
    (assetEntries changes.assets changes.removedVaultKeys).Perm (keys.map (leafEntry after)) := by
  have touched : (changes.assets.map Asset.vaultKey ++ changes.removedVaultKeys).Perm keys := by
    refine (List.perm_ext_iff_of_nodup ?_ distinct).mpr fun key => ?_
    · refine List.nodup_append.mpr ⟨?_, valid.nodup, ?_⟩
      · rw [valid.map_vaultKey_assets]
        exact changes.updatedAssets.nodup_keys
      · rintro key listed _ removed rfl
        obtain ⟨asset, member, rfl⟩ := List.mem_map.mp listed
        have held := (leads.of_mem_assets valid member).2
        rw [((leads.removed _).mp removed).2] at held
        cases held
    · rw [List.mem_append, leads.removed]
      constructor
      · rintro (listed | both)
        · obtain ⟨asset, member, rfl⟩ := List.mem_map.mp listed
          exact (leads.of_mem_assets valid member).1
        · exact both.1
      · intro member
        cases held : after[key]? with
        | none => exact Or.inr ⟨member, rfl⟩
        | some asset =>
          have updated := leads.updated key
          rw [if_pos member, held] at updated
          rw [valid.map_vaultKey_assets, ExtTreeMap.mem_keys,
            ← ExtTreeMap.isSome_getElem?_iff_mem, updated]
          exact Or.inl rfl
  refine List.Perm.trans (List.Perm.of_eq ?_) (touched.map (leafEntry after))
  unfold assetEntries
  rw [List.map_append, List.map_map]
  refine congrArg₂ (· ++ ·) (List.map_congr_left fun asset listed => ?_)
    (List.map_congr_left fun key removed => ?_)
  · have held := (leads.of_mem_assets valid listed).2
    rw [Function.comp_apply, leafEntry, vaultLeaf, held]
  · have missing := ((leads.removed key).mp removed).2
    rw [leafEntry, vaultLeaf, missing]

end VaultChanges

/-! ### Maps -/

/-- Setting the changed entries in the tree of a map gives the tree of the changed map. -/
theorem SmtLaw.updatedMapRoot {leaves : Word → Word → Word} (law : SmtLaw leaves)
    (hashes : Function.Injective ProtocolLibrary.mapKeyHash)
    {old new changes : ExtTreeMap StorageMapKey Word}
    (changed : ∀ key : StorageMapKey, new[key]? = match changes[key]? with
      | some word => if word = emptyWord then none else some word
      | none => old[key]?) :
    updatedMapRoot (storageMapRoot old) changes = storageMapRoot new := by
  let entries := changes.toList.map fun entry => (ProtocolLibrary.mapKeyHash entry.1, entry.2)
  have root : MidenClient.updatedMapRoot (storageMapRoot old) changes =
      MidenClient.updatedRoot (storageMapRoot old) entries := by
    unfold MidenClient.updatedMapRoot MidenClient.updatedRoot
    rw [List.isEmpty_map]
  have tree : SmtTree (storageMapRoot old) := .batchInsert _ .empty
  have keys : entries.map Prod.fst = changes.keys.map ProtocolLibrary.mapKeyHash := by
    rw [List.map_map, ← ExtTreeMap.map_fst_toList_eq_keys, List.map_map]
    rfl
  have distinct : (entries.map Prod.fst).Nodup := by
    rw [keys]
    exact ExtTreeMap.nodup_keys.map hashes
  rw [root]
  refine law.collisionFree _ _ (tree.updatedRoot entries) (.batchInsert _ .empty) ?_
  rw [law.updatedRoot tree]
  funext word
  by_cases hashed : ∃ key, ProtocolLibrary.mapKeyHash key = word
  · obtain ⟨key, rfl⟩ := hashed
    have leaf := changed key
    rw [(law.leaves_storageMapRoot hashes new).1 key]
    cases found : changes[key]? with
    | some value =>
      rw [found] at leaf
      rw [setLeaves_of_entry distinct (List.mem_map.mpr ⟨(key, value),
        ExtTreeMap.mem_toList_iff_getElem?_eq_some.mpr found, rfl⟩), leaf]
      dsimp only
      split
      · assumption
      · rfl
    | none =>
      rw [found] at leaf
      rw [setLeaves_of_notMem, (law.leaves_storageMapRoot hashes old).1 key, leaf]
      rw [keys, List.mem_map_of_injective hashes, ExtTreeMap.mem_keys,
        ← ExtTreeMap.isSome_getElem?_iff_mem, found]
      exact Bool.false_ne_true
  · have unhashed := not_exists.mp hashed
    rw [setLeaves_of_notMem, (law.leaves_storageMapRoot hashes old).2 word unhashed,
      (law.leaves_storageMapRoot hashes new).2 word unhashed]
    rw [keys, List.mem_map]
    rintro ⟨key, -, same⟩
    exact unhashed key same

/-! ### What the tables hold -/

namespace Database

variable {db next : Database} {accountId : AccountId} {nonce : ℕ} {delta : AccountDelta}

omit [ProtocolLibrary] in
theorem current_foldl_archiveAsset (keys : List AssetVaultKey) (key : AssetVaultKey)
    (table : HistoryTable AccountId AssetVaultKey Asset (Option Asset)) :
    (keys.foldl (archiveAsset accountId nonce) table).current accountId key =
      table.current accountId key := by
  refine List.foldlRecOn (motive := fun result : HistoryTable _ _ _ _ =>
    result.current accountId key = table.current accountId key) keys _ rfl ?_
  intro result same archived _
  rw [archiveAsset, HistoryTable.current_archive, same]

omit [ProtocolLibrary] in
/-- The asset table holds the vault that the changes lead to. -/
theorem current_persistVaultDelta {changes : VaultChanges} (valid : changes.Valid)
    {keys : List AssetVaultKey} {before after : ExtTreeMap AssetVaultKey Asset}
    (leads : changes.LeadTo keys after) (unchanged : ∀ key ∉ keys, after[key]? = before[key]?)
    (stored : ∀ key : AssetVaultKey, db.accountAssets.current accountId key = before[key]?)
    (key : AssetVaultKey) :
    (db.persistVaultDelta accountId nonce changes.removedVaultKeys
      changes.assets).accountAssets.current accountId key = after[key]? := by
  have writes : Writes accountId Asset.vaultKey (fun asset => some asset)
      fun table asset =>
        (archiveAsset accountId nonce table asset.vaultKey).put accountId asset.vaultKey asset := by
    intro table asset asked
    rw [HistoryTable.current_put, archiveAsset, HistoryTable.current_archive]
    simp only [true_and]
  have distinct : (changes.assets.map Asset.vaultKey).Nodup := by
    rw [valid.map_vaultKey_assets]
    exact changes.updatedAssets.nodup_keys
  have updated := leads.updated key
  unfold persistVaultDelta
  dsimp only
  by_cases listed : key ∈ changes.assets.map Asset.vaultKey
  · obtain ⟨asset, member, rfl⟩ := List.mem_map.mp listed
    rw [writes.current_foldl_of_mem distinct member]
    obtain ⟨entry, entryListed, rfl⟩ := List.mem_map.mp member
    have found := ExtTreeMap.mem_toList_iff_getElem?_eq_some.mp entryListed
    rw [valid.keyed _ _ found, found] at updated
    split at updated
    · rw [valid.keyed _ _ found]
      exact updated
    · cases updated
  · rw [writes.current_foldl_of_notMem listed, current_foldl_drop, current_foldl_archiveAsset,
      stored]
    rw [valid.map_vaultKey_assets, ExtTreeMap.mem_keys] at listed
    rw [ExtTreeMap.getElem?_eq_none listed] at updated
    by_cases removed : key ∈ changes.removedVaultKeys
    · rw [if_pos ⟨rfl, removed⟩]
      exact ((leads.removed key).mp removed).2.symm
    · rw [if_neg fun both => removed both.2]
      refine (unchanged key fun changed => removed ?_).symm
      rw [if_pos changed] at updated
      exact (leads.removed key).mpr ⟨changed, updated.symm⟩

/-- The slot table holds the storage with the delta applied, when the maps get their roots. -/
theorem current_writeSlots {before after : ExtTreeMap StorageSlotName StorageSlotContent}
    (applies : delta.AppliesToStorage before after) {newRoots : StorageSlotName → Word}
    (roots : ∀ (slotName : StorageSlotName) (changes entries : ExtTreeMap StorageMapKey Word),
      delta.storage[slotName]? = some (.map changes) →
        after[slotName]? = some (StorageSlotContent.map entries) →
          newRoots slotName = storageMapRoot entries)
    (stored : ∀ slotName : StorageSlotName, db.accountStorage.current accountId slotName =
      (before[slotName]?).map fun content : StorageSlotContent =>
        (content.topValue, content.slotType))
    (slotName : StorageSlotName) :
    ((updatedSlots newRoots delta).toList.foldl (writeSlot accountId nonce)
      db.accountStorage).current accountId slotName =
        (after[slotName]?).map fun content : StorageSlotContent =>
          (content.topValue, content.slotType) := by
  have writes : Writes accountId Prod.fst (fun slot => some slot.2)
      (writeSlot accountId nonce) := by
    intro table slot asked
    unfold writeSlot
    rw [HistoryTable.current_put, HistoryTable.current_archive]
    simp only [true_and]
  have distinct : ((updatedSlots newRoots delta).toList.map Prod.fst).Nodup := by
    rw [ExtTreeMap.map_fst_toList_eq_keys]
    exact ExtTreeMap.nodup_keys
  have updated : ∀ value, (updatedSlots newRoots delta)[slotName]? = some value →
      ((updatedSlots newRoots delta).toList.foldl (writeSlot accountId nonce)
        db.accountStorage).current accountId slotName = some value := by
    intro value found
    exact writes.current_foldl_of_mem distinct
      (ExtTreeMap.mem_toList_iff_getElem?_eq_some.mpr found : (slotName, value) ∈ _) _
  have slot : (updatedSlots newRoots delta)[slotName]? = _ := ExtTreeMap.getElem?_map
  cases change : delta.storage[slotName]? with
  | none =>
    rw [writes.current_foldl_of_notMem, stored, applies.unchanged slotName change]
    rw [ExtTreeMap.map_fst_toList_eq_keys, ExtTreeMap.mem_keys]
    intro present
    have there := ExtTreeMap.isSome_getElem?_iff_mem.mpr present
    rw [slot, change] at there
    cases there
  | some slotDelta =>
    rw [change] at slot
    rw [updated _ slot]
    cases slotDelta with
    | value word =>
      rw [(applies.value slotName word change).2]
      rfl
    | map changes =>
      obtain ⟨old, new, -, held, -⟩ := applies.map slotName changes change
      rw [held]
      dsimp only
      rw [roots slotName changes new change held]
      rfl

omit [ProtocolLibrary] in
theorem mem_flatMap_changedEntries_iff (delta : AccountDelta) (newRoots : StorageSlotName → Word)
    (slotName : StorageSlotName) (key : StorageMapKey) (word : Word) :
    (toLex (slotName, key), word) ∈
        ((updatedSlots newRoots delta).toList.flatMap fun slot => changedEntries delta slot.1) ↔
      ∃ changes, delta.storage[slotName]? = some (.map changes) ∧ changes[key]? = some word := by
  rw [List.mem_flatMap]
  constructor
  · rintro ⟨slot, -, listed⟩
    obtain rfl : slotName = slot.1 := changedEntries_slotName listed
    unfold changedEntries at listed
    split at listed
    · rename_i changes found
      obtain ⟨entry, member, same⟩ := List.mem_map.mp listed
      obtain ⟨keys, rfl⟩ := Prod.mk.inj same
      obtain ⟨-, rfl⟩ := Prod.mk.inj (toLex_inj.mp keys)
      exact ⟨changes, found, ExtTreeMap.mem_toList_iff_getElem?_eq_some.mp member⟩
    · cases listed
  · rintro ⟨changes, found, changed⟩
    refine ⟨(slotName, newRoots slotName, .map), ?_, ?_⟩
    · rw [ExtTreeMap.mem_toList_iff_getElem?_eq_some, updatedSlots, ExtTreeMap.getElem?_map, found]
      rfl
    · unfold changedEntries
      rw [found]
      refine List.mem_map.mpr ⟨(key, word), ?_, rfl⟩
      exact ExtTreeMap.mem_toList_iff_getElem?_eq_some.mpr changed

omit [ProtocolLibrary] in
/-- The entry table holds the maps with the delta applied. -/
theorem current_writeEntries {before after : ExtTreeMap StorageSlotName StorageSlotContent}
    (applies : delta.AppliesToStorage before after) (newRoots : StorageSlotName → Word)
    (stored : ∀ (slotName : StorageSlotName) (key : StorageMapKey),
      db.storageMapEntries.current accountId (toLex (slotName, key)) =
        mapEntry before slotName key)
    (slotName : StorageSlotName) (key : StorageMapKey) :
    (((updatedSlots newRoots delta).toList.flatMap fun slot => changedEntries delta slot.1).foldl
      (writeMapEntry accountId nonce) db.storageMapEntries).current accountId
        (toLex (slotName, key)) = mapEntry after slotName key := by
  have writes : Writes accountId Prod.fst
      (fun entry => if entry.2 = emptyWord then none else some entry.2)
      (writeMapEntry accountId nonce) := by
    intro table entry asked
    unfold writeMapEntry
    dsimp only
    by_cases empty : entry.2 = emptyWord
    · rw [if_pos empty, if_pos empty, HistoryTable.current_drop, HistoryTable.current_archive]
      simp only [true_and]
    · rw [if_neg empty, if_neg empty, HistoryTable.current_put, HistoryTable.current_archive]
      simp only [true_and]
  have distinct := flatMap_changedEntries_nodup delta (updatedSlots newRoots delta)
  have untouched : (∀ word, ¬∃ changes, delta.storage[slotName]? = some (.map changes) ∧
      changes[key]? = some word) →
        (((updatedSlots newRoots delta).toList.flatMap fun slot =>
          changedEntries delta slot.1).foldl (writeMapEntry accountId nonce)
            db.storageMapEntries).current accountId (toLex (slotName, key)) =
              mapEntry before slotName key := by
    intro absent
    rw [writes.current_foldl_of_notMem, stored]
    intro listed
    obtain ⟨⟨_, word⟩, member, rfl⟩ := List.mem_map.mp listed
    exact absent word ((mem_flatMap_changedEntries_iff delta newRoots slotName key word).mp member)
  cases change : delta.storage[slotName]? with
  | none =>
    rw [untouched]
    · unfold mapEntry
      rw [applies.unchanged slotName change]
    · rintro word ⟨changes, found, -⟩
      rw [change] at found
      cases found
  | some slotDelta =>
    cases slotDelta with
    | value word =>
      obtain ⟨⟨old, held⟩, now⟩ := applies.value slotName word change
      rw [untouched]
      · unfold mapEntry
        rw [held, now]
      · rintro other ⟨changes, found, -⟩
        rw [change] at found
        cases found
    | map changes =>
      obtain ⟨old, new, held, now, entries⟩ := applies.map slotName changes change
      have entry := entries key
      unfold mapEntry at untouched ⊢
      rw [held] at untouched
      rw [now]
      dsimp only at untouched ⊢
      cases changed : changes[key]? with
      | none =>
        rw [changed] at entry
        rw [entry, untouched]
        rintro word ⟨others, found, same⟩
        rw [change] at found
        cases found
        rw [changed] at same
        cases same
      | some word =>
        rw [changed] at entry
        rw [entry]
        exact writes.current_foldl_of_mem distinct
          ((mem_flatMap_changedEntries_iff delta newRoots slotName key word).mpr
            ⟨changes, change, changed⟩) db.storageMapEntries

/-! ### Applying a transaction -/

omit [ProtocolLibrary] in
/-- The fungible assets that are read for a delta are those of the stored vault. -/
theorem getAccountFungibleAssetsForDelta_getElem? {vault : ExtTreeMap AssetVaultKey Asset}
    (keyed : ∀ (key : AssetVaultKey) (asset : Asset), vault[key]? = some asset →
      asset.vaultKey = key)
    (stored : ∀ key : AssetVaultKey, db.accountAssets.current accountId key = vault[key]?)
    {faucetId : AccountId} {change : ℤ} (changed : delta.fungible[faucetId]? = some change) :
    (db.getAccountFungibleAssetsForDelta accountId delta)[AssetVaultKey.fungible faucetId]? =
      fungibleAsset vault faucetId := by
  unfold getAccountFungibleAssetsForDelta
  rw [List.filterMap_congr (g := fun change => (fungibleAsset vault change.1).map fun asset =>
    (AssetVaultKey.fungible change.1, asset)) fun change _ => ?_]
  · have names : (delta.fungible.toList.map Prod.fst).Nodup := by
      rw [ExtTreeMap.map_fst_toList_eq_keys]
      exact ExtTreeMap.nodup_keys
    refine Option.ext fun asset => ?_
    rw [OrderedMap.getElem?_ofList_eq_some_iff, List.mem_filterMap]
    · constructor
      · rintro ⟨other, -, same⟩
        obtain ⟨held, found, same⟩ := Option.map_eq_some_iff.mp same
        cases same
        exact found
      · intro found
        refine ⟨(faucetId, change), ExtTreeMap.mem_toList_iff_getElem?_eq_some.mpr changed, ?_⟩
        rw [found]
        rfl
    · rw [List.Nodup, List.pairwise_map] at names ⊢
      rw [List.pairwise_filterMap]
      refine names.imp ?_
      intro first second different one foundOne two foundTwo same
      obtain ⟨_, _, rfl⟩ := Option.map_eq_some_iff.mp foundOne
      obtain ⟨_, _, rfl⟩ := Option.map_eq_some_iff.mp foundTwo
      exact different (AssetVaultKey.fungible.inj same)
  · rw [stored]
    unfold fungibleAsset
    cases held : vault[AssetVaultKey.fungible change.1]? with
    | none => rfl
    | some asset =>
      cases asset with
      | fungible asset =>
        have key : asset.vaultKey = .fungible change.1 := keyed _ _ held
        dsimp only
        rw [key]
        rfl
      | nonFungible asset => rfl

variable {forest last : AccountSmtForest} {transaction : ExecutedTransaction}
  {before after : Account} {leaves : Word → Word → Word}

/-- The roots that the maps of the final account have are the ones that are written. -/
theorem newMapRoots_eq (law : SmtLaw leaves)
    (hashes : Function.Injective ProtocolLibrary.mapKeyHash)
    (holds : db.HoldsState before) (applies : delta.AppliesToStorage before.storage after.storage)
    {slotName : StorageSlotName} {changes entries : ExtTreeMap StorageMapKey Word}
    (change : delta.storage[slotName]? = some (.map changes))
    (now : after.storage[slotName]? = some (.map entries)) :
    newMapRoots (db.getStorageMapRootsForDelta before.id delta) delta slotName =
      storageMapRoot entries := by
  obtain ⟨old, new, held, same, changed⟩ := applies.map slotName changes change
  cases now.symm.trans same
  have isMap : slotName ∈ delta.maps.map Prod.fst :=
    (AccountDelta.mem_maps_iff delta slotName).mpr ⟨changes, change⟩
  have stored : db.accountStorage.current before.id slotName =
      some (storageMapRoot old, .map) := by
    rw [holds.slots, held]
    rfl
  unfold newMapRoots
  rw [change]
  dsimp only
  rw [db.getStorageMapRootsForDelta_getElem? before.id isMap stored]
  exact law.updatedMapRoot hashes changed

/-- After a successful transaction the tables hold the account that it leads to. -/
theorem applyTransaction_holdsState (law : SmtLaw leaves)
    (hashes : Function.Injective ProtocolLibrary.mapKeyHash) (holds : db.HoldsState before)
    (leads : transaction.LeadsTo before after)
    (applied : db.applyTransaction transaction forest = .ok next last) :
    next.HoldsState after := by
  have finalId : transaction.finalAccount.id = after.id := by
    rw [leads.finalHeader]
    rfl
  have sameId : after.id = before.id := by
    rw [← finalId, transaction.sameAccount, leads.initialHeader]
    rfl
  obtain ⟨-, -, tables, -, -, -⟩ := applyAccountDelta_eq_ok applied
  obtain ⟨headed, inserted, afterHeader⟩ := Fallible.bind_eq_ok.mp tables
  obtain ⟨changes, computed, written⟩ := Fallible.bind_eq_ok.mp afterHeader
  obtain ⟨-, -, -, rfl⟩ := (db.insertAccountHeader_some_eq_ok_iff headed _ _ none).mp inserted
  cases written
  rw [finalId, sameId] at computed ⊢
  obtain ⟨_, computedToo, leadTo⟩ := VaultChanges.ofDelta_leadTo leads.vault
    fun faucetId change changed => getAccountFungibleAssetsForDelta_getElem?
      leads.vault.validBefore.keyed holds.assets changed
  cases computed.symm.trans computedToo
  rw [writeStorageDelta_frame]
  constructor
  · show Option.map _ (ExtTreeMap.insert _ transaction.finalAccount.id _)[after.id]? = _
    rw [finalId, ExtTreeMap.getElem?_insert_self, leads.finalHeader]
    rfl
  · intro slotName
    dsimp only
    rw [writeStorageDelta_accountStorage, sameId]
    refine current_writeSlots leads.storage ?_ holds.slots slotName
    intro slotName changes entries change now
    exact newMapRoots_eq law hashes holds leads.storage change now
  · intro slotName key
    dsimp only
    rw [writeStorageDelta_storageMapEntries, sameId]
    exact current_writeEntries leads.storage _ holds.entries slotName key
  · intro key
    dsimp only
    rw [sameId]
    exact current_persistVaultDelta (VaultChanges.ofDelta_valid computed) leadTo
      leads.vault.unchanged holds.assets key

/-- The forest has the trees of the account, and a root list for it. -/
structure Registered (forest : AccountSmtForest) (account : Account) : Prop where
  roots : forest.getRoots account.id ≠ none
  trees : ∀ root ∈ AccountSmtForest.collectAccountRoots account, IdxdbDatabase.Known forest root

/-- The seed that is stored with the latest header of an account. -/
def storedSeed (db : Database) (accountId : AccountId) : Option Word :=
  db.latestAccountHeaders[accountId]?.bind HeaderRow.accountSeed

/-- The vault part of a valid delta is applied, and the vault root check passes. -/
theorem applyAccountVaultDelta_succeeds (db : Database) (law : SmtLaw leaves)
    (vaultHashes : Function.Injective ProtocolLibrary.vaultKeyWord)
    {assets : ExtTreeMap AssetVaultKey FungibleAsset}
    (applies : delta.AppliesToVault before.vault after.vault)
    (stored : ∀ faucetId change, delta.fungible[faucetId]? = some change →
      assets[AssetVaultKey.fungible faucetId]? = fungibleAsset before.vault faucetId)
    (known : IdxdbDatabase.Known forest before.vaultRoot) :
    ∃ next last, db.applyAccountVaultDelta before.toHeader after.toHeader assets delta forest =
      .ok next last ∧ IdxdbDatabase.Grows forest last := by
  obtain ⟨changes, computed, leadTo⟩ := VaultChanges.ofDelta_leadTo applies stored
  have entries := leadTo.assetEntries_perm (VaultChanges.ofDelta_valid computed)
    delta.vaultKeys_nodup
  -- the tree of the old vault with the changed leaves is the tree of the new one
  have vaultRoot : updatedRoot before.vaultRoot
      (assetEntries changes.assets changes.removedVaultKeys) = after.toHeader.vaultRoot := by
    refine law.collisionFree _ _ ((smtTree_vaultRoot before).updatedRoot _)
      (smtTree_vaultRoot after) ?_
    rw [law.updatedRoot (smtTree_vaultRoot before)]
    exact (applies.leaves_vaultRoot law vaultHashes entries).symm
  obtain ⟨grown, updated, grows⟩ := IdxdbDatabase.updateAssetNodes_of_known known changes.assets
    changes.removedVaultKeys
  unfold applyAccountVaultDelta
  rw [Fallible.bind_of_result_ok (ForestM.liftExcept_eq_ok.mpr ⟨computed, rfl⟩),
    Fallible.bind_of_result_ok (ForestM.update_eq_ok.mpr (show forest.updateAssetNodes
      before.toHeader.vaultRoot changes.assets changes.removedVaultKeys = _ from updated)),
    vaultRoot, if_pos rfl]
  exact ⟨_, grown, rfl, grows⟩

/-- A transaction on a stored account succeeds unless the account is new and has lost its seed. -/
theorem applyTransaction_succeeds_iff (law : SmtLaw leaves)
    (vaultHashes : Function.Injective ProtocolLibrary.vaultKeyWord)
    (holds : db.HoldsState before) (code : before.codeCommitment ∈ db.accountCode)
    (registered : Registered forest before) (leads : transaction.LeadsTo before after) :
    (∃ next last, db.applyTransaction transaction forest = .ok next last) ↔
      ¬(before.nonce = 0 ∧ db.storedSeed before.id = none) := by
  have sameId : after.id = before.id := by
    have same := transaction.sameAccount
    rw [leads.finalHeader, leads.initialHeader] at same
    exact same
  constructor
  · rintro ⟨next, last, applied⟩ new
    obtain ⟨-, -, tables, -⟩ := applyAccountDelta_eq_ok applied
    obtain ⟨headed, inserted, -⟩ := Fallible.bind_eq_ok.mp tables
    have check := ((db.insertAccountHeader_some_eq_ok_iff headed _ _ none).mp inserted).1
    rw [leads.initialHeader] at check
    exact check new
  · intro check
    have inserted := (db.insertAccountHeader_some_eq_ok_iff _ after.toHeader before.toHeader
      none).mpr ⟨check, code, (leads.code ▸ code : after.codeCommitment ∈ db.accountCode), rfl⟩
    obtain ⟨vaulted, grown, applied, grows⟩ := applyAccountVaultDelta_succeeds _ law vaultHashes
      leads.vault (fun faucetId change changed => getAccountFungibleAssetsForDelta_getElem?
        leads.vault.validBefore.keyed holds.assets changed)
      (registered.trees _ List.mem_cons_self)
    obtain ⟨roots, found⟩ := Option.ne_none_iff_exists'.mp registered.roots
    have read : ForestM.registeredRoots before.toHeader.id grown = .ok roots grown := by
      have same : grown.getRoots before.toHeader.id = some roots := by
        rw [← found]
        exact congrArg (·[before.id]?) grows.registration.accountRoots
      rw [ForestM.registeredRoots, ForestM.update, same]
    obtain ⟨slots, final, stored, -⟩ := IdxdbDatabase.applyAccountStorageDelta_of_known
      transaction.accountDelta grown fun slot member => by
        obtain ⟨old, -, held, -⟩ := leads.storage.map slot.1 slot.2
          ((AccountDelta.mem_maps_entry_iff _ _ _).mp member)
        have current : db.accountStorage.current before.id slot.1 =
            some (storageMapRoot old, .map) := by
          rw [holds.slots, held]
          rfl
        rw [db.getStorageMapRootsForDelta_getElem? before.id (List.mem_map_of_mem member) current]
        refine grows.trees _ (registered.trees _ (List.mem_cons_of_mem _ ?_))
        exact List.mem_filterMap.mpr ⟨(slot.1, .map old),
          ExtTreeMap.mem_toList_iff_getElem?_eq_some.mpr held, rfl⟩
    unfold applyTransaction applyAccountDelta
    dsimp only
    rw [leads.finalHeader, leads.initialHeader,
      Fallible.bind_of_result_ok (ForestM.liftExcept_eq_ok.mpr ⟨inserted, rfl⟩)]
    rw [show after.toHeader.id = before.id from sameId, Fallible.bind_of_result_ok applied,
      Fallible.bind_of_result_ok read, Fallible.bind_of_result_ok stored]
    exact ⟨_, _, rfl⟩

/-! ### Reading accounts back -/

/-- What is read for a stored slot: its value, or the entries of its map. -/
def slotContent (db : Database) (accountId : AccountId) (slotName : StorageSlotName) :
    Word × StorageSlotType → StorageSlotContent
  | (word, .value) => .value word
  | (_, .map) => .map (db.getMapEntries accountId slotName)

omit [ProtocolLibrary] in
theorem getAccountStorage_eq_ofList (db : Database) (accountId : AccountId) :
    db.getAccountStorage accountId = ExtTreeMap.ofList
      ((db.accountStorage.ownedBy accountId).map fun entry =>
        ((ofLex entry.1).2, db.slotContent accountId (ofLex entry.1).2 entry.2)) := by
  unfold getAccountStorage
  congr 1
  refine List.map_congr_left fun entry _ => ?_
  obtain ⟨key, word, slotType⟩ := entry
  cases slotType with
  | value => rfl
  | map => rfl

theorem HoldsState.slotContent_eq (holds : db.HoldsState account) {slotName : StorageSlotName}
    {content : StorageSlotContent} (stored : account.storage[slotName]? = some content) :
    db.slotContent account.id slotName (content.topValue, content.slotType) = content := by
  cases content with
  | value word => rfl
  | map entries => exact congrArg StorageSlotContent.map (holds.getMapEntries_eq stored)

/-- The slots that are read are the slots of the account. -/
theorem HoldsState.getAccountStorage_eq (holds : db.HoldsState account) :
    db.getAccountStorage account.id = account.storage := by
  have distinct : (((db.accountStorage.ownedBy account.id).map fun entry =>
      ((ofLex entry.1).2, db.slotContent account.id (ofLex entry.1).2 entry.2)).map
        Prod.fst).Nodup := by
    rw [List.map_map]
    exact HistoryTable.ownedBy_keys_nodup db.accountStorage account.id
  refine ExtTreeMap.ext_getElem? fun slotName => Option.ext fun content => ?_
  rw [getAccountStorage_eq_ofList, OrderedMap.getElem?_ofList_eq_some_iff _ distinct, List.mem_map]
  constructor
  · rintro ⟨entry, owned, same⟩
    obtain ⟨rfl, rfl⟩ := Prod.mk.inj same
    have current := ((HistoryTable.mem_ownedBy_iff _ _ entry).mp owned).2
    obtain ⟨read, stored, row⟩ :=
      Option.map_eq_some_iff.mp ((holds.slots _).symm.trans current)
    rw [stored, ← row, holds.slotContent_eq stored]
  · intro stored
    have current : db.accountStorage.current account.id slotName =
        some (content.topValue, content.slotType) := by
      rw [holds.slots, stored]
      rfl
    have owned := (HistoryTable.mem_ownedBy_iff db.accountStorage account.id
      (toLex (account.id, slotName), (content.topValue, content.slotType))).mpr ⟨rfl, current⟩
    exact ⟨_, owned, Prod.ext rfl (holds.slotContent_eq stored)⟩

/-- The assets, slots and map entries that are read are those of the account, and the stored root
of every map is the root of its stored entries. -/
structure ReadsBack (db : Database) (account : Account) : Prop where
  assets : db.getAccountVault account.id = account.vault
  storage : db.getAccountStorage account.id = account.storage
  roots : ∀ (slotName : StorageSlotName) (root : Word),
    db.accountStorage.current account.id slotName = some (root, .map) →
      root = storageMapRoot (db.getMapEntries account.id slotName)

theorem HoldsState.readsBack (holds : db.HoldsState account) (keyed : account.VaultKeyed) :
    db.ReadsBack account where
  assets := holds.getAccountVault_eq keyed
  storage := holds.getAccountStorage_eq
  roots := by
    intro slotName root current
    rw [holds.slots] at current
    obtain ⟨content, stored, top⟩ := Option.map_eq_some_iff.mp current
    cases content with
    | value word => cases top
    | map entries =>
      cases top
      rw [holds.getMapEntries_eq stored]
      rfl

/-- `get_account`. An account whose code is not stored is not found. -/
def getAccount (db : Database) (accountId : AccountId) : Option Account :=
  match db.latestAccountHeaders[accountId]? with
  | none => none
  | some row =>
    if row.header.codeCommitment ∈ db.accountCode then some (db.storedAccount row) else none

/-- A header is inserted with a stored code only. -/
theorem insertAccountHeader_code {header : AccountHeader} {seed : Option Word}
    {oldHeader : Option AccountHeader}
    (inserted : db.insertAccountHeader header seed oldHeader = .ok next) :
    header.codeCommitment ∈ db.accountCode := by
  cases oldHeader with
  | none => exact ((db.insertAccountHeader_none_eq_ok_iff next header seed).mp inserted).1
  | some old =>
    exact ((db.insertAccountHeader_some_eq_ok_iff next header old seed).mp inserted).2.2.1

/-- An account that was replaced by a state from the network is read back without a seed. -/
theorem getAccount_updateAccountState (keyed : account.VaultKeyed)
    (updated : db.updateAccountState account forest = .ok next last) :
    next.getAccount account.id = some { account with seed := none } := by
  have holds := updateAccountState_holdsState keyed updated
  obtain ⟨-, inserted⟩ := updateAccountState_eq_ok updated
  have frame := insertAccountHeader_frame inserted
  have latest : next.latestAccountHeaders[account.id]? =
      some ⟨account.toHeader, none, false⟩ := by
    rw [frame]
    exact ExtTreeMap.getElem?_insert_self
  have code : account.codeCommitment ∈ next.accountCode := by
    rw [frame]
    exact insertAccountHeader_code inserted
  unfold getAccount storedAccount
  rw [latest]
  dsimp only
  rw [if_pos (show account.toHeader.codeCommitment ∈ next.accountCode from code)]
  rw [show account.toHeader.id = account.id from rfl, holds.getAccountVault_eq keyed,
    holds.getAccountStorage_eq]
  rfl

/-- The tables have no row of the content of an account. -/
structure NoContent (db : Database) (accountId : AccountId) : Prop where
  slots : ∀ slotName, db.accountStorage.current accountId slotName = none
  entries : ∀ key, db.storageMapEntries.current accountId key = none
  assets : ∀ key, db.accountAssets.current accountId key = none

/-- What inserting the content of an account does to the tables. -/
theorem insertContent_eq (db : Database) (account : Account) :
    (db.insertStorageSlots account.id account.storage.toList).insertAssets account.id
        (account.vault.toList.map Prod.snd) =
      { db with
        accountStorage := account.storageSlots.foldl
          (fun table slot => table.put account.id slot.1 slot.2) db.accountStorage
        storageMapEntries := account.mapEntries.foldl
          (fun table entry => table.put account.id entry.1 entry.2) db.storageMapEntries
        accountAssets := account.vaultAssets.foldl
          (fun table asset => table.put account.id asset.1 asset.2) db.accountAssets } := by
  rw [← insertStorageSlots_accountStorage, ← insertStorageSlots_storageMapEntries,
    ← insertAssets_accountAssets]
  unfold insertAssets
  dsimp only
  rw [insertStorageSlots_frame]

/-- An account that is inserted under an unused id is held by the tables. -/
theorem insertAccountTables_holdsState (keyed : account.VaultKeyed)
    (unused : db.NoContent account.id) (inserted : db.insertAccountTables account = .ok next) :
    next.HoldsState account := by
  unfold insertAccountTables at inserted
  dsimp only at inserted
  rw [insertContent_eq] at inserted
  rw [insertAccountHeader_frame inserted]
  constructor
  · show Option.map _ (ExtTreeMap.insert _ account.toHeader.id _)[account.id]? = _
    rw [show account.toHeader.id = account.id from rfl, ExtTreeMap.getElem?_insert_self]
    rfl
  · intro slotName
    refine Option.ext fun value => ?_
    refine (HistoryTable.current_foldl_put account.id account.storageSlots_keys_nodup
      unused.slots slotName value).trans ?_
    exact account.mem_storageSlots_iff slotName value
  · intro slotName key
    refine Option.ext fun value => ?_
    refine (HistoryTable.current_foldl_put account.id account.mapEntries_keys_nodup
      unused.entries _ value).trans ?_
    exact account.mem_mapEntries_iff slotName key value
  · intro key
    refine Option.ext fun asset => ?_
    refine (HistoryTable.current_foldl_put account.id (Account.vaultAssets_keys_nodup keyed)
      unused.assets key asset).trans ?_
    rw [Account.vaultAssets_eq keyed]
    exact ExtTreeMap.mem_toList_iff_getElem?_eq_some

theorem insertAccountTables_code (inserted : db.insertAccountTables account = .ok next) :
    account.codeCommitment ∈ next.accountCode := by
  unfold insertAccountTables at inserted
  dsimp only at inserted
  rw [insertAccountHeader_frame inserted]
  exact insertAccountHeader_code inserted

end Database

/-- A delta leaves exactly the account that it yields, and it is applied unless a new account has
lost its seed. A state from the network is read back as it is exactly when it has no seed. -/
theorem Database.readsBack_and_update_exact_iff {leaves : Word → Word → Word} (law : SmtLaw leaves)
    (mapHashes : Function.Injective ProtocolLibrary.mapKeyHash)
    (vaultHashes : Function.Injective ProtocolLibrary.vaultKeyWord) (db : Database)
    (forest : AccountSmtForest) :
    (∀ (transaction : ExecutedTransaction) (before after : Account), db.HoldsState before →
      transaction.LeadsTo before after → db.ReadsBack before ∧
        (∀ next last, db.applyTransaction transaction forest = .ok next last →
          next.HoldsState after ∧ next.ReadsBack after) ∧
        (before.codeCommitment ∈ db.accountCode → Registered forest before →
          ((∃ next last, db.applyTransaction transaction forest = .ok next last) ↔
            ¬(before.nonce = 0 ∧ db.storedSeed before.id = none)))) ∧
      ∀ (account : Account) (next : Database) (last : AccountSmtForest), account.VaultKeyed →
        db.updateAccountState account forest = .ok next last →
          (next.getAccount account.id = some account ↔ account.seed = none) := by
  constructor
  · intro transaction before after holds leads
    refine ⟨holds.readsBack leads.vault.validBefore.keyed, ?_, ?_⟩
    · intro next last applied
      have kept := applyTransaction_holdsState law mapHashes holds leads applied
      exact ⟨kept, kept.readsBack leads.vault.validAfter.keyed⟩
    · exact fun code registered => applyTransaction_succeeds_iff law vaultHashes holds code
        registered leads
  · intro account next last keyed updated
    rw [getAccount_updateAccountState keyed updated, Option.some.injEq]
    constructor
    · intro same
      exact (congrArg Account.seed same).symm
    · intro unseeded
      rw [← unseeded]

end Library

/-! ### A payment, and a new account that is added twice -/

namespace Trees

open Database

theorem noContent_empty (accountId : AccountId) : Database.empty.NoContent accountId :=
  ⟨fun _ => rfl, fun _ => rfl, fun _ => rfl⟩

/-- The delta of the transaction yields the storage with the new entry. -/
theorem appliesToStorage_setEntry (before after : ExtTreeMap AssetVaultKey Asset)
    (fungible : ExtTreeMap AccountId ℤ) :
    (Sample.mapDelta fungible).AppliesToStorage (mapAccount before).storage
      (mapAccountAfter after).storage := by
  have change : ∀ slotName : StorageSlotName, (Sample.mapDelta fungible).storage[slotName]? =
      if 3 = slotName then some (.map ((∅ : ExtTreeMap StorageMapKey Word).insert 5 6))
      else none := by
    intro slotName
    show ((∅ : ExtTreeMap StorageSlotName StorageSlotDelta).insert 3 _)[slotName]? = _
    rw [ExtTreeMap.getElem?_insert]
    simp only [Std.compare_eq_iff_eq, ExtTreeMap.getElem?_empty]
  constructor
  case value =>
    intro slotName word changed
    rw [change] at changed
    split at changed
    · cases changed
    · cases changed
  case map =>
    intro slotName changes changed
    rw [change] at changed
    split at changed
    · rename_i here
      cases here
      cases changed
      refine ⟨∅, (∅ : ExtTreeMap StorageMapKey Word).insert 5 6,
        ExtTreeMap.getElem?_insert_self, ExtTreeMap.getElem?_insert_self, fun key => ?_⟩
      rw [ExtTreeMap.getElem?_insert]
      by_cases same : compare 5 key = .eq
      · rw [if_pos same]
        rfl
      · rw [if_neg same]
        rfl
    · cases changed
  case unchanged =>
    intro slotName unchanged
    rw [change] at unchanged
    split at unchanged
    · cases unchanged
    · rename_i elsewhere
      show ((∅ : ExtTreeMap StorageSlotName StorageSlotContent).insert 3 _)[slotName]? =
        ((∅ : ExtTreeMap StorageSlotName StorageSlotContent).insert 3 _)[slotName]?
      rw [ExtTreeMap.getElem?_insert, ExtTreeMap.getElem?_insert,
        if_neg (by rwa [Std.compare_eq_iff_eq]), if_neg (by rwa [Std.compare_eq_iff_eq])]

/-- A transaction that pays two units of an asset and sets an entry of a map is read back. -/
theorem readsBack_spend :
    ∃ db next : Database, ∃ forest last : AccountSmtForest,
      db.HoldsState (mapAccount (vaultWith 5)) ∧
      db.applyTransaction (setEntry (vaultWith 5) (vaultWith 3)
        ((∅ : ExtTreeMap AccountId ℤ).insert 9 (-2))) forest = .ok next last ∧
      next.ReadsBack (mapAccountAfter (vaultWith 3)) := by
  obtain ⟨forest, registered⟩ : ∃ forest,
      AccountSmtForest.new.insertAndRegisterAccountState (mapAccount (vaultWith 5)) = .ok forest :=
    ⟨_, rfl⟩
  obtain ⟨db, inserted⟩ : ∃ db, Database.empty.insertAccountTables (mapAccount (vaultWith 5)) =
      .ok db := ⟨_, rfl⟩
  have valid : ValidVault (vaultWith 5) := validVault_vaultWith (by decide) (by decide)
  have keyed : (mapAccount (vaultWith 5)).VaultKeyed := valid.keyed
  have holds := insertAccountTables_holdsState keyed (noContent_empty _) inserted
  have stores := IdxdbDatabase.insertAccount_storesAccount smtLaw IdxdbDatabase.empty valid rfl
    registered
  have known : forest.getRoots (mapAccount (vaultWith 5)).id ≠ none := by
    obtain ⟨rest, found, -⟩ := stores.roots
    rw [found]
    exact Option.some_ne_none _
  have code := insertAccountTables_code inserted
  have leads : (setEntry (vaultWith 5) (vaultWith 3)
      ((∅ : ExtTreeMap AccountId ℤ).insert 9 (-2))).LeadsTo (mapAccount (vaultWith 5))
      (mapAccountAfter (vaultWith 3)) :=
    ⟨rfl, rfl, rfl, appliesToVault_spend, appliesToStorage_setEntry _ _ _⟩
  obtain ⟨-, kept, succeeds⟩ := (readsBack_and_update_exact_iff smtLaw (fun _ _ same => same)
    vaultKeyWord_injective db forest).1 _ _ _ holds leads
  obtain ⟨next, last, applied⟩ := (succeeds code ⟨known, stores.trees⟩).mpr fun new => by
    cases new.1
  exact ⟨db, next, forest, last, holds, applied, (kept next last applied).2⟩

end Trees

namespace Sample

/-- A new account. -/
def seededAccount : Account :=
  { mapAccount with nonce := 0, seed := some 5 }

/-- A new account that is added twice is read back without its seed. -/
theorem not_getAccount_updateAccount :
    ∃ db next : Database, ∃ forest last : AccountSmtForest,
      Database.empty.insertAccount seededAccount AccountSmtForest.new = .ok db forest ∧
      db.updateAccountState seededAccount forest = .ok next last ∧
      next.getAccount seededAccount.id ≠ some seededAccount := by
  obtain ⟨db, forest, inserted⟩ : ∃ db forest,
      Database.empty.insertAccount seededAccount AccountSmtForest.new = .ok db forest :=
    ⟨_, _, rfl⟩
  obtain ⟨next, last, updated⟩ : ∃ next last,
      db.updateAccountState seededAccount forest = .ok next last := by
    cases inserted
    exact ⟨_, _, rfl⟩
  have keyed : seededAccount.VaultKeyed := by
    intro key asset stored
    cases stored
  refine ⟨db, next, forest, last, inserted, updated, ?_⟩
  rw [Database.getAccount_updateAccountState keyed updated]
  intro same
  cases congrArg Account.seed (Option.some.inj same)

end Sample

end MidenClient
