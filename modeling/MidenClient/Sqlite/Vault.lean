/-
This file models how the SQLite store applies the vault part of an account delta
(`sqlite-store/src/account/vault.rs`).

The new assets are computed from the stored ones, and every asset that changes is
archived under the new nonce before it is replaced. A delta names every vault key
once, so the asset table takes a recorded step.
-/

import MidenClient.Library.Fallible
import MidenClient.Sqlite.Database

namespace MidenClient

open Std (ExtTreeMap)

/-! ### Assets -/

section Library

variable [ProtocolLibrary]

/-- `FungibleAsset::new`: fails when the amount is too big. -/
def FungibleAsset.new (faucetId : AccountId) (amount : ℕ) : Except StoreError FungibleAsset :=
  if amount > ProtocolLibrary.maxFungibleAmount then .error (.fungibleAssetAmountTooBig amount)
  else .ok ⟨faucetId, amount⟩

/-- `FungibleAsset::add`. -/
def FungibleAsset.add (asset other : FungibleAsset) : Except StoreError FungibleAsset :=
  if asset.faucetId ≠ other.faucetId then
    .error (.fungibleAssetInconsistentFaucetIds asset.faucetId other.faucetId)
  else FungibleAsset.new asset.faucetId (asset.amount + other.amount)

/-- `FungibleAsset::sub`. -/
def FungibleAsset.sub (asset other : FungibleAsset) : Except StoreError FungibleAsset :=
  if asset.faucetId ≠ other.faucetId then
    .error (.fungibleAssetInconsistentFaucetIds asset.faucetId other.faucetId)
  else if asset.amount < other.amount then
    .error (.fungibleAssetAmountNotSufficient asset.amount other.amount)
  else .ok ⟨asset.faucetId, asset.amount - other.amount⟩

/-- The assets a vault delta sets and the vault keys it removes. -/
structure VaultChanges where
  updatedAssets : ExtTreeMap AssetVaultKey Asset
  removedVaultKeys : List AssetVaultKey

namespace VaultChanges

/-- The asset after a change: a stored asset is updated, an absent one is inserted. -/
def changedAsset (stored : Option FungibleAsset) (deltaAsset : FungibleAsset) (change : ℤ) :
    Except StoreError FungibleAsset :=
  match stored with
  | some asset => if change ≥ 0 then asset.add deltaAsset else asset.sub deltaAsset
  | none => .ok deltaAsset

/-- Adds or subtracts one fungible asset as requested. -/
def applyFungible (updatedFungibleAssets : ExtTreeMap AssetVaultKey FungibleAsset)
    (changes : VaultChanges) (change : AccountId × ℤ) : Except StoreError VaultChanges := do
  let deltaAsset ← FungibleAsset.new change.1 change.2.natAbs
  let asset ← changedAsset updatedFungibleAssets[AssetVaultKey.fungible change.1]? deltaAsset
    change.2
  if asset.amount > 0 then
    return { changes with
      updatedAssets := changes.updatedAssets.insert asset.vaultKey (.fungible asset) }
  else
    return { changes with removedVaultKeys := changes.removedVaultKeys ++ [asset.vaultKey] }

/-- All changes of a vault delta: first the fungible assets, then the non-fungible ones. -/
def ofDelta (updatedFungibleAssets : ExtTreeMap AssetVaultKey FungibleAsset)
    (delta : AccountDelta) : Except StoreError VaultChanges := do
  let fungible ← delta.fungible.toList.foldlM (applyFungible updatedFungibleAssets) ⟨∅, []⟩
  let added := delta.nonFungible.toList.filter fun entry => entry.2 = .add
  let removed := delta.nonFungible.toList.filter fun entry => entry.2 ≠ .add
  return {
    updatedAssets := added.foldl (fun assets entry =>
      assets.insert (.nonFungible entry.1) (.nonFungible entry.1)) fungible.updatedAssets
    removedVaultKeys := fungible.removedVaultKeys ++
      removed.map fun entry => AssetVaultKey.nonFungible entry.1 }

end VaultChanges

end Library

namespace VaultChanges

/-- The updated assets in the order of their keys. -/
def assets (changes : VaultChanges) : List Asset :=
  changes.updatedAssets.toList.map Prod.snd

/-- A key is removed once and not also set, and every asset is set under its own key. -/
structure Valid (changes : VaultChanges) : Prop where
  keyed : ∀ (key : AssetVaultKey) (asset : Asset), changes.updatedAssets[key]? = some asset →
    asset.vaultKey = key
  nodup : changes.removedVaultKeys.Nodup
  disjoint : ∀ key ∈ changes.removedVaultKeys, changes.updatedAssets[key]? = none

theorem Valid.map_vaultKey_assets {changes : VaultChanges} (valid : changes.Valid) :
    changes.assets.map Asset.vaultKey = changes.updatedAssets.keys := by
  rw [assets, List.map_map, ← ExtTreeMap.map_fst_toList_eq_keys]
  refine List.map_congr_left fun entry member => ?_
  exact valid.keyed entry.1 entry.2 (ExtTreeMap.mem_toList_iff_getElem?_eq_some.mp member)

/-- The key is set or removed. -/
def Touches (changes : VaultChanges) (key : AssetVaultKey) : Prop :=
  changes.updatedAssets[key]? ≠ none ∨ key ∈ changes.removedVaultKeys

theorem Valid.insert {changes : VaultChanges} (valid : changes.Valid) (asset : Asset)
    (fresh : ¬changes.Touches asset.vaultKey) :
    Valid { changes with updatedAssets := changes.updatedAssets.insert asset.vaultKey asset } where
  keyed key other found := by
    rw [ExtTreeMap.getElem?_insert] at found
    split at found
    · rename_i same
      rw [← Option.some.inj found]
      exact Std.compare_eq_iff_eq.mp same
    · exact valid.keyed key other found
  nodup := valid.nodup
  disjoint key removed := by
    have different : asset.vaultKey ≠ key := fun same => fresh (Or.inr (same ▸ removed))
    rw [ExtTreeMap.getElem?_insert, if_neg (by rwa [Std.compare_eq_iff_eq])]
    exact valid.disjoint key removed

theorem Valid.remove {changes : VaultChanges} (valid : changes.Valid) (key : AssetVaultKey)
    (fresh : ¬changes.Touches key) :
    Valid { changes with removedVaultKeys := changes.removedVaultKeys ++ [key] } where
  keyed := valid.keyed
  nodup := by
    refine List.nodup_append.mpr ⟨valid.nodup, List.nodup_singleton key, ?_⟩
    intro other removed only member same
    rw [List.mem_singleton.mp member] at same
    exact fresh (Or.inr (same ▸ removed))
  disjoint other removed := by
    rcases List.mem_append.mp removed with before | last
    · exact valid.disjoint other before
    · rw [List.mem_singleton.mp last]
      by_contra updated
      exact fresh (Or.inl updated)

theorem touches_insert {changes : VaultChanges} (asset : Asset) {key : AssetVaultKey}
    (touches : Touches { changes with
      updatedAssets := changes.updatedAssets.insert asset.vaultKey asset } key) :
    changes.Touches key ∨ key = asset.vaultKey := by
  rcases touches with updated | removed
  · rw [ExtTreeMap.getElem?_insert] at updated
    by_cases same : asset.vaultKey = key
    · exact Or.inr same.symm
    · rw [if_neg (by rwa [Std.compare_eq_iff_eq])] at updated
      exact Or.inl (Or.inl updated)
  · exact Or.inl (Or.inr removed)

theorem touches_remove {changes : VaultChanges} {gone key : AssetVaultKey}
    (touches : Touches { changes with
      removedVaultKeys := changes.removedVaultKeys ++ [gone] } key) :
    changes.Touches key ∨ key = gone := by
  rcases touches with updated | removed
  · exact Or.inl (Or.inl updated)
  · rcases List.mem_append.mp removed with before | last
    · exact Or.inl (Or.inr before)
    · exact Or.inr (List.mem_singleton.mp last)

/-- The added assets are set under their own keys, and nothing else changes. -/
theorem getElem?_foldl_added (added : List (Word × NonFungibleDeltaAction))
    (assets : ExtTreeMap AssetVaultKey Asset) (key : AssetVaultKey) :
    (added.foldl (fun assets entry =>
        assets.insert (AssetVaultKey.nonFungible entry.1) (Asset.nonFungible entry.1))
          assets)[key]? =
      if ∃ entry ∈ added, AssetVaultKey.nonFungible entry.1 = key then
        match key with
        | .nonFungible asset => some (Asset.nonFungible asset)
        | .fungible _ => none
      else assets[key]? := by
  induction added generalizing assets with
  | nil => simp
  | cons entry rest inductionHypothesis =>
    rw [List.foldl_cons, inductionHypothesis, ExtTreeMap.getElem?_insert]
    by_cases later : ∃ other ∈ rest, AssetVaultKey.nonFungible other.1 = key
    · obtain ⟨other, member, same⟩ := later
      rw [if_pos ⟨other, member, same⟩, if_pos ⟨other, List.mem_cons_of_mem entry member, same⟩]
    · rw [if_neg later]
      by_cases now : AssetVaultKey.nonFungible entry.1 = key
      · rw [if_pos (Std.compare_eq_iff_eq.mpr now), if_pos ⟨entry, List.mem_cons_self, now⟩]
        subst now
        rfl
      · rw [if_neg (by rwa [Std.compare_eq_iff_eq]), if_neg]
        rintro ⟨other, member, same⟩
        rcases List.mem_cons.mp member with rfl | member
        · exact now same
        · exact later ⟨other, member, same⟩

theorem sub_faucetId {asset other result : FungibleAsset}
    (subtracted : asset.sub other = .ok result) : result.faucetId = other.faucetId := by
  unfold FungibleAsset.sub at subtracted
  split at subtracted
  · cases subtracted
  · rename_i same
    split at subtracted
    · cases subtracted
    · cases subtracted
      exact not_not.mp same

section Library

variable [ProtocolLibrary]

theorem new_faucetId {faucetId : AccountId} {amount : ℕ} {result : FungibleAsset}
    (created : FungibleAsset.new faucetId amount = .ok result) : result.faucetId = faucetId := by
  unfold FungibleAsset.new at created
  split at created
  · cases created
  · cases created
    rfl

theorem add_faucetId {asset other result : FungibleAsset} (added : asset.add other = .ok result) :
    result.faucetId = other.faucetId := by
  unfold FungibleAsset.add at added
  split at added
  · cases added
  · rename_i same
    rw [new_faucetId added]
    exact not_not.mp same

/-- One fungible change sets or removes the asset of its faucet. -/
theorem applyFungible_cases
    {updatedFungibleAssets : ExtTreeMap AssetVaultKey FungibleAsset} {changes result : VaultChanges}
    {change : AccountId × ℤ}
    (applied : applyFungible updatedFungibleAssets changes change = .ok result) :
    (∃ asset : FungibleAsset, asset.vaultKey = .fungible change.1 ∧ result = { changes with
      updatedAssets := changes.updatedAssets.insert asset.vaultKey (.fungible asset) }) ∨
    result = { changes with
      removedVaultKeys := changes.removedVaultKeys ++ [.fungible change.1] } := by
  obtain ⟨deltaAsset, created, applied⟩ := Fallible.bind_eq_ok.mp applied
  obtain ⟨asset, computed, applied⟩ := Fallible.bind_eq_ok.mp applied
  have faucet : asset.faucetId = change.1 := by
    rw [← new_faucetId created]
    unfold changedAsset at computed
    split at computed
    · split at computed
      · exact add_faucetId computed
      · exact sub_faucetId computed
    · cases computed
      rfl
  have key : asset.vaultKey = .fungible change.1 := congrArg AssetVaultKey.fungible faucet
  split at applied
  · cases applied
    exact Or.inl ⟨asset, key, rfl⟩
  · cases applied
    rw [key]
    exact Or.inr rfl

/-- The fungible part of a delta touches the assets of its faucets only. -/
theorem foldlM_applyFungible_valid
    (updatedFungibleAssets : ExtTreeMap AssetVaultKey FungibleAsset)
    (fungible : List (AccountId × ℤ)) (distinct : (fungible.map Prod.fst).Nodup)
    (result : VaultChanges)
    (finished : fungible.foldlM (applyFungible updatedFungibleAssets) ⟨∅, []⟩ = .ok result) :
    result.Valid ∧ ∀ key, result.Touches key → ∃ faucetId, key = .fungible faucetId := by
  have kept := Fallible.foldlM_invariant
    (fun (rest : List (AccountId × ℤ)) (changes : VaultChanges) =>
      changes.Valid ∧ (rest.map Prod.fst).Nodup ∧
        ∀ key, changes.Touches key → ∃ faucetId, key = .fungible faucetId ∧
          faucetId ∉ rest.map Prod.fst)
    (applyFungible updatedFungibleAssets) ?_ fungible ⟨∅, []⟩ result ?_ finished
  · exact ⟨kept.1, fun key touches => (kept.2.2 key touches).imp fun _ fresh => fresh.1⟩
  · rintro change rest changes next ⟨valid, nodup, touched⟩ applied
    obtain ⟨fresh, restNodup⟩ := List.nodup_cons.mp nodup
    have untouched : ¬changes.Touches (.fungible change.1) := by
      intro touches
      obtain ⟨faucetId, same, absent⟩ := touched _ touches
      cases same
      exact absent List.mem_cons_self
    have earlier : ∀ key, changes.Touches key → ∃ faucetId, key = .fungible faucetId ∧
        faucetId ∉ rest.map Prod.fst := by
      intro key touches
      obtain ⟨faucetId, same, absent⟩ := touched key touches
      exact ⟨faucetId, same, fun member => absent (List.mem_cons_of_mem _ member)⟩
    rcases applyFungible_cases applied with ⟨asset, key, rfl⟩ | rfl
    · refine ⟨valid.insert (.fungible asset) (by rwa [Asset.vaultKey, key]), restNodup, ?_⟩
      intro other touches
      rcases touches_insert (.fungible asset) touches with before | same
      · exact earlier other before
      · exact ⟨change.1, same.trans key, fresh⟩
    · refine ⟨valid.remove _ untouched, restNodup, ?_⟩
      intro other touches
      rcases touches_remove touches with before | same
      · exact earlier other before
      · exact ⟨change.1, same, fresh⟩
  · refine ⟨⟨?_, List.nodup_nil, fun _ member => nomatch member⟩, distinct, ?_⟩
    · intro key asset found
      simp at found
    · rintro key (updated | removed)
      · simp at updated
      · cases removed

/-- The changes of a delta name every vault key once. -/
theorem ofDelta_valid {updatedFungibleAssets : ExtTreeMap AssetVaultKey FungibleAsset}
    {delta : AccountDelta} {changes : VaultChanges}
    (computed : ofDelta updatedFungibleAssets delta = .ok changes) : changes.Valid := by
  obtain ⟨fungible, folded, rest⟩ := Fallible.bind_eq_ok.mp computed
  cases rest
  have faucets : (delta.fungible.toList.map Prod.fst).Nodup := by
    rw [ExtTreeMap.map_fst_toList_eq_keys]
    exact delta.fungible.nodup_keys
  have ids : (delta.nonFungible.toList.map Prod.fst).Nodup := by
    rw [ExtTreeMap.map_fst_toList_eq_keys]
    exact delta.nonFungible.nodup_keys
  obtain ⟨valid, onlyFungible⟩ :=
    foldlM_applyFungible_valid updatedFungibleAssets _ faucets fungible folded
  have fresh : ∀ asset, ¬fungible.Touches (.nonFungible asset) := by
    intro asset touches
    obtain ⟨faucetId, same⟩ := onlyFungible _ touches
    cases same
  refine ⟨?_, ?_, ?_⟩
  · intro key asset found
    rw [getElem?_foldl_added] at found
    split at found
    · cases key with
      | fungible faucetId => cases found
      | nonFungible word =>
        rw [← Option.some.inj found]
        rfl
    · exact valid.keyed key asset found
  · rw [List.nodup_append]
    refine ⟨valid.nodup, ?_, ?_⟩
    · refine List.Nodup.map_on ?_ ((List.Nodup.of_map Prod.fst ids).filter _)
      intro first memberFirst second memberSecond same
      exact List.inj_on_of_nodup_map ids (List.mem_of_mem_filter memberFirst)
        (List.mem_of_mem_filter memberSecond) (AssetVaultKey.nonFungible.inj same)
    · rintro key removed _ member rfl
      obtain ⟨entry, -, rfl⟩ := List.mem_map.mp member
      exact fresh entry.1 (Or.inr removed)
  · intro key removed
    rw [getElem?_foldl_added]
    rcases List.mem_append.mp removed with before | now
    · rw [if_neg]
      · exact valid.disjoint key before
      · rintro ⟨entry, -, rfl⟩
        exact fresh entry.1 (Or.inr before)
    · obtain ⟨entry, member, rfl⟩ := List.mem_map.mp now
      rw [if_neg]
      · by_contra updated
        exact fresh entry.1 (Or.inl updated)
      · rintro ⟨other, added, same⟩
        obtain ⟨otherListed, isAdd⟩ := List.mem_filter.mp added
        obtain ⟨listed, isRemove⟩ := List.mem_filter.mp member
        have sameWord : other.1 = entry.1 := AssetVaultKey.nonFungible.inj same
        have sameEntry : other = entry :=
          List.inj_on_of_nodup_map ids otherListed listed sameWord
        rw [sameEntry] at isAdd
        exact of_decide_eq_true isRemove (of_decide_eq_true isAdd)

end Library

end VaultChanges

/-! ### The asset tables -/

/-- The fungible assets of an account that a delta updates. -/
def Database.getAccountFungibleAssetsForDelta (db : Database) (accountId : AccountId)
    (delta : AccountDelta) : ExtTreeMap AssetVaultKey FungibleAsset :=
  ExtTreeMap.ofList (delta.fungible.toList.filterMap fun change =>
    match db.accountAssets.current accountId (.fungible change.1) with
    | some (.fungible asset) => some (asset.vaultKey, asset)
    | _ => none)

/-- Inserts assets into the latest table only. -/
def Database.insertAssets (db : Database) (accountId : AccountId) (assets : List Asset) :
    Database :=
  { db with
    accountAssets := assets.foldl (fun table asset =>
      table.put accountId asset.vaultKey asset) db.accountAssets }

/-- Archives the latest asset of a key. -/
def archiveAsset (accountId : AccountId) (nonce : ℕ)
    (table : HistoryTable AccountId AssetVaultKey Asset (Option Asset)) (key : AssetVaultKey) :
    HistoryTable AccountId AssetVaultKey Asset (Option Asset) :=
  table.archive accountId nonce key (table.current accountId key)

/-- Archives and deletes the removed assets, then archives and replaces the updated ones. -/
def Database.persistVaultDelta (db : Database) (accountId : AccountId) (nonce : ℕ)
    (removedVaultKeys : List AssetVaultKey) (updatedAssets : List Asset) : Database :=
  let archived := removedVaultKeys.foldl (archiveAsset accountId nonce) db.accountAssets
  let deleted := removedVaultKeys.foldl (fun table key => table.drop accountId key) archived
  { db with
    accountAssets := updatedAssets.foldl (fun table asset =>
      (archiveAsset accountId nonce table asset.vaultKey).put accountId asset.vaultKey asset)
      deleted }

namespace Database

variable {db : Database} {accountId : AccountId} {nonce : ℕ} {changes : VaultChanges}

theorem recorded_archiveAsset
    {before table : HistoryTable AccountId AssetVaultKey Asset (Option Asset)}
    {key : AssetVaultKey} (recorded : HistoryTable.Recorded id accountId nonce before table)
    (untouched : table.archived accountId nonce key = none) :
    HistoryTable.Recorded id accountId nonce before (archiveAsset accountId nonce table key) :=
  recorded.archive untouched rfl

theorem current_foldl_drop (keys : List AssetVaultKey)
    (table : HistoryTable AccountId AssetVaultKey Asset (Option Asset)) (other : AccountId)
    (key : AssetVaultKey) :
    (keys.foldl (fun table key => table.drop accountId key) table).current other key =
      if other = accountId ∧ key ∈ keys then none else table.current other key := by
  induction keys generalizing table with
  | nil => simp
  | cons first rest inductionHypothesis =>
    rw [List.foldl_cons, inductionHypothesis, HistoryTable.current_drop]
    grind

theorem foldl_drop_historical (keys : List AssetVaultKey)
    (table : HistoryTable AccountId AssetVaultKey Asset (Option Asset)) :
    (keys.foldl (fun table key => table.drop accountId key) table).historical =
      table.historical := by
  induction keys generalizing table with
  | nil => rfl
  | cons first rest inductionHypothesis => exact inductionHypothesis (table.drop accountId first)

/-- The asset table takes a recorded step. -/
theorem persistVaultDelta_recorded (valid : changes.Valid)
    (fresh : ∀ key, db.accountAssets.archived accountId nonce key = none) :
    HistoryTable.Recorded id accountId nonce db.accountAssets
      (db.persistVaultDelta accountId nonce changes.removedVaultKeys
        changes.assets).accountAssets := by
  obtain ⟨archived, removed⟩ := (HistoryTable.Recorded.refl id fresh).foldl id
    (archiveAsset accountId nonce) changes.removedVaultKeys (by simpa using valid.nodup)
    (fun key _ => fresh key)
    (fun key _ table recorded untouched => recorded_archiveAsset recorded untouched)
    (fun table key asked => HistoryTable.Recorded.archived_archive_eq_none_iff table key asked _)
  rw [List.map_id] at removed
  have deleted := archived.update (foldl_drop_historical changes.removedVaultKeys _)
    (fun other key apart => by rw [current_foldl_drop, if_neg fun gone => apart gone.1])
    (fun key untouched => by
      rw [current_foldl_drop, if_neg fun gone => ((removed key).mp untouched).1 gone.2])
  refine (deleted.foldl Asset.vaultKey _ changes.assets ?_ ?_ ?_ ?_).1
  · rw [valid.map_vaultKey_assets]
    exact changes.updatedAssets.nodup_keys
  · intro asset member
    have updated : asset.vaultKey ∈ changes.updatedAssets.keys := by
      rw [← valid.map_vaultKey_assets]
      exact List.mem_map_of_mem member
    have kept : asset.vaultKey ∉ changes.removedVaultKeys := by
      intro gone
      have present := ExtTreeMap.isSome_getElem?_iff_mem.mpr (ExtTreeMap.mem_keys.mp updated)
      rw [valid.disjoint _ gone] at present
      cases present
    rw [HistoryTable.archived, foldl_drop_historical]
    exact (removed asset.vaultKey).mpr ⟨kept, fresh asset.vaultKey⟩
  · intro asset _ table recorded untouched
    refine (recorded_archiveAsset recorded untouched).put asset ?_
    rw [ne_eq, archiveAsset, HistoryTable.Recorded.archived_archive_eq_none_iff]
    exact fun unarchived => unarchived.1 rfl
  · intro table asset asked
    exact HistoryTable.Recorded.archived_archive_eq_none_iff table asset.vaultKey asked _

end Database

end MidenClient
