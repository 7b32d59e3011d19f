/-
This file says when the vault root check of the IndexedDB store passes
(`IdxdbStore::apply_transaction` in `idxdb-store/src/transaction/mod.rs`).

The check recomputes the vault root from the entry in front of the registered roots, but
reads that entry after the changed map roots were replaced. When a changed map had the
root of the vault, the entry is the new root of the map, and the assets are set in the
wrong tree. A tree is determined by its leaves, so the check then passes only when the
two trees differ at most where the assets are set.
-/

import MidenClient.Idxdb.Accounts
import MidenClient.Sqlite.AccountContent
import MidenClient.Store.SmtTree

namespace MidenClient

open Std (ExtTreeMap)

section Library

variable [ProtocolLibrary]

/-! ### Vaults -/

/-- The leaf of a vault key. -/
def vaultLeaf (vault : ExtTreeMap AssetVaultKey Asset) (key : AssetVaultKey) : Word :=
  match vault[key]? with
  | some asset => ProtocolLibrary.assetValueWord asset
  | none => emptyWord

/-- The entries of the tree of a vault. -/
def vaultEntries (vault : ExtTreeMap AssetVaultKey Asset) : List (Word × Word) :=
  vault.toList.map fun entry =>
    (ProtocolLibrary.vaultKeyWord entry.1, ProtocolLibrary.assetValueWord entry.2)

theorem vaultEntries_nodup (injective : Function.Injective ProtocolLibrary.vaultKeyWord)
    (vault : ExtTreeMap AssetVaultKey Asset) : ((vaultEntries vault).map Prod.fst).Nodup := by
  have keys : vault.keys.Nodup := ExtTreeMap.nodup_keys
  rw [← ExtTreeMap.map_fst_toList_eq_keys] at keys
  have words := keys.map injective
  rw [List.map_map] at words
  rw [vaultEntries, List.map_map]
  exact words

theorem smtTree_vaultRoot (account : Account) : SmtTree account.vaultRoot :=
  .batchInsert _ .empty

/-- The tree of a vault has the leaves of its keys. -/
theorem leaves_vaultRoot {leaves : Word → Word → Word} (law : SmtLaw leaves)
    (injective : Function.Injective ProtocolLibrary.vaultKeyWord) (account : Account)
    (key : AssetVaultKey) :
    leaves account.vaultRoot (ProtocolLibrary.vaultKeyWord key) = vaultLeaf account.vault key := by
  have root : leaves account.vaultRoot =
      setLeaves (fun _ => emptyWord) (vaultEntries account.vault) := by
    rw [← law.empty]
    exact law.batchInsert _ _ .empty
  rw [root, vaultLeaf]
  rcases found : account.vault[key]? with _ | asset
  · refine setLeaves_of_notMem (fun listed => ?_) _
    rw [vaultEntries, List.map_map, List.mem_map] at listed
    obtain ⟨entry, member, same⟩ := listed
    rw [← injective same, ExtTreeMap.mem_toList_iff_getElem?_eq_some.mp member] at found
    cases found
  · refine setLeaves_of_entry (vaultEntries_nodup injective account.vault) ?_ _
    exact List.mem_map.mpr
      ⟨(key, asset), ExtTreeMap.mem_toList_iff_getElem?_eq_some.mpr found, rfl⟩

/-- The other leaves of a vault are empty. -/
theorem leaves_vaultRoot_of_notKey {leaves : Word → Word → Word} (law : SmtLaw leaves)
    (account : Account) {word : Word}
    (notKey : ∀ key, ProtocolLibrary.vaultKeyWord key ≠ word) :
    leaves account.vaultRoot word = emptyWord := by
  have root : leaves account.vaultRoot =
      setLeaves (fun _ => emptyWord) (vaultEntries account.vault) := by
    rw [← law.empty]
    exact law.batchInsert _ _ .empty
  rw [root]
  refine setLeaves_of_notMem (fun listed => ?_) _
  rw [vaultEntries, List.map_map, List.mem_map] at listed
  obtain ⟨entry, -, same⟩ := listed
  exact notKey entry.1 same

/-! ### Vaults under a delta -/

/-- The fungible asset of a faucet in a vault. -/
def fungibleAsset (vault : ExtTreeMap AssetVaultKey Asset) (faucetId : AccountId) :
    Option FungibleAsset :=
  match vault[AssetVaultKey.fungible faucetId]? with
  | some (.fungible asset) => some asset
  | _ => none

def fungibleAmount (vault : ExtTreeMap AssetVaultKey Asset) (faucetId : AccountId) : ℕ :=
  ((fungibleAsset vault faucetId).map FungibleAsset.amount).getD 0

/-- The vault of an account: every asset under its own key, and positive amounts in bounds. -/
structure ValidVault (vault : ExtTreeMap AssetVaultKey Asset) : Prop where
  keyed : ∀ (key : AssetVaultKey) (asset : Asset), vault[key]? = some asset → asset.vaultKey = key
  amounts : ∀ (key : AssetVaultKey) (asset : FungibleAsset), vault[key]? = some (.fungible asset) →
    0 < asset.amount ∧ asset.amount ≤ ProtocolLibrary.maxFungibleAmount

/-- The vault keys that a delta changes. -/
def AccountDelta.vaultKeys (delta : AccountDelta) : List AssetVaultKey :=
  delta.fungible.toList.map (fun change => .fungible change.1) ++
    delta.nonFungible.toList.map fun entry => .nonFungible entry.1

omit [ProtocolLibrary] in
theorem AccountDelta.vaultKeys_nodup (delta : AccountDelta) : delta.vaultKeys.Nodup := by
  have fungible : (delta.fungible.toList.map Prod.fst).Nodup := by
    rw [ExtTreeMap.map_fst_toList_eq_keys]
    exact ExtTreeMap.nodup_keys
  have nonFungible : (delta.nonFungible.toList.map Prod.fst).Nodup := by
    rw [ExtTreeMap.map_fst_toList_eq_keys]
    exact ExtTreeMap.nodup_keys
  have fungibleKeys := fungible.map (f := AssetVaultKey.fungible)
    fun first second same => AssetVaultKey.fungible.inj same
  have nonFungibleKeys := nonFungible.map (f := AssetVaultKey.nonFungible)
    fun first second same => AssetVaultKey.nonFungible.inj same
  rw [List.map_map] at fungibleKeys nonFungibleKeys
  refine List.nodup_append.mpr ⟨fungibleKeys, nonFungibleKeys, ?_⟩
  intro first memberFirst second memberSecond
  obtain ⟨change, -, rfl⟩ := List.mem_map.mp memberFirst
  obtain ⟨entry, -, rfl⟩ := List.mem_map.mp memberSecond
  intro same
  cases same

/-- The second vault is the first one with the delta applied. -/
structure AccountDelta.AppliesToVault (delta : AccountDelta)
    (before after : ExtTreeMap AssetVaultKey Asset) : Prop where
  validBefore : ValidVault before
  validAfter : ValidVault after
  fungible : ∀ (faucetId : AccountId) (change : ℤ), delta.fungible[faucetId]? = some change →
    (fungibleAmount after faucetId : ℤ) = fungibleAmount before faucetId + change
  nonFungible : ∀ (asset : Word) (action : NonFungibleDeltaAction),
    delta.nonFungible[asset]? = some action →
    after[AssetVaultKey.nonFungible asset]? =
      match action with
      | .add => some (.nonFungible asset)
      | .remove => none
  unchanged : ∀ key ∉ delta.vaultKeys, after[key]? = before[key]?

section Vault

variable {vault : ExtTreeMap AssetVaultKey Asset}

theorem ValidVault.fungibleAsset (valid : ValidVault vault) {faucetId : AccountId}
    {asset : FungibleAsset} (found : fungibleAsset vault faucetId = some asset) :
    asset = ⟨faucetId, fungibleAmount vault faucetId⟩ ∧ 0 < fungibleAmount vault faucetId ∧
      fungibleAmount vault faucetId ≤ ProtocolLibrary.maxFungibleAmount := by
  have amount : fungibleAmount vault faucetId = asset.amount := by
    rw [fungibleAmount, found]
    rfl
  unfold MidenClient.fungibleAsset at found
  split at found
  · rename_i stored listed
    cases found
    have sameKey : AssetVaultKey.fungible asset.faucetId = .fungible faucetId :=
      valid.keyed _ _ listed
    cases sameKey
    rw [amount]
    exact ⟨rfl, valid.amounts _ _ listed⟩
  · cases found

theorem ValidVault.fungibleAmount_le (valid : ValidVault vault) (faucetId : AccountId) :
    fungibleAmount vault faucetId ≤ ProtocolLibrary.maxFungibleAmount := by
  rcases found : MidenClient.fungibleAsset vault faucetId with _ | asset
  · rw [fungibleAmount, found]
    exact Nat.zero_le _
  · exact (valid.fungibleAsset found).2.2

/-- The leaf of a fungible asset is given by its amount. -/
theorem ValidVault.vaultLeaf_fungible (valid : ValidVault vault) (faucetId : AccountId) :
    vaultLeaf vault (.fungible faucetId) =
      if 0 < fungibleAmount vault faucetId then
        ProtocolLibrary.assetValueWord (.fungible ⟨faucetId, fungibleAmount vault faucetId⟩)
      else emptyWord := by
  rcases found : MidenClient.fungibleAsset vault faucetId with _ | asset
  · have none : fungibleAmount vault faucetId = 0 := by
      rw [fungibleAmount, found]
      rfl
    rw [none, if_neg (lt_irrefl 0)]
    unfold vaultLeaf
    unfold MidenClient.fungibleAsset at found
    rcases listed : vault[AssetVaultKey.fungible faucetId]? with _ | stored
    · rfl
    · cases stored with
      | fungible asset =>
        rw [listed] at found
        cases found
      | nonFungible asset => cases valid.keyed _ _ listed
  · obtain ⟨same, positive, -⟩ := valid.fungibleAsset found
    rw [if_pos positive, ← same]
    unfold MidenClient.fungibleAsset at found
    unfold vaultLeaf
    split at found
    · rename_i stored listed
      cases found
      rw [listed]
    · cases found

end Vault

/-- The entries that an update of the vault tree sets. -/
def assetEntries (updatedAssets : List Asset) (removedVaultKeys : List AssetVaultKey) :
    List (Word × Word) :=
  updatedAssets.map (fun asset =>
    (ProtocolLibrary.vaultKeyWord asset.vaultKey, ProtocolLibrary.assetValueWord asset)) ++
  removedVaultKeys.map fun key => (ProtocolLibrary.vaultKeyWord key, emptyWord)

/-- The leaf that a vault has for a key. -/
def leafEntry (vault : ExtTreeMap AssetVaultKey Asset) (key : AssetVaultKey) : Word × Word :=
  (ProtocolLibrary.vaultKeyWord key, vaultLeaf vault key)

namespace IdxdbDatabase

variable {delta : AccountDelta} {before after : ExtTreeMap AssetVaultKey Asset}

/-- A changed asset comes out with the amount that the delta leads to. -/
theorem changedAsset_eq (applies : delta.AppliesToVault before after) {faucetId : AccountId}
    {change : ℤ} (changed : delta.fungible[faucetId]? = some change) :
    (do
      let deltaAsset ← FungibleAsset.new faucetId change.natAbs
      VaultChanges.changedAsset (fungibleAsset before faucetId) deltaAsset change) =
      .ok ⟨faucetId, fungibleAmount after faucetId⟩ := by
  have amounts := applies.fungible faucetId change changed
  have boundBefore := applies.validBefore.fungibleAmount_le faucetId
  have boundAfter := applies.validAfter.fungibleAmount_le faucetId
  have small : ¬ change.natAbs > ProtocolLibrary.maxFungibleAmount := by omega
  have deltaAsset : FungibleAsset.new faucetId change.natAbs = .ok ⟨faucetId, change.natAbs⟩ := by
    rw [FungibleAsset.new, if_neg small]
  rw [deltaAsset]
  show VaultChanges.changedAsset (fungibleAsset before faucetId) _ change = _
  rcases found : fungibleAsset before faucetId with _ | asset
  · have nothing : fungibleAmount before faucetId = 0 := by
      rw [fungibleAmount, found]
      rfl
    have same : change.natAbs = fungibleAmount after faucetId := by omega
    rw [same]
    rfl
  · obtain ⟨rfl, -, -⟩ := applies.validBefore.fungibleAsset found
    show (if change ≥ 0 then FungibleAsset.add _ _ else FungibleAsset.sub _ _) = _
    by_cases positive : change ≥ 0
    · have sum : fungibleAmount before faucetId + change.natAbs =
          fungibleAmount after faucetId := by omega
      rw [if_pos positive, FungibleAsset.add, if_neg (by simp), FungibleAsset.new]
      dsimp only
      rw [sum, if_neg (not_lt.mpr boundAfter)]
    · have enough : ¬ fungibleAmount before faucetId < change.natAbs := by omega
      have difference : fungibleAmount before faucetId - change.natAbs =
          fungibleAmount after faucetId := by omega
      rw [if_neg positive, FungibleAsset.sub, if_neg (by simp), if_neg enough]
      dsimp only
      rw [difference]

theorem assetEntries_append_updated (updated : List Asset) (removed : List AssetVaultKey)
    (asset : Asset) :
    (assetEntries (updated ++ [asset]) removed).Perm (assetEntries updated removed ++
      [(ProtocolLibrary.vaultKeyWord asset.vaultKey, ProtocolLibrary.assetValueWord asset)]) := by
  unfold assetEntries
  rw [List.map_append, List.map_singleton, List.append_assoc, List.append_assoc]
  exact (List.perm_append_comm).append_left _

theorem assetEntries_append_removed (updated : List Asset) (removed : List AssetVaultKey)
    (key : AssetVaultKey) :
    assetEntries updated (removed ++ [key]) =
      assetEntries updated removed ++ [(ProtocolLibrary.vaultKeyWord key, emptyWord)] := by
  unfold assetEntries
  rw [List.map_append, List.map_singleton, List.append_assoc]

/-- One fungible change sets the leaf of the vault after the delta. -/
theorem computeFungible_eq (applies : delta.AppliesToVault before after) {change : AccountId × ℤ}
    (changed : delta.fungible[change.1]? = some change.2)
    (state : ExtTreeMap AssetVaultKey FungibleAsset × List Asset × List AssetVaultKey)
    (stored : state.1[AssetVaultKey.fungible change.1]? = fungibleAsset before change.1) :
    ∃ result, computeFungible state change = .ok result ∧
      result.1 = state.1.erase (.fungible change.1) ∧
      (assetEntries result.2.1 result.2.2).Perm
        (assetEntries state.2.1 state.2.2 ++ [leafEntry after (.fungible change.1)]) := by
  have leaf := applies.validAfter.vaultLeaf_fungible change.1
  obtain ⟨deltaAsset, created, changedTo⟩ :=
    Fallible.bind_eq_ok.mp (changedAsset_eq applies changed)
  unfold computeFungible
  rw [stored, created]
  show ∃ result, (VaultChanges.changedAsset _ deltaAsset change.2 >>= _) = .ok result ∧ _
  rw [changedTo]
  refine ⟨_, rfl, ?_⟩
  dsimp only
  by_cases positive : 0 < fungibleAmount after change.1
  · rw [if_pos positive] at leaf ⊢
    refine ⟨rfl, ?_⟩
    rw [leafEntry, leaf]
    exact assetEntries_append_updated _ _ _
  · rw [if_neg positive] at leaf ⊢
    refine ⟨rfl, ?_⟩
    rw [leafEntry, leaf]
    exact List.Perm.of_eq (assetEntries_append_removed _ _ _)

/-- All fungible changes set the leaves of the vault after the delta. -/
theorem foldlM_computeFungible (applies : delta.AppliesToVault before after)
    (changes : List (AccountId × ℤ)) (distinct : (changes.map Prod.fst).Nodup)
    (listed : ∀ change ∈ changes, delta.fungible[change.1]? = some change.2)
    (state : ExtTreeMap AssetVaultKey FungibleAsset × List Asset × List AssetVaultKey)
    (stored : ∀ change ∈ changes,
      state.1[AssetVaultKey.fungible change.1]? = fungibleAsset before change.1) :
    ∃ result, changes.foldlM computeFungible state = .ok result ∧
      (assetEntries result.2.1 result.2.2).Perm (assetEntries state.2.1 state.2.2 ++
        changes.map fun change => leafEntry after (.fungible change.1)) := by
  induction changes generalizing state with
  | nil =>
    refine ⟨state, rfl, ?_⟩
    rw [List.map_nil, List.append_nil]
  | cons change rest inductionHypothesis =>
    rw [List.map_cons, List.nodup_cons] at distinct
    obtain ⟨next, computed, erased, entries⟩ := computeFungible_eq applies
      (listed change List.mem_cons_self) state (stored change List.mem_cons_self)
    obtain ⟨result, folded, allEntries⟩ := inductionHypothesis distinct.2
      (fun other member => listed other (List.mem_cons_of_mem _ member)) next
      (fun other member => by
        have different : ¬ compare (AssetVaultKey.fungible change.1) (.fungible other.1) = .eq := by
          rw [Std.compare_eq_iff_eq]
          intro same
          rw [AssetVaultKey.fungible.inj same] at distinct
          exact distinct.1 (List.mem_map_of_mem member)
        rw [erased, ExtTreeMap.getElem?_erase, if_neg different]
        exact stored other (List.mem_cons_of_mem _ member))
    refine ⟨result, ?_, allEntries.trans ?_⟩
    · rw [List.foldlM_cons, computed]
      exact folded
    · rw [List.map_cons, ← List.singleton_append, ← List.append_assoc]
      exact entries.append_right _

/-- The non-fungible changes set the leaves of the vault after the delta. -/
theorem foldl_nonFungible (applies : delta.AppliesToVault before after)
    (entries : List (Word × NonFungibleDeltaAction))
    (listed : ∀ entry ∈ entries, delta.nonFungible[entry.1]? = some entry.2)
    (changes : List Asset × List AssetVaultKey) :
    let result := entries.foldl (fun (changes : List Asset × List AssetVaultKey) entry =>
      match entry.2 with
      | .add => (changes.1 ++ [.nonFungible entry.1], changes.2)
      | .remove => (changes.1, changes.2 ++ [.nonFungible entry.1])) changes
    (assetEntries result.1 result.2).Perm (assetEntries changes.1 changes.2 ++
      entries.map fun entry => leafEntry after (.nonFungible entry.1)) := by
  induction entries generalizing changes with
  | nil =>
    dsimp only
    rw [List.foldl_nil, List.map_nil, List.append_nil]
  | cons entry rest inductionHypothesis =>
    have here := applies.nonFungible entry.1 entry.2 (listed entry List.mem_cons_self)
    refine (inductionHypothesis (fun other member =>
      listed other (List.mem_cons_of_mem _ member)) _).trans ?_
    rw [List.map_cons, ← List.singleton_append, ← List.append_assoc]
    refine List.Perm.append_right _ ?_
    rcases entry with ⟨asset, _ | _⟩
    · rw [leafEntry, vaultLeaf, here]
      exact assetEntries_append_updated _ _ _
    · rw [leafEntry, vaultLeaf, here]
      exact List.Perm.of_eq (assetEntries_append_removed _ _ _)

/-- The computed changes set exactly the leaves of the changed keys, as the vault after the delta
has them. -/
theorem computeVaultDelta_eq (applies : delta.AppliesToVault before after)
    (oldVaultAssets : List Asset)
    (stored : ∀ faucetId change, delta.fungible[faucetId]? = some change →
      (fungibleMap oldVaultAssets)[AssetVaultKey.fungible faucetId]? =
        fungibleAsset before faucetId) :
    ∃ updatedAssets removedVaultKeys,
      computeVaultDelta oldVaultAssets delta = .ok (updatedAssets, removedVaultKeys) ∧
      (assetEntries updatedAssets removedVaultKeys).Perm
        (delta.vaultKeys.map (leafEntry after)) := by
  have listed : ∀ change ∈ delta.fungible.toList, delta.fungible[change.1]? = some change.2 :=
    fun change member => ExtTreeMap.mem_toList_iff_getElem?_eq_some.mp member
  have distinct : (delta.fungible.toList.map Prod.fst).Nodup := by
    rw [ExtTreeMap.map_fst_toList_eq_keys]
    exact ExtTreeMap.nodup_keys
  obtain ⟨fungible, folded, entries⟩ := foldlM_computeFungible applies delta.fungible.toList
    distinct listed (fungibleMap oldVaultAssets, [], [])
    fun change member => stored change.1 change.2 (listed change member)
  have others := foldl_nonFungible applies delta.nonFungible.toList
    (fun entry member => ExtTreeMap.mem_toList_iff_getElem?_eq_some.mp member) fungible.2
  refine ⟨_, _, ?_, others.trans ?_⟩
  · unfold computeVaultDelta
    rw [folded]
    rfl
  · rw [AccountDelta.vaultKeys, List.map_append, List.map_map, List.map_map]
    exact entries.append_right _

/-! ### What is read from the tables -/

omit [ProtocolLibrary] in
theorem fungibleEntry_eq_some {asset : Asset} {entry : AssetVaultKey × FungibleAsset}
    (found : fungibleEntry asset = some entry) :
    ∃ fungible, asset = .fungible fungible ∧ entry = (fungible.vaultKey, fungible) := by
  cases asset with
  | fungible fungible =>
    cases found
    exact ⟨fungible, rfl, rfl⟩
  | nonFungible asset => cases found

omit [ProtocolLibrary] in
theorem fungibleAsset_eq_some_iff {vault : ExtTreeMap AssetVaultKey Asset} {faucetId : AccountId}
    {asset : FungibleAsset} :
    fungibleAsset vault faucetId = some asset ↔
      vault[AssetVaultKey.fungible faucetId]? = some (Asset.fungible asset) := by
  unfold fungibleAsset
  constructor
  · intro found
    split at found
    · rename_i stored listed
      cases found
      exact listed
    · cases found
  · intro found
    rw [found]

/-- The lookup map has the fungible assets of the vault that the delta changes. -/
theorem fungibleMap_getVaultAssets {db : IdxdbDatabase} {accountId : AccountId}
    {vault : ExtTreeMap AssetVaultKey Asset} (valid : ValidVault vault)
    (stored : ∀ key, db.accountAssets.current accountId key = vault[key]?)
    {faucets : List AccountId} {faucetId : AccountId} (listed : faucetId ∈ faucets) :
    (fungibleMap (db.getVaultAssets accountId (faucets.map .fungible)))[
      AssetVaultKey.fungible faucetId]? = fungibleAsset vault faucetId := by
  have assets : ∀ asset, asset ∈ db.getVaultAssets accountId (faucets.map .fungible) ↔
      vault[asset.vaultKey]? = some asset ∧
        (faucets.map AssetVaultKey.fungible = [] ∨ asset.vaultKey ∈ faucets.map .fungible) := by
    intro asset
    unfold getVaultAssets
    rw [List.mem_map]
    constructor
    · rintro ⟨entry, member, rfl⟩
      obtain ⟨owned, kept⟩ := List.mem_filter.mp member
      obtain ⟨-, found⟩ := (HistoryTable.mem_ownedBy_iff _ _ _).mp owned
      rw [stored] at found
      rw [valid.keyed _ _ found]
      exact ⟨found, of_decide_eq_true kept⟩
    · rintro ⟨found, kept⟩
      refine ⟨(toLex (accountId, asset.vaultKey), asset), List.mem_filter.mpr ⟨?_, ?_⟩, rfl⟩
      · exact (HistoryTable.mem_ownedBy_iff _ _ _).mpr ⟨rfl, (stored _).trans found⟩
      · exact decide_eq_true kept
  have distinct : (((db.getVaultAssets accountId (faucets.map .fungible)).filterMap
      fungibleEntry).map Prod.fst).Nodup := by
    have keys := HistoryTable.ownedBy_keys_nodup db.accountAssets accountId
    rw [List.Nodup, List.pairwise_map] at keys ⊢
    unfold getVaultAssets
    rw [List.pairwise_filterMap, List.pairwise_map]
    refine (keys.filter _).imp_of_mem fun {first second} memberFirst memberSecond different => ?_
    intro one foundOne two foundTwo same
    obtain ⟨-, storedFirst⟩ :=
      (HistoryTable.mem_ownedBy_iff _ _ _).mp (List.mem_filter.mp memberFirst).1
    obtain ⟨-, storedSecond⟩ :=
      (HistoryTable.mem_ownedBy_iff _ _ _).mp (List.mem_filter.mp memberSecond).1
    rw [stored] at storedFirst storedSecond
    obtain ⟨firstAsset, firstIs, rfl⟩ := fungibleEntry_eq_some foundOne
    obtain ⟨secondAsset, secondIs, rfl⟩ := fungibleEntry_eq_some foundTwo
    rw [firstIs] at storedFirst
    rw [secondIs] at storedSecond
    exact different ((valid.keyed _ _ storedFirst).symm.trans
      (same.trans (valid.keyed _ _ storedSecond)))
  refine Option.ext fun asset => ?_
  unfold fungibleMap
  rw [OrderedMap.getElem?_ofList_eq_some_iff _ distinct, List.mem_filterMap,
    fungibleAsset_eq_some_iff]
  constructor
  · rintro ⟨held, member, entry⟩
    obtain ⟨found, -⟩ := (assets held).mp member
    obtain ⟨fungible, rfl, same⟩ := fungibleEntry_eq_some entry
    obtain ⟨key, rfl⟩ := Prod.mk.inj same
    rw [key]
    exact found
  · intro found
    have key : asset.vaultKey = .fungible faucetId := valid.keyed _ _ found
    refine ⟨.fungible asset, (assets _).mpr ⟨?_, Or.inr ?_⟩, ?_⟩
    · show vault[asset.vaultKey]? = _
      rw [key]
      exact found
    · show asset.vaultKey ∈ _
      rw [key]
      exact List.mem_map_of_mem listed
    · rw [← key]
      rfl

/-! ### What the forest computes -/

/-- The forest has the tree of a root. -/
def Known (forest : AccountSmtForest) (root : Word) : Prop :=
  root = ProtocolLibrary.emptySmtRoot ∨ root ∈ forest.forest.roots

/-- The forest keeps its trees and its registrations. -/
structure Grows (before after : AccountSmtForest) : Prop where
  registration : after.SameRegistration before
  trees : ∀ root, Known before root → Known after root

theorem Grows.refl (forest : AccountSmtForest) : Grows forest forest :=
  ⟨.refl forest, fun _ known => known⟩

theorem Grows.trans {first second third : AccountSmtForest} (before : Grows first second)
    (after : Grows second third) : Grows first third where
  registration := ⟨after.registration.accountRoots.trans before.registration.accountRoots,
    after.registration.pendingOldRoots.trans before.registration.pendingOldRoots,
    after.registration.rootRefcounts.trans before.registration.rootRefcounts⟩
  trees root known := after.trees root (before.trees root known)

/-- Inserting into a known tree succeeds, and the new tree is known. -/
theorem batchInsert_of_known {forest : AccountSmtForest} {root : Word} (known : Known forest root)
    (entries : List (Word × Word)) :
    ∃ next, forest.batchInsert root entries =
        .ok (next, ProtocolLibrary.smtBatchInsert root entries) ∧
      Grows forest next ∧ Known next (ProtocolLibrary.smtBatchInsert root entries) := by
  have notMissing :
      ¬(root ≠ ProtocolLibrary.emptySmtRoot ∧ root ∉ forest.forest.roots) := by
    rintro ⟨notEmpty, missing⟩
    exact known.elim notEmpty missing
  unfold AccountSmtForest.batchInsert
  rw [if_neg notMissing]
  refine ⟨_, rfl, ⟨⟨rfl, rfl, rfl⟩, fun other present => ?_⟩,
    Or.inr (Finset.mem_insert_self _ _)⟩
  exact present.imp id (Finset.mem_insert_of_mem ·)

theorem updateStorageMapNodes_of_known {forest : AccountSmtForest} {root : Word}
    (known : Known forest root) (entries : ExtTreeMap StorageMapKey Word) :
    ∃ next, forest.updateStorageMapNodes root entries.toList =
        .ok (next, updatedMapRoot root entries) ∧
      Grows forest next ∧ Known next (updatedMapRoot root entries) := by
  unfold AccountSmtForest.updateStorageMapNodes updatedMapRoot
  split
  · exact ⟨forest, rfl, .refl forest, known⟩
  · exact batchInsert_of_known known _

theorem updateAssetNodes_of_known {forest : AccountSmtForest} {root : Word}
    (known : Known forest root) (assets : List Asset) (removed : List AssetVaultKey) :
    ∃ next, forest.updateAssetNodes root assets removed =
      .ok (next, updatedRoot root (assetEntries assets removed)) ∧ Grows forest next := by
  unfold AccountSmtForest.updateAssetNodes updatedRoot
  dsimp only
  change ∃ next, (if (assetEntries assets removed).isEmpty then _ else _) = _ ∧ _
  split
  · exact ⟨forest, rfl, .refl forest⟩
  · obtain ⟨next, inserted, grows, -⟩ := batchInsert_of_known known (assetEntries assets removed)
    exact ⟨next, inserted, grows⟩

/-- With known old roots the storage delta is computed, and the new roots are known. -/
theorem foldlM_applyMapDelta_of_known {oldMapRoots : ExtTreeMap StorageSlotName Word}
    (maps : List (StorageSlotName × ExtTreeMap StorageMapKey Word))
    (start : ExtTreeMap StorageSlotName (Word × StorageSlotType) compare)
    (forest : AccountSmtForest)
    (known : ∀ slot ∈ maps,
      Known forest (oldMapRoots[slot.1]?.getD ProtocolLibrary.emptySmtRoot))
    (startKnown : ∀ (slotName : StorageSlotName) (root : Word),
      start[slotName]? = some (root, StorageSlotType.map) → Known forest root) :
    ∃ slots next, maps.foldlM (applyMapDelta oldMapRoots) start forest = .ok slots next ∧
      Grows forest next ∧ ∀ (slotName : StorageSlotName) (root : Word),
        slots[slotName]? = some (root, StorageSlotType.map) → Known next root := by
  induction maps generalizing start forest with
  | nil => exact ⟨start, forest, rfl, .refl forest, startKnown⟩
  | cons slot rest inductionHypothesis =>
    obtain ⟨middle, updated, grown, newKnown⟩ :=
      updateStorageMapNodes_of_known (known slot List.mem_cons_self) slot.2
    have stepped : applyMapDelta oldMapRoots start slot forest =
        .ok (start.insert slot.1 (updatedMapRoot
          (oldMapRoots[slot.1]?.getD ProtocolLibrary.emptySmtRoot) slot.2, .map)) middle :=
      Fallible.bind_eq_result_ok.mpr ⟨_, middle, ForestM.update_eq_ok.mpr updated, rfl⟩
    obtain ⟨slots, next, folded, grownRest, knownRest⟩ := inductionHypothesis
      (start.insert slot.1 (updatedMapRoot
        (oldMapRoots[slot.1]?.getD ProtocolLibrary.emptySmtRoot) slot.2, .map)) middle
      (fun other member => grown.trees _ (known other (List.mem_cons_of_mem _ member)))
      fun slotName root found => by
        rw [ExtTreeMap.getElem?_insert] at found
        split at found
        · obtain ⟨rfl, -⟩ := Prod.mk.inj (Option.some.inj found)
          exact newKnown
        · exact grown.trees _ (startKnown slotName root found)
    refine ⟨slots, next, ?_, grown.trans grownRest, knownRest⟩
    rw [List.foldlM_cons]
    exact Fallible.bind_eq_result_ok.mpr ⟨_, middle, stepped, folded⟩

theorem applyAccountStorageDelta_of_known {oldMapRoots : ExtTreeMap StorageSlotName Word}
    (delta : AccountDelta) (forest : AccountSmtForest)
    (known : ∀ slot ∈ delta.maps,
      Known forest (oldMapRoots[slot.1]?.getD ProtocolLibrary.emptySmtRoot)) :
    ∃ slots next, applyAccountStorageDelta oldMapRoots delta forest = .ok slots next ∧
      Grows forest next ∧ ∀ (slotName : StorageSlotName) (root : Word),
        slots[slotName]? = some (root, StorageSlotType.map) → Known next root := by
  refine foldlM_applyMapDelta_of_known delta.maps _ forest known fun slotName root found => ?_
  rw [OrderedMap.getElem?_ofList] at found
  obtain ⟨pair, last, same⟩ := Option.map_eq_some_iff.mp found
  obtain ⟨member, -⟩ := List.mem_filter.mp (List.mem_of_getLast? last)
  obtain ⟨entry, -, rfl⟩ := List.mem_map.mp member
  cases same

/-- The root in front stays one of the roots it could become. -/
theorem frontAfter_of_all {holds : Word → Prop} (oldMapRoots : ExtTreeMap StorageSlotName Word)
    (slots : List (StorageSlotName × Word × StorageSlotType)) (front : Word) (first : holds front)
    (all : ∀ slot ∈ slots, slot.2.2 = .map → holds slot.2.1) :
    holds (frontAfter front oldMapRoots slots) := by
  unfold frontAfter
  induction slots generalizing front with
  | nil => exact first
  | cons slot rest inductionHypothesis =>
    rw [List.foldl_cons]
    refine inductionHypothesis _ ?_ fun other member => all other (List.mem_cons_of_mem _ member)
    split
    · rename_i isMap
      split
      · exact all slot List.mem_cons_self isMap
      · exact first
    · exact first

end IdxdbDatabase

/-! ### The check -/

/-- The root of a storage map of the account. -/
def Account.mapRoot (account : Account) (slotName : StorageSlotName) : Word :=
  match account.storage[slotName]? with
  | some (.map entries) => storageMapRoot entries
  | _ => ProtocolLibrary.emptySmtRoot

/-- Where the root of the vault leads when it is taken for the roots of the changed maps, in the
order of their names: from the old root of a map to the new one. -/
def Account.vaultRootThroughMaps (account : Account) (delta : AccountDelta) : Word :=
  delta.maps.foldl (fun root slot =>
    if root = account.mapRoot slot.1 then updatedMapRoot (account.mapRoot slot.1) slot.2
    else root) account.vaultRoot

namespace IdxdbDatabase

/-- The account is stored, and registered with its correct root list. -/
structure StoresAccount (db : IdxdbDatabase) (forest : AccountSmtForest) (account : Account) :
    Prop where
  assets : ∀ key : AssetVaultKey, db.accountAssets.current account.id key = account.vault[key]?
  slots : ∀ slotName : StorageSlotName, db.accountStorages.current account.id slotName =
    (account.storage[slotName]?).map fun content => (content.topValue, content.slotType)
  roots : ∃ rest, forest.getRoots account.id = some (account.vaultRoot :: rest) ∧
    rest.Perm (AccountSmtForest.collectAccountRoots account).tail
  trees : ∀ root ∈ AccountSmtForest.collectAccountRoots account, Known forest root

/-- The transaction was executed on the account: its final header is the header of the account
with the delta applied. What it does to the storage plays no part in the check. -/
structure ExecutedOnAccount (transaction : ExecutedTransaction) (account final : Account) :
    Prop where
  finalHeader : transaction.finalAccount = final.toHeader
  sameId : final.id = account.id
  vault : transaction.accountDelta.AppliesToVault account.vault final.vault

variable {db : IdxdbDatabase} {forest : AccountSmtForest} {transaction : ExecutedTransaction}
  {account final : Account} {leaves : Word → Word → Word}

/-- The trees of the account's maps are in the forest. -/
theorem known_mapRoot (stores : db.StoresAccount forest account) (slotName : StorageSlotName) :
    Known forest (account.mapRoot slotName) := by
  unfold Account.mapRoot
  split
  · rename_i entries stored
    exact stores.trees _ (List.mem_cons_of_mem _ (List.mem_filterMap.mpr
      ⟨(slotName, .map entries), ExtTreeMap.mem_toList_iff_getElem?_eq_some.mpr stored, rfl⟩))
  · exact Or.inl rfl

/-- The roots that are read from the tables are the roots of the account's maps. -/
theorem getD_getStorageMapRoots (stores : db.StoresAccount forest account)
    {slotNames : List StorageSlotName} {slotName : StorageSlotName}
    (listed : slotName ∈ slotNames) :
    (db.getStorageMapRoots account.id slotNames)[slotName]?.getD ProtocolLibrary.emptySmtRoot =
      account.mapRoot slotName := by
  have distinct : ((((db.accountStorages.ownedBy account.id).filter fun entry =>
      (slotNames = [] ∨ (ofLex entry.1).2 ∈ slotNames) ∧ entry.2.2 = .map).map fun entry =>
        ((ofLex entry.1).2, entry.2.1)).map Prod.fst).Nodup := by
    have keys := HistoryTable.ownedBy_keys_nodup db.accountStorages account.id
    rw [List.map_map]
    exact (List.filter_sublist.map _).nodup keys
  have read : ∀ root, (db.getStorageMapRoots account.id slotNames)[slotName]? = some root ↔
      db.accountStorages.current account.id slotName = some (root, .map) := by
    intro root
    unfold getStorageMapRoots
    rw [OrderedMap.getElem?_ofList_eq_some_iff _ distinct, List.mem_map]
    constructor
    · rintro ⟨entry, member, same⟩
      obtain ⟨owned, kept⟩ := List.mem_filter.mp member
      obtain ⟨-, stored⟩ := (HistoryTable.mem_ownedBy_iff _ _ _).mp owned
      obtain ⟨rfl, rfl⟩ := Prod.mk.inj same
      rw [stored, ← (of_decide_eq_true kept).2]
    · intro stored
      refine ⟨(toLex (account.id, slotName), root, .map), List.mem_filter.mpr ⟨?_, ?_⟩, rfl⟩
      · exact (HistoryTable.mem_ownedBy_iff _ _ _).mpr ⟨rfl, stored⟩
      · exact decide_eq_true ⟨Or.inr listed, rfl⟩
  unfold Account.mapRoot
  rcases held : account.storage[slotName]? with _ | content
  · rcases found : (db.getStorageMapRoots account.id slotNames)[slotName]? with _ | root
    · rfl
    · rw [read, stores.slots, held] at found
      cases found
  · cases content with
    | map entries =>
      rw [(read (storageMapRoot entries)).mpr (by rw [stores.slots, held]; rfl)]
      rfl
    | value word =>
      rcases found : (db.getStorageMapRoots account.id slotNames)[slotName]? with _ | root
      · rfl
      · rw [read, stores.slots, held] at found
        cases found

/-- The entry in front of the list goes where the vault root leads through the maps. -/
theorem frontAfter_eq (stores : db.StoresAccount forest account) (delta : AccountDelta) :
    frontAfter account.vaultRoot (db.getStorageMapRoots account.id (delta.maps.map Prod.fst))
      (Database.updatedSlots (newMapRoots
        (db.getStorageMapRoots account.id (delta.maps.map Prod.fst)) delta) delta).toList =
      account.vaultRootThroughMaps delta := by
  have listed : ∀ slot ∈ delta.storage.toList, delta.storage[slot.1]? = some slot.2 :=
    fun slot member => ExtTreeMap.mem_toList_iff_getElem?_eq_some.mp member
  have roots : ∀ slotName entries, delta.storage[slotName]? = some (.map entries) →
      (db.getStorageMapRoots account.id (delta.maps.map Prod.fst))[slotName]?.getD
        ProtocolLibrary.emptySmtRoot = account.mapRoot slotName := by
    intro slotName entries changed
    refine getD_getStorageMapRoots stores (List.mem_map.mpr ⟨(slotName, entries), ?_, rfl⟩)
    exact (delta.mem_maps_entry_iff slotName entries).mpr changed
  generalize db.getStorageMapRoots account.id (delta.maps.map Prod.fst) = oldMapRoots at roots
  unfold frontAfter Account.vaultRootThroughMaps Database.updatedSlots AccountDelta.maps
  rw [ExtTreeMap.toList_map, List.foldl_map, List.foldl_filterMap]
  generalize account.vaultRoot = front
  generalize delta.storage.toList = slots at listed
  induction slots generalizing front with
  | nil => rfl
  | cons slot rest inductionHypothesis =>
    have here := listed slot List.mem_cons_self
    have later := fun other member => listed other (List.mem_cons_of_mem slot member)
    rw [List.foldl_cons, List.foldl_cons]
    rcases slot with ⟨slotName, word | entries⟩
    · exact inductionHypothesis front later
    · have old := roots slotName entries here
      have new : newMapRoots oldMapRoots delta slotName =
          updatedMapRoot (account.mapRoot slotName) entries := by
        rw [newMapRoots, here]
        dsimp only
        rw [old]
      dsimp only
      rw [old, new]
      exact inductionHypothesis _ later

/-- The check passes exactly when the assets, set in the tree it reads, give the final root. -/
theorem stageTransaction_ok_iff (stores : db.StoresAccount forest account)
    (executed : ExecutedOnAccount transaction account final) :
    ∃ updatedAssets removedVaultKeys,
      (assetEntries updatedAssets removedVaultKeys).Perm
        (transaction.accountDelta.vaultKeys.map (leafEntry final.vault)) ∧
      ((∃ changes next, db.stageTransaction transaction forest = .ok changes next) ↔
        updatedRoot (account.vaultRootThroughMaps transaction.accountDelta)
          (assetEntries updatedAssets removedVaultKeys) = final.vaultRoot) := by
  have sameAccount : transaction.finalAccount.id = account.id := by
    rw [executed.finalHeader]
    exact executed.sameId
  have vaultRoot : transaction.finalAccount.vaultRoot = final.vaultRoot := by
    rw [executed.finalHeader]
    rfl
  obtain ⟨rest, registered, -⟩ := stores.roots
  have read : ForestM.registeredRoots account.id forest =
      .ok (account.vaultRoot :: rest) forest := by
    rw [ForestM.registeredRoots, ForestM.update, registered]
  obtain ⟨slots, grown, computed, grows, newKnown⟩ := applyAccountStorageDelta_of_known
    transaction.accountDelta forest fun slot member => by
      rw [getD_getStorageMapRoots stores (List.mem_map_of_mem member)]
      exact known_mapRoot stores slot.1
  obtain rfl := applyAccountStorageDelta_eq_ok computed
  obtain ⟨updated, removed, vaultComputed, entries⟩ := computeVaultDelta_eq executed.vault
    (db.getVaultAssets account.id (transaction.accountDelta.fungible.toList.map
      fun change => .fungible change.1)) fun faucetId change changed => by
        have listed : faucetId ∈ transaction.accountDelta.fungible.toList.map Prod.fst :=
          List.mem_map.mpr
            ⟨(faucetId, change), ExtTreeMap.mem_toList_iff_getElem?_eq_some.mpr changed, rfl⟩
        have found := fungibleMap_getVaultAssets executed.vault.validBefore stores.assets listed
        rw [List.map_map] at found
        exact found
  have knownFront : Known grown (account.vaultRootThroughMaps transaction.accountDelta) := by
    rw [← frontAfter_eq stores]
    exact frontAfter_of_all _ _ _ (grows.trees _ (stores.trees _ List.mem_cons_self))
      fun slot member isMap => newKnown slot.1 slot.2.1 (by
        rw [ExtTreeMap.mem_toList_iff_getElem?_eq_some.mp member, ← isMap])
  obtain ⟨last, inserted, -⟩ := updateAssetNodes_of_known knownFront updated removed
  refine ⟨updated, removed, entries, ?_⟩
  unfold stageTransaction
  dsimp only
  rw [sameAccount, Fallible.bind_of_result_ok read,
    Fallible.bind_of_result_ok (show computeStorageDelta _ _ forest = _ from computed),
    Fallible.bind_of_result_ok (ForestM.liftExcept_eq_ok.mpr ⟨vaultComputed, rfl⟩),
    List.headD_eq_head?_getD, head?_replaceMapRoots, frontAfter_eq stores]
  dsimp only [Option.getD_some]
  rw [Fallible.bind_of_result_ok (ForestM.update_eq_ok.mpr inserted), vaultRoot]
  split
  · rename_i same
    exact ⟨fun _ => same, fun _ => ⟨_, _, rfl⟩⟩
  · rename_i different
    refine ⟨fun passed => ?_, fun same => absurd same different⟩
    obtain ⟨changes, next, passed⟩ := passed
    cases passed

end IdxdbDatabase

/-- The final vault has the tree of the old one with the leaves of the changed keys set. -/
theorem AccountDelta.AppliesToVault.leaves_vaultRoot {delta : AccountDelta}
    {account final : Account} {leaves : Word → Word → Word} (law : SmtLaw leaves)
    (injective : Function.Injective ProtocolLibrary.vaultKeyWord)
    (applies : delta.AppliesToVault account.vault final.vault) {entries : List (Word × Word)}
    (changed : entries.Perm (delta.vaultKeys.map (leafEntry final.vault))) :
    leaves final.vaultRoot = setLeaves (leaves account.vaultRoot) entries := by
  have keys : (entries.map Prod.fst).Perm
      (delta.vaultKeys.map ProtocolLibrary.vaultKeyWord) := by
    refine (changed.map Prod.fst).trans (List.Perm.of_eq ?_)
    rw [List.map_map]
    rfl
  have distinct : (entries.map Prod.fst).Nodup :=
    keys.nodup_iff.mpr (delta.vaultKeys_nodup.map injective)
  funext word
  by_cases isKey : ∃ key, ProtocolLibrary.vaultKeyWord key = word
  · obtain ⟨key, rfl⟩ := isKey
    rw [MidenClient.leaves_vaultRoot law injective]
    by_cases listed : key ∈ delta.vaultKeys
    · exact (setLeaves_of_entry distinct
        (changed.mem_iff.mpr (List.mem_map.mpr ⟨key, listed, rfl⟩)) _).symm
    · have absent : ProtocolLibrary.vaultKeyWord key ∉ entries.map Prod.fst := by
        rw [keys.mem_iff, List.mem_map_of_injective injective]
        exact listed
      rw [setLeaves_of_notMem absent, MidenClient.leaves_vaultRoot law injective, vaultLeaf,
        applies.unchanged key listed]
      rfl
  · have notKey : ∀ key, ProtocolLibrary.vaultKeyWord key ≠ word :=
      fun key same => isKey ⟨key, same⟩
    have absent : word ∉ entries.map Prod.fst := by
      rw [keys.mem_iff, List.mem_map]
      rintro ⟨key, -, same⟩
      exact notKey key same
    rw [setLeaves_of_notMem absent, leaves_vaultRoot_of_notKey law _ notKey,
      leaves_vaultRoot_of_notKey law _ notKey]

theorem smtTree_vaultRootThroughMaps (account : Account) (delta : AccountDelta) :
    SmtTree (account.vaultRootThroughMaps delta) := by
  unfold Account.vaultRootThroughMaps
  refine List.foldlRecOn (motive := SmtTree) delta.maps _ (smtTree_vaultRoot account) ?_
  intro root tree slot _
  split
  · rename_i same
    rw [← same]
    unfold updatedMapRoot
    split
    · exact tree
    · exact tree.batchInsert _
  · exact tree

namespace IdxdbDatabase

variable {db : IdxdbDatabase} {forest : AccountSmtForest} {transaction : ExecutedTransaction}
  {account final : Account} {leaves : Word → Word → Word}

/-- The vault root check accepts an executed transaction exactly when the tree that the vault root
leads to through the changed maps agrees with the vault outside the changed assets. -/
theorem stageTransaction_accepts_iff (law : SmtLaw leaves)
    (injective : Function.Injective ProtocolLibrary.vaultKeyWord)
    (stores : db.StoresAccount forest account)
    (executed : ExecutedOnAccount transaction account final) :
    (∃ changes next, db.stageTransaction transaction forest = .ok changes next) ↔
      ∀ word, word ∉ transaction.accountDelta.vaultKeys.map ProtocolLibrary.vaultKeyWord →
        leaves (account.vaultRootThroughMaps transaction.accountDelta) word =
          leaves account.vaultRoot word := by
  obtain ⟨updated, removed, changed, accepted⟩ := stageTransaction_ok_iff stores executed
  have tree := smtTree_vaultRootThroughMaps account transaction.accountDelta
  have keys : ∀ word, word ∈ (assetEntries updated removed).map Prod.fst ↔
      word ∈ transaction.accountDelta.vaultKeys.map ProtocolLibrary.vaultKeyWord := by
    intro word
    rw [(changed.map Prod.fst).mem_iff, List.map_map]
    rfl
  have roots : updatedRoot (account.vaultRootThroughMaps transaction.accountDelta)
        (assetEntries updated removed) = final.vaultRoot ↔
      setLeaves (leaves (account.vaultRootThroughMaps transaction.accountDelta))
          (assetEntries updated removed) =
        setLeaves (leaves account.vaultRoot) (assetEntries updated removed) := by
    rw [← law.updatedRoot tree, ← executed.vault.leaves_vaultRoot law injective changed]
    refine ⟨congrArg leaves, law.collisionFree _ _ (tree.updatedRoot _) ?_⟩
    exact smtTree_vaultRoot final
  rw [accepted, roots, setLeaves_eq_iff]
  constructor
  · exact fun agree word absent => agree word fun listed => absent ((keys word).mp listed)
  · exact fun agree word absent => agree word fun listed => absent ((keys word).mpr listed)

/-! ### Inserted accounts -/

/-- Inserting the assets of an account adds the tree of its vault. -/
theorem known_insertAssetNodes (law : SmtLaw leaves) (forest : AccountSmtForest)
    (account : Account) :
    Known (forest.insertAssetNodes account) account.vaultRoot ∧
      Grows forest (forest.insertAssetNodes account) := by
  unfold AccountSmtForest.insertAssetNodes
  split
  · rename_i nothing
    refine ⟨Or.inl ?_, .refl forest⟩
    unfold Account.vaultRoot
    rw [List.isEmpty_iff.mp ((ExtTreeMap.isEmpty_toList).trans nothing), List.map_nil]
    exact law.batchInsert_nil
  · exact ⟨Or.inr (Finset.mem_insert_self _ _), ⟨rfl, rfl, rfl⟩,
      fun other present => present.imp id (Finset.mem_insert_of_mem ·)⟩

/-- Inserting the maps of an account adds their trees. -/
theorem known_insertStorageMapNodes (law : SmtLaw leaves) (forest : AccountSmtForest)
    (account : Account) :
    (∀ root ∈ (AccountSmtForest.collectAccountRoots account).tail,
      Known (forest.insertStorageMapNodes account) root) ∧
      Grows forest (forest.insertStorageMapNodes account) := by
  unfold AccountSmtForest.insertStorageMapNodes AccountSmtForest.collectAccountRoots
  rw [List.tail_cons]
  generalize account.storage.toList = slots
  induction slots generalizing forest with
  | nil => exact ⟨fun root member => (by cases member), .refl forest⟩
  | cons slot rest inductionHypothesis =>
    rw [List.foldl_cons]
    rcases slot with ⟨slotName, word | entries⟩
    · exact inductionHypothesis forest
    · rw [List.filterMap_cons]
      dsimp only
      split
      · rename_i nothing
        obtain ⟨known, grows⟩ := inductionHypothesis forest
        refine ⟨fun root member => ?_, grows⟩
        rcases List.mem_cons.mp member with rfl | later
        · refine Or.inl ?_
          unfold storageMapRoot
          rw [List.isEmpty_iff.mp ((ExtTreeMap.isEmpty_toList).trans nothing), List.map_nil]
          exact law.batchInsert_nil
        · exact known root later
      · obtain ⟨known, grows⟩ := inductionHypothesis
          { forest with forest := ⟨insert (storageMapRoot entries) forest.forest.roots⟩ }
        refine ⟨fun root member => ?_, ⟨⟨grows.registration.accountRoots,
          grows.registration.pendingOldRoots, grows.registration.rootRefcounts⟩,
          fun root present => ?_⟩⟩
        · rcases List.mem_cons.mp member with rfl | later
          · exact grows.trees _ (Or.inr (Finset.mem_insert_self _ _))
          · exact known root later
        · exact grows.trees root (present.imp id (Finset.mem_insert_of_mem ·))

/-- An account that is new to the forest is stored and registered when it was inserted. -/
theorem insertAccount_storesAccount (law : SmtLaw leaves) (db : IdxdbDatabase)
    (valid : ValidVault account.vault) {next : AccountSmtForest}
    (absent : forest.getRoots account.id = none)
    (registered : forest.insertAndRegisterAccountState account = .ok next) :
    (db.insertAccount account).StoresAccount next account := by
  obtain ⟨knownMaps, growsMaps⟩ := known_insertStorageMapNodes law forest account
  obtain ⟨knownVault, growsVault⟩ :=
    known_insertAssetNodes law (forest.insertStorageMapNodes account) account
  have grows := growsMaps.trans growsVault
  have missing : (forest.insertAccountState account).accountRoots[account.id]? = none := by
    rw [show (forest.insertAccountState account).accountRoots = forest.accountRoots from
      grows.registration.accountRoots]
    exact absent
  unfold AccountSmtForest.insertAndRegisterAccountState AccountSmtForest.replaceRoots at registered
  rw [missing] at registered
  split at registered
  · cases registered
  · cases registered
    constructor
    case roots =>
      refine ⟨_, ?_, List.Perm.refl _⟩
      exact ExtTreeMap.getElem?_insert_self
    case trees =>
      intro root member
      rcases List.mem_cons.mp member with rfl | later
      · exact knownVault
      · exact growsVault.trees root (knownMaps root later)
    case assets =>
      intro key
      refine Option.ext fun asset => ?_
      refine (HistoryTable.current_upsert _ _ (Account.vaultAssets_keys_nodup valid.keyed) key
        asset).trans ?_
      rw [Account.vaultAssets_eq valid.keyed]
      exact ExtTreeMap.mem_toList_iff_getElem?_eq_some
    case slots =>
      intro slotName
      refine Option.ext fun value => ?_
      refine (HistoryTable.current_upsert _ _ account.storageSlots_keys_nodup _ _).trans ?_
      exact account.mem_storageSlots_iff slotName value

end IdxdbDatabase

end Library

/-! ### An empty vault and an empty map -/

theorem Account.vaultRootThroughMaps_of_ne [ProtocolLibrary] {account : Account}
    {delta : AccountDelta}
    (different : ∀ slot ∈ delta.maps, account.vaultRoot ≠ account.mapRoot slot.1) :
    account.vaultRootThroughMaps delta = account.vaultRoot := by
  unfold vaultRootThroughMaps
  refine List.foldlRecOn (motive := (· = account.vaultRoot)) delta.maps _ rfl ?_
  rintro root rfl slot member
  exact if_neg (different slot member)

namespace Trees

open IdxdbDatabase

/-- An account with an empty map. -/
def mapAccount (vault : ExtTreeMap AssetVaultKey Asset) : Account :=
  { Sample.mapAccount with vault := vault }

/-- The account after the first entry of the map was set. -/
def mapAccountAfter (vault : ExtTreeMap AssetVaultKey Asset) : Account :=
  { Sample.mapAccount with
    nonce := 2
    vault := vault
    storage := (∅ : ExtTreeMap StorageSlotName StorageSlotContent).insert 3
      (.map ((∅ : ExtTreeMap StorageMapKey Word).insert 5 6)) }

/-- The transaction that set it. -/
def setEntry (before after : ExtTreeMap AssetVaultKey Asset)
    (fungible : ExtTreeMap AccountId ℤ) : ExecutedTransaction where
  initialAccount := (mapAccount before).toHeader
  finalAccount := (mapAccountAfter after).toHeader
  accountDelta := Sample.mapDelta fungible
  sameAccount := rfl

/-- A vault with an amount of one asset. -/
def vaultWith (amount : ℕ) : ExtTreeMap AssetVaultKey Asset :=
  (∅ : ExtTreeMap AssetVaultKey Asset).insert (.fungible 9) (.fungible ⟨9, amount⟩)

theorem validVault_vaultWith {amount : ℕ} (positive : 0 < amount) (small : amount ≤ 10) :
    ValidVault (vaultWith amount) := by
  have found : ∀ (key : AssetVaultKey) (asset : Asset), (vaultWith amount)[key]? = some asset →
      AssetVaultKey.fungible 9 = key ∧ Asset.fungible ⟨9, amount⟩ = asset := by
    intro key asset stored
    unfold vaultWith at stored
    rw [ExtTreeMap.getElem?_insert] at stored
    split at stored
    · rename_i same
      exact ⟨Std.compare_eq_iff_eq.mp same, Option.some.inj stored⟩
    · cases stored
  constructor
  · intro key asset stored
    obtain ⟨rfl, rfl⟩ := found key asset stored
    rfl
  · intro key asset stored
    obtain ⟨-, same⟩ := found key _ stored
    cases same
    exact ⟨positive, small.trans (by decide)⟩

/-- Two units of the asset leave a vault with five. -/
theorem appliesToVault_spend :
    (Sample.mapDelta ((∅ : ExtTreeMap AccountId ℤ).insert 9 (-2))).AppliesToVault (vaultWith 5)
      (vaultWith 3) := by
  refine ⟨validVault_vaultWith (by decide) (by decide),
    validVault_vaultWith (by decide) (by decide), ?_, ?_, ?_⟩
  · intro faucetId change found
    change ((∅ : ExtTreeMap AccountId ℤ).insert 9 (-2))[faucetId]? = some change at found
    rw [ExtTreeMap.getElem?_insert] at found
    split at found
    · rename_i same
      cases found
      rw [← Std.compare_eq_iff_eq.mp same]
      decide
    · cases found
  · intro asset action found
    cases found
  · intro key absent
    have different : ¬ compare (AssetVaultKey.fungible 9) key = .eq := by
      rw [Std.compare_eq_iff_eq]
      rintro rfl
      exact absent List.mem_cons_self
    show (vaultWith 3)[key]? = (vaultWith 5)[key]?
    unfold vaultWith
    rw [ExtTreeMap.getElem?_insert, ExtTreeMap.getElem?_insert, if_neg different,
      if_neg different]

theorem validVault_empty : ValidVault (∅ : ExtTreeMap AssetVaultKey Asset) :=
  ⟨fun _ _ stored => (by cases stored), fun _ _ stored => (by cases stored)⟩

/-- The empty map has the root of the empty tree. -/
theorem mapRoot_eq (vault : ExtTreeMap AssetVaultKey Asset) :
    (mapAccount vault).mapRoot 3 = library.emptySmtRoot :=
  smtLaw.batchInsert_nil

/-- A map that gets its first entry does not disturb the check when the vault holds an asset. -/
theorem stageTransaction_accepts_funded :
    ∃ forest, AccountSmtForest.new.insertAndRegisterAccountState (mapAccount (vaultWith 5)) =
        .ok forest ∧
      ∃ changes next, (IdxdbDatabase.empty.insertAccount
        (mapAccount (vaultWith 5))).stageTransaction
        (setEntry (vaultWith 5) (vaultWith 3) ((∅ : ExtTreeMap AccountId ℤ).insert 9 (-2)))
          forest = .ok changes next := by
  obtain ⟨forest, registered⟩ : ∃ forest,
      AccountSmtForest.new.insertAndRegisterAccountState (mapAccount (vaultWith 5)) = .ok forest :=
    ⟨_, rfl⟩
  refine ⟨forest, registered, ?_⟩
  have stores := insertAccount_storesAccount smtLaw IdxdbDatabase.empty
    (validVault_vaultWith (by decide) (by decide)) rfl registered
  have executed : ExecutedOnAccount (setEntry (vaultWith 5) (vaultWith 3)
      ((∅ : ExtTreeMap AccountId ℤ).insert 9 (-2))) (mapAccount (vaultWith 5))
      (mapAccountAfter (vaultWith 3)) :=
    ⟨rfl, rfl, appliesToVault_spend⟩
  refine (stageTransaction_accepts_iff smtLaw vaultKeyWord_injective stores executed).mpr ?_
  intro word _
  rw [Account.vaultRootThroughMaps_of_ne]
  intro slot member
  obtain rfl := List.mem_singleton.mp member
  -- the leaf of the asset tells the two trees apart
  intro same
  have funded := leaves_vaultRoot smtLaw vaultKeyWord_injective (mapAccount (vaultWith 5))
    (.fungible 9)
  rw [same, mapRoot_eq, smtLaw.empty] at funded
  exact absurd funded (by decide)

/-- An empty vault has the root of an empty map. The first entry of the map then makes the check
set the assets in the tree of the map, and reject the transaction. -/
theorem not_stageTransaction_emptyVault :
    ∃ forest, AccountSmtForest.new.insertAndRegisterAccountState (mapAccount ∅) = .ok forest ∧
      (IdxdbDatabase.empty.insertAccount (mapAccount ∅)).StoresAccount forest (mapAccount ∅) ∧
      ExecutedOnAccount (setEntry ∅ ∅ ∅) (mapAccount ∅) (mapAccountAfter ∅) ∧
      ¬∃ changes next, (IdxdbDatabase.empty.insertAccount (mapAccount ∅)).stageTransaction
        (setEntry ∅ ∅ ∅) forest = .ok changes next := by
  obtain ⟨forest, registered⟩ : ∃ forest,
      AccountSmtForest.new.insertAndRegisterAccountState (mapAccount ∅) = .ok forest := ⟨_, rfl⟩
  have stores : (IdxdbDatabase.empty.insertAccount (mapAccount ∅)).StoresAccount forest
      (mapAccount ∅) :=
    insertAccount_storesAccount smtLaw IdxdbDatabase.empty validVault_empty rfl registered
  have executed : ExecutedOnAccount (setEntry ∅ ∅ ∅) (mapAccount ∅) (mapAccountAfter ∅) := by
    refine ⟨rfl, rfl, validVault_empty, validVault_empty, ?_, ?_, fun _ _ => rfl⟩
    · intro faucetId change found
      cases found
    · intro asset action found
      cases found
  refine ⟨forest, registered, stores, executed, ?_⟩
  obtain ⟨updated, removed, changed, accepted⟩ := stageTransaction_ok_iff stores executed
  have through : (mapAccount ∅).vaultRootThroughMaps (setEntry ∅ ∅ ∅).accountDelta =
      library.smtBatchInsert library.emptySmtRoot [(5, 6)] := by
    unfold Account.vaultRootThroughMaps
    show (if (mapAccount ∅).vaultRoot = (mapAccount ∅).mapRoot 3 then _ else _) = _
    rw [mapRoot_eq]
    exact if_pos smtLaw.batchInsert_nil
  rw [accepted, List.perm_nil.mp changed, through]
  intro same
  have entry := congrFun (smtLaw.batchInsert library.emptySmtRoot [(5, 6)] .empty) 5
  have here : library.smtBatchInsert library.emptySmtRoot [(5, 6)] = library.emptySmtRoot :=
    same.trans smtLaw.batchInsert_nil
  rw [here, smtLaw.empty] at entry
  exact absurd entry (by decide)

end Trees

end MidenClient
