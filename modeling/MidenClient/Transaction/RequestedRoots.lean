/-
This file says when the data store gives out witnesses for the roots it is asked about.

Witnesses that come from the local maps or from cached account inputs open the requested
tree. The witness of a stored asset opens the vault of the latest header of its account,
and the witness fetched from the node opens whatever tree the node has at the tip of its
chain; neither root is compared with the requested one. The latter is cached under the
requested root, and served from there.
-/

import MidenClient.Library.Run
import MidenClient.Store.SmtTree
import MidenClient.Transaction.DataStore

namespace MidenClient

open Std (ExtTreeMap)
open Fallible

section Library

variable [ProtocolLibrary] [WitnessLibrary]

/-- The witness opens the map with the root for the key. -/
def StorageMapWitness.OpensEntry (witness : StorageMapWitness) (mapRoot : Word)
    (mapKey : StorageMapKey) : Prop :=
  witness.keys = [mapKey] ∧ witness.proof.Opens mapRoot (ProtocolLibrary.mapKeyHash mapKey)

namespace ClientDataStore

/-! ### Vault assets -/

section Vault

variable {env : DataStoreEnvironment} {accountId : AccountId} {vaultRoot : Word}
  {vaultKey : AssetVaultKey} {vaultKeys : List AssetVaultKey}

/-- The store holds the asset and can open it. -/
def CanOpenAsset (env : DataStoreEnvironment) (accountId : AccountId) (vaultKey : AssetVaultKey) :
    Prop :=
  ∃ found, env.accounts.getAccountAsset accountId vaultKey = .ok (some found)

/-- The latest vault of the account has the root. -/
def HasVaultRoot (env : DataStoreEnvironment) (accountId : AccountId) (vaultRoot : Word) : Prop :=
  ∃ header, env.accounts.header accountId = some header ∧ header.vaultRoot = vaultRoot

/-- An account of which no header is stored cannot be asked for an asset. -/
theorem exists_header {result : Except AccountReadError (Option (Asset × AssetWitness))}
    (answered : env.accounts.getAccountAsset accountId vaultKey = result)
    (other : result ≠ .error (.storeError (.accountDataNotFound accountId))) :
    ∃ header, env.accounts.header accountId = some header := by
  cases stored : env.accounts.header accountId with
  | some header => exact ⟨header, rfl⟩
  | none =>
    refine absurd ?_ other
    rw [← answered]
    unfold AccountTables.getAccountAsset
    rw [stored]

/-- A vault that is opened as a whole is the requested one. -/
theorem openWholeVault_eq_ok {witness : AssetWitness}
    (stored : ∃ header, env.accounts.header accountId = some header)
    (opened : openWholeVault env accountId vaultRoot vaultKey = .ok witness) :
    HasVaultRoot env accountId vaultRoot ∧
      witness.proof.Opens vaultRoot (ProtocolLibrary.vaultKeyWord vaultKey) := by
  obtain ⟨header, stored⟩ := stored
  obtain ⟨vault, read, opened⟩ := bind_eq_ok.mp opened
  have latest := (env.accounts.consistent accountId).root_of_getAccountVault stored
    (eq_ok_of_mapError read)
  split at opened
  · cases opened
  · rename_i matching
    have requested := not_not.mp matching
    have made := AssetWitness.new_eq_ok (eq_ok_of_mapError opened)
    refine ⟨⟨header, stored, latest.symm.trans requested⟩, ?_⟩
    rw [made, ← requested]
    exact WitnessLibrary.openTree_opens _ _

/-- An asset that the store can open is opened in the latest vault, and any other asset in the
requested one. -/
theorem vaultAssetWitness_eq_ok {witness : AssetWitness}
    (found : vaultAssetWitness env accountId vaultRoot vaultKey = .ok witness) :
    (∃ header, CanOpenAsset env accountId vaultKey ∧
      env.accounts.header accountId = some header ∧
        witness.proof.Opens header.vaultRoot (ProtocolLibrary.vaultKeyWord vaultKey)) ∨
      (¬CanOpenAsset env accountId vaultKey ∧ HasVaultRoot env accountId vaultRoot ∧
        witness.proof.Opens vaultRoot (ProtocolLibrary.vaultKeyWord vaultKey)) := by
  unfold vaultAssetWitness at found
  split at found
  · rename_i asset assetWitness opened
    cases found
    obtain ⟨header, stored, opens⟩ := AccountTables.getAccountAsset_opens opened
    exact Or.inl ⟨header, ⟨_, opened⟩, stored, opens⟩
  · rename_i absent
    refine Or.inr ⟨fun ⟨_, opened⟩ => ?_, openWholeVault_eq_ok (exists_header absent (nofun)) found⟩
    rw [absent] at opened
    cases opened
  · rename_i unknown
    refine Or.inr ⟨fun ⟨_, opened⟩ => ?_,
      openWholeVault_eq_ok (exists_header unknown (nofun)) found⟩
    rw [unknown] at opened
    cases opened
  · cases found

/-- An asset that the store can open is given out without a look at the requested root. -/
theorem vaultAssetWitness_of_canOpen (opens : CanOpenAsset env accountId vaultKey) :
    ∃ witness, vaultAssetWitness env accountId vaultRoot vaultKey = .ok witness := by
  obtain ⟨⟨asset, witness⟩, opened⟩ := opens
  refine ⟨witness, ?_⟩
  unfold vaultAssetWitness
  rw [opened]

/-- The witnesses open the requested vault, one for every key. -/
def OpenVault (vaultRoot : Word) (vaultKeys : List AssetVaultKey) (witnesses : List AssetWitness) :
    Prop :=
  List.Forall₂ (fun vaultKey witness =>
    witness.proof.Opens vaultRoot (ProtocolLibrary.vaultKeyWord vaultKey)) vaultKeys witnesses

/-- The results of a successful loop, in order. -/
theorem getVaultAssetWitnesses_eq_ok {witnesses : List AssetWitness}
    (found : getVaultAssetWitnesses env accountId vaultRoot vaultKeys = .ok witnesses) :
    List.Forall₂ (fun vaultKey witness =>
      vaultAssetWitness env accountId vaultRoot vaultKey = .ok witness) vaultKeys witnesses := by
  unfold getVaultAssetWitnesses at found
  induction vaultKeys generalizing witnesses with
  | nil =>
    cases found
    exact .nil
  | cons vaultKey rest inductionHypothesis =>
    rw [List.mapM_cons] at found
    obtain ⟨witness, first, found⟩ := bind_eq_ok.mp found
    obtain ⟨others, later, returned⟩ := bind_eq_ok.mp found
    cases returned
    exact .cons first (inductionHypothesis later)

theorem getVaultAssetWitnesses_of_canOpen
    (opens : ∀ vaultKey ∈ vaultKeys, CanOpenAsset env accountId vaultKey) :
    ∃ witnesses, getVaultAssetWitnesses env accountId vaultRoot vaultKeys = .ok witnesses := by
  unfold getVaultAssetWitnesses
  induction vaultKeys with
  | nil => exact ⟨[], rfl⟩
  | cons vaultKey rest inductionHypothesis =>
    obtain ⟨witness, first⟩ :
        ∃ witness, vaultAssetWitness env accountId vaultRoot vaultKey = .ok witness :=
      vaultAssetWitness_of_canOpen (opens vaultKey List.mem_cons_self)
    obtain ⟨others, later⟩ := inductionHypothesis fun other member =>
      opens other (List.mem_cons_of_mem vaultKey member)
    refine ⟨witness :: others, ?_⟩
    rw [List.mapM_cons]
    exact bind_eq_ok.mpr ⟨witness, first, bind_eq_ok.mpr ⟨others, later, rfl⟩⟩

/-- The witnesses of assets open the requested vault exactly when that is the latest one, or not all
of the assets can be opened, which makes the request fail unless the root is the latest. -/
theorem getVaultAssetWitnesses_open_iff :
    (∀ witnesses, getVaultAssetWitnesses env accountId vaultRoot vaultKeys = .ok witnesses →
      OpenVault vaultRoot vaultKeys witnesses) ↔
      (vaultKeys ≠ [] → (∀ vaultKey ∈ vaultKeys, CanOpenAsset env accountId vaultKey) →
        HasVaultRoot env accountId vaultRoot) := by
  constructor
  · intro requested some_ opens
    obtain ⟨witnesses, found⟩ :
        ∃ witnesses, getVaultAssetWitnesses env accountId vaultRoot vaultKeys = .ok witnesses :=
      getVaultAssetWitnesses_of_canOpen opens
    obtain ⟨first, rest, rfl⟩ := List.exists_cons_of_ne_nil some_
    have all := requested witnesses found
    have each := getVaultAssetWitnesses_eq_ok found
    cases all with
    | cons opened _ =>
      cases each with
      | cons answered _ =>
        rcases vaultAssetWitness_eq_ok answered with ⟨header, _, stored, latest⟩ | ⟨absent, _⟩
        · exact ⟨header, stored, latest.1.symm.trans opened.1⟩
        · exact absurd (opens first List.mem_cons_self) absent
  · intro condition witnesses found
    have each := getVaultAssetWitnesses_eq_ok found
    have latest : vaultKeys ≠ [] → HasVaultRoot env accountId vaultRoot := by
      intro some_
      by_cases opens : ∀ vaultKey ∈ vaultKeys, CanOpenAsset env accountId vaultKey
      · exact condition some_ opens
      · rw [not_forall] at opens
        obtain ⟨vaultKey, opens⟩ := opens
        obtain ⟨listed, absent⟩ := Classical.not_imp.mp opens
        obtain ⟨witness, _, answered⟩ := exists_of_forall₂_left each listed
        rcases vaultAssetWitness_eq_ok answered with ⟨_, opened, _⟩ | ⟨_, requested, _⟩
        · exact absurd opened absent
        · exact requested
    refine List.forall₂_iff_get.mpr ⟨each.length_eq, fun position below below' => ?_⟩
    have answered := (List.forall₂_iff_get.mp each).2 position below below'
    rcases vaultAssetWitness_eq_ok answered with ⟨header, _, stored, opens⟩ | ⟨_, _, opens⟩
    · obtain ⟨same, again, root⟩ := latest (List.ne_nil_of_length_pos (by omega))
      obtain rfl := Option.some.inj (stored.symm.trans again)
      rw [← root]
      exact opens
    · exact opens

end Vault

/-! ### Storage map entries -/

variable [PartialAccountConstructors]

section Maps

variable {env : DataStoreEnvironment} {accountId : AccountId} {mapRoot : Word}
  {mapKey : StorageMapKey} {dataStore : ClientDataStore}

/-- Every cached witness opens the map it is cached for. -/
def CacheSound (dataStore : ClientDataStore) : Prop :=
  ∀ (mapRoot : Word) (mapKey : StorageMapKey) (witness : StorageMapWitness),
    dataStore.storageMapCache[toLex (mapRoot, mapKey)]? = some witness →
      witness.OpensEntry mapRoot mapKey

/-- With its inputs at hand, the account is asked about at the tip of the chain, and the node
answers a proof for the key. -/
def PreparedAsksAtTip (env : DataStoreEnvironment) (accountId : AccountId) (mapRoot : Word)
    (mapKey : StorageMapKey) (prepared : ClientDataStore) (proof : SmtProof) : Prop :=
  prepared.cachedInputsWitness accountId mapRoot mapKey = none ∧
    ∃ slotName knownCode,
      prepared.resolveSlotNameAndCode accountId mapRoot = .ok (slotName, knownCode) ∧
        storageMapProofAtTip env accountId slotName mapKey knownCode = .ok proof ∧
          (proof.get (ProtocolLibrary.mapKeyHash mapKey)).isSome = true

/-- The inputs of the account are cached or can be fetched. -/
def AsksAtTip (env : DataStoreEnvironment) (accountId : AccountId) (mapRoot : Word)
    (mapKey : StorageMapKey) (dataStore : ClientDataStore) (proof : SmtProof) : Prop :=
  ∃ prepared, ensureForeignAccount env accountId dataStore = .ok () prepared ∧
    PreparedAsksAtTip env accountId mapRoot mapKey prepared proof

/-- The request gets as far as asking the node at the tip of its chain. -/
structure AnsweredAtTip (env : DataStoreEnvironment) (accountId : AccountId) (mapRoot : Word)
    (mapKey : StorageMapKey) (dataStore : ClientDataStore) (proof : SmtProof) : Prop where
  notCached : dataStore.storageMapCache[toLex (mapRoot, mapKey)]? = none
  notLocal : getLocalStorageMapWitness env accountId mapRoot mapKey = .ok none
  asks : AsksAtTip env accountId mapRoot mapKey dataStore proof

/-- The node gives one answer. -/
theorem AnsweredAtTip.unique {first second : SmtProof}
    (one : AnsweredAtTip env accountId mapRoot mapKey dataStore first)
    (two : AnsweredAtTip env accountId mapRoot mapKey dataStore second) : first = second := by
  obtain ⟨prepared, ensured, _, slotName, knownCode, resolved, answer, _⟩ := one.asks
  obtain ⟨prepared', ensured', _, slotName', knownCode', resolved', answer', _⟩ := two.asks
  rw [ensured] at ensured'
  cases ensured'
  rw [resolved] at resolved'
  cases resolved'
  exact Except.ok.inj (answer.symm.trans answer')

omit [PartialAccountConstructors] in
theorem openStorageMap_opens (entries : ExtTreeMap StorageMapKey Word) :
    (openStorageMap entries mapKey).OpensEntry (storageMapRoot entries) mapKey :=
  ⟨rfl, WitnessLibrary.openTree_opens _ _⟩

omit [PartialAccountConstructors] in
/-- A witness from the local store opens the map with the root. -/
theorem getLocalStorageMapWitness_opens {witness : StorageMapWitness}
    (found : getLocalStorageMapWitness env accountId mapRoot mapKey = .ok (some witness)) :
    witness.OpensEntry mapRoot mapKey := by
  unfold getLocalStorageMapWitness at found
  split at found
  · cases found
  · cases found
  · rename_i entries rest read
    cases found
    rw [← (env.accounts.consistent accountId).root_of_getAccountStorage read List.mem_cons_self]
    exact openStorageMap_opens entries
  · cases found

omit [PartialAccountConstructors] in
/-- A witness from cached account inputs opens the map with the root. -/
theorem cachedInputsWitness_opens {witness : StorageMapWitness}
    (found : dataStore.cachedInputsWitness accountId mapRoot mapKey = some witness) :
    witness.OpensEntry mapRoot mapKey := by
  obtain ⟨inputs, _, found⟩ := Option.bind_eq_some_iff.mp found
  obtain ⟨partialMap, listed, opened⟩ := Option.bind_eq_some_iff.mp found
  have matching := List.find?_some listed
  unfold PartialStorageMap.openKey at opened
  split at opened
  · cases opened
    rw [← of_decide_eq_true matching]
    exact ⟨rfl, WitnessLibrary.openTree_opens _ _⟩
  · cases opened

omit [WitnessLibrary] in
/-- Fetching a foreign account leaves the witness cache alone. -/
theorem fetchAndCacheForeignAccount_cache (env : DataStoreEnvironment) (accountId : AccountId)
    (stateAt : AccountStateAt) (dataStore : ClientDataStore) :
    (finalState (fetchAndCacheForeignAccount env accountId stateAt dataStore)).storageMapCache =
      dataStore.storageMapCache := by
  unfold fetchAndCacheForeignAccount
  cases fetched : fetchPublicAccountInputs env accountId [] stateAt with
  | error reason => rfl
  | ok inputs => rfl

omit [WitnessLibrary] in
theorem ensureForeignAccount_cache (env : DataStoreEnvironment) (accountId : AccountId)
    (dataStore : ClientDataStore) :
    (finalState (ensureForeignAccount env accountId dataStore)).storageMapCache =
      dataStore.storageMapCache := by
  unfold ensureForeignAccount
  show (finalState ((if _ then _ else _ : DataStoreM Unit) dataStore)).storageMapCache = _
  split
  · rfl
  · cases dataStore.refBlock with
    | none => rfl
    | some refBlock =>
      exact (view_finalState_bind storageMapCache (fun _ _ => rfl) dataStore).trans
        (fetchAndCacheForeignAccount_cache env accountId (.block refBlock) dataStore)

/-- The node is not asked at the tip: the witness is a good one, or there is none, and the cache
stays as it is. -/
structure AnsweredBefore (mapRoot : Word) (mapKey : StorageMapKey) (dataStore : ClientDataStore)
    (result : EStateM.Result DataStoreError ClientDataStore StorageMapWitness) : Prop where
  cache : (finalState result).storageMapCache = dataStore.storageMapCache
  opens : ∀ witness last, result = .ok witness last → witness.OpensEntry mapRoot mapKey

/-- The node is asked at the tip, and its answer is given out and cached as it is. -/
structure AnsweredWith (mapRoot : Word) (mapKey : StorageMapKey) (dataStore : ClientDataStore)
    (proof : SmtProof)
    (result : EStateM.Result DataStoreError ClientDataStore StorageMapWitness) : Prop where
  cache : (finalState result).storageMapCache =
    dataStore.storageMapCache.insert (toLex (mapRoot, mapKey)) ⟨proof, [mapKey]⟩
  witness : ∃ last, result = .ok ⟨proof, [mapKey]⟩ last

omit [WitnessLibrary] [PartialAccountConstructors] in
/-- A failure before the node is asked at the tip. -/
theorem AnsweredBefore.of_error {reason : DataStoreError} {last : ClientDataStore}
    (kept : last.storageMapCache = dataStore.storageMapCache) :
    AnsweredBefore mapRoot mapKey dataStore (.error reason last) :=
  ⟨kept, fun _ _ same => (nomatch same)⟩

omit [WitnessLibrary] [PartialAccountConstructors] in
theorem AnsweredBefore.of_ok {witness : StorageMapWitness} {last : ClientDataStore}
    (kept : last.storageMapCache = dataStore.storageMapCache)
    (opens : witness.OpensEntry mapRoot mapKey) :
    AnsweredBefore mapRoot mapKey dataStore (.ok witness last) := by
  refine ⟨kept, fun other final same => ?_⟩
  cases same
  exact opens

omit [WitnessLibrary] [PartialAccountConstructors] in
/-- Once the slot is resolved, the node is asked at the tip. -/
theorem fetchAndCacheStorageMapWitness_cases (slotName : StorageSlotName) (knownCode : Word) :
    (∃ proof, storageMapProofAtTip env accountId slotName mapKey knownCode = .ok proof ∧
      (proof.get (ProtocolLibrary.mapKeyHash mapKey)).isSome = true ∧
        AnsweredWith mapRoot mapKey dataStore proof
          (fetchAndCacheStorageMapWitness env accountId mapRoot slotName mapKey knownCode
            dataStore)) ∨
      (∀ proof, storageMapProofAtTip env accountId slotName mapKey knownCode = .ok proof →
        ¬(proof.get (ProtocolLibrary.mapKeyHash mapKey)).isSome = true) ∧
        AnsweredBefore mapRoot mapKey dataStore
          (fetchAndCacheStorageMapWitness env accountId mapRoot slotName mapKey knownCode
            dataStore) := by
  unfold fetchAndCacheStorageMapWitness
  cases answer : storageMapProofAtTip env accountId slotName mapKey knownCode with
  | error reason =>
    exact Or.inr ⟨fun _ same => (nomatch same), .of_error rfl⟩
  | ok proof =>
    show (∃ _, _) ∨ _ ∧ AnsweredBefore mapRoot mapKey dataStore
      ((fromExcept (Except.mapError _ (StorageMapWitness.new proof [mapKey])) >>= _) dataStore)
    by_cases covered : (proof.get (ProtocolLibrary.mapKeyHash mapKey)).isSome = true
    · refine Or.inl ⟨proof, rfl, covered, ?_⟩
      show AnsweredWith mapRoot mapKey dataStore proof
        ((fromExcept (Except.mapError _ (StorageMapWitness.new proof [mapKey])) >>= _) dataStore)
      rw [StorageMapWitness.new_eq_ok_iff.mpr ⟨covered, rfl⟩]
      exact ⟨rfl, _, rfl⟩
    · refine Or.inr ⟨fun other same => Except.ok.inj same ▸ covered, ?_⟩
      cases made : StorageMapWitness.new proof [mapKey] with
      | error reason => exact .of_error rfl
      | ok witness => exact absurd (StorageMapWitness.new_eq_ok_iff.mp made).1 covered

omit [PartialAccountConstructors] in
/-- What becomes of a request once the inputs of the account are at hand. -/
theorem getPreparedStorageMapWitness_cases :
    (∃ proof, PreparedAsksAtTip env accountId mapRoot mapKey dataStore proof ∧
      AnsweredWith mapRoot mapKey dataStore proof
        (getPreparedStorageMapWitness env accountId mapRoot mapKey dataStore)) ∨
      (∀ proof, ¬PreparedAsksAtTip env accountId mapRoot mapKey dataStore proof) ∧
        AnsweredBefore mapRoot mapKey dataStore
          (getPreparedStorageMapWitness env accountId mapRoot mapKey dataStore) := by
  unfold getPreparedStorageMapWitness
  rw [get_bind]
  cases opened : dataStore.cachedInputsWitness accountId mapRoot mapKey with
  | some witness =>
    refine Or.inr ⟨fun proof asked => ?_, .of_ok rfl (cachedInputsWitness_opens opened)⟩
    rw [asked.1] at opened
    cases opened
  | none =>
    cases resolved : dataStore.resolveSlotNameAndCode accountId mapRoot with
    | error reason =>
      refine Or.inr ⟨?_, .of_error rfl⟩
      rintro proof ⟨_, _, _, found, _⟩
      rw [resolved] at found
      cases found
    | ok slot =>
      rcases fetchAndCacheStorageMapWitness_cases slot.1 slot.2 with
        ⟨proof, answer, covered, given⟩ | ⟨unanswered, before⟩
      · exact Or.inl ⟨proof, ⟨opened, slot.1, slot.2, resolved, answer, covered⟩, given⟩
      · refine Or.inr ⟨?_, before⟩
        rintro proof ⟨_, slotName, knownCode, found, answer, covered⟩
        rw [resolved] at found
        cases found
        exact unanswered proof answer covered

/-- What becomes of a request that neither the cache nor the local store answers. -/
theorem getForeignStorageMapWitness_cases :
    (∃ proof, AsksAtTip env accountId mapRoot mapKey dataStore proof ∧
      AnsweredWith mapRoot mapKey dataStore proof
        (getForeignStorageMapWitness env accountId mapRoot mapKey dataStore)) ∨
      (∀ proof, ¬AsksAtTip env accountId mapRoot mapKey dataStore proof) ∧
        AnsweredBefore mapRoot mapKey dataStore
          (getForeignStorageMapWitness env accountId mapRoot mapKey dataStore) := by
  have kept := ensureForeignAccount_cache env accountId dataStore
  cases ensured : ensureForeignAccount env accountId dataStore with
  | error reason last =>
    rw [ensured] at kept
    have failed : getForeignStorageMapWitness env accountId mapRoot mapKey dataStore =
        .error reason last := bind_eq_result_error.mpr (Or.inl ensured)
    rw [failed]
    refine Or.inr ⟨?_, .of_error kept⟩
    rintro proof ⟨prepared, prepares, _⟩
    rw [ensured] at prepares
    cases prepares
  | ok value prepared =>
    rw [ensured] at kept
    have continued : getForeignStorageMapWitness env accountId mapRoot mapKey dataStore =
        getPreparedStorageMapWitness env accountId mapRoot mapKey prepared :=
      bind_of_result_ok ensured _
    rw [continued]
    rcases getPreparedStorageMapWitness_cases with ⟨proof, asked, given⟩ | ⟨unasked, before⟩
    · refine Or.inl ⟨proof, ⟨prepared, ensured, asked⟩, ?_, given.witness⟩
      rw [given.cache]
      exact congrArg (·.insert (toLex (mapRoot, mapKey)) ⟨proof, [mapKey]⟩) kept
    · refine Or.inr ⟨?_, before.cache.trans kept, before.opens⟩
      rintro proof ⟨other, prepares, asked⟩
      rw [ensured] at prepares
      cases prepares
      exact unasked proof asked

/-- A request for the witness of a storage map entry is answered before the node is asked at the
tip, or with what the node has there. -/
theorem getStorageMapWitness_cases (sound : CacheSound dataStore) :
    (∃ proof, AnsweredAtTip env accountId mapRoot mapKey dataStore proof ∧
      AnsweredWith mapRoot mapKey dataStore proof
        (getStorageMapWitness env accountId mapRoot mapKey dataStore)) ∨
      (∀ proof, ¬AnsweredAtTip env accountId mapRoot mapKey dataStore proof) ∧
        AnsweredBefore mapRoot mapKey dataStore
          (getStorageMapWitness env accountId mapRoot mapKey dataStore) := by
  cases cached : dataStore.storageMapCache[toLex (mapRoot, mapKey)]? with
  | some witness =>
    refine Or.inr ⟨fun proof atTip => ?_, ?_⟩
    · rw [atTip.notCached] at cached
      cases cached
    · have hit : getStorageMapWitness env accountId mapRoot mapKey dataStore =
          .ok witness dataStore := by
        unfold getStorageMapWitness
        rw [get_bind, cached]
        rfl
      rw [hit]
      exact .of_ok rfl (sound mapRoot mapKey witness cached)
  | none =>
    unfold getStorageMapWitness
    rw [get_bind, cached]
    dsimp only
    cases found : getLocalStorageMapWitness env accountId mapRoot mapKey with
    | error reason =>
      refine Or.inr ⟨fun proof atTip => ?_, .of_error rfl⟩
      rw [atTip.notLocal] at found
      cases found
    | ok answer =>
      cases answer with
      | some witness =>
        refine Or.inr ⟨fun proof atTip => ?_, .of_ok rfl (getLocalStorageMapWitness_opens found)⟩
        rw [atTip.notLocal] at found
        cases found
      | none =>
        rcases getForeignStorageMapWitness_cases with ⟨proof, asked, given⟩ | ⟨unasked, before⟩
        · exact Or.inl ⟨proof, ⟨cached, found, asked⟩, given⟩
        · exact Or.inr ⟨fun proof atTip => unasked proof atTip.asks, before⟩

end Maps

/-! ### Runs -/

/-- A call of the data store. -/
inductive DataStoreRequest where
  | registerForeignAccountInputs (foreignAccounts : List AccountInputs)
  | getTransactionInputs (blockRefs : Finset BlockNumber) (answer : Except DataStoreError Unit)
  | getVaultAssetWitnesses (accountId : AccountId) (vaultRoot : Word)
    (vaultKeys : List AssetVaultKey)
  | getStorageMapWitness (accountId : AccountId) (mapRoot : Word) (mapKey : StorageMapKey)
  | getForeignAccountInputs (foreignAccountId : AccountId) (refBlock : BlockNumber)

/-- A call, and what it meets. -/
abbrev DataStoreStep := DataStoreEnvironment × DataStoreRequest

/-- What a call leaves behind, whether it fails or not. -/
def perform (dataStore : ClientDataStore) (step : DataStoreStep) : ClientDataStore :=
  match step.2 with
  | .registerForeignAccountInputs foreignAccounts =>
    finalState (registerForeignAccountInputs foreignAccounts dataStore)
  | .getTransactionInputs blockRefs answer =>
    finalState (getTransactionInputs blockRefs answer dataStore)
  | .getVaultAssetWitnesses accountId vaultRoot vaultKeys =>
    finalState ((fromExcept (getVaultAssetWitnesses step.1 accountId vaultRoot vaultKeys) :
      DataStoreM (List AssetWitness)) dataStore)
  | .getStorageMapWitness accountId mapRoot mapKey =>
    finalState (getStorageMapWitness step.1 accountId mapRoot mapKey dataStore)
  | .getForeignAccountInputs foreignAccountId refBlock =>
    finalState (getForeignAccountInputs step.1 foreignAccountId refBlock dataStore)

/-- The witnesses that a call returns open the root that it was asked for. -/
def ReturnsRequested (dataStore : ClientDataStore) (step : DataStoreStep) : Prop :=
  match step.2 with
  | .getVaultAssetWitnesses accountId vaultRoot vaultKeys =>
    ∀ witnesses, getVaultAssetWitnesses step.1 accountId vaultRoot vaultKeys = .ok witnesses →
      OpenVault vaultRoot vaultKeys witnesses
  | .getStorageMapWitness accountId mapRoot mapKey =>
    ∀ witness last, getStorageMapWitness step.1 accountId mapRoot mapKey dataStore =
      .ok witness last → witness.OpensEntry mapRoot mapKey
  | _ => True

/-- A call returns witnesses for the requested root only, and caches no other. -/
def RespectsRoots (dataStore : ClientDataStore) (step : DataStoreStep) : Prop :=
  ReturnsRequested dataStore step ∧ CacheSound (perform dataStore step)

/-- What the call is asked for is what the store and the node have now: if all the assets can be
opened, their vault is the latest one, and if the node is asked for the entry of a map at the tip of
its chain, it has the map there. -/
def AsksForCurrentRoot (dataStore : ClientDataStore) (step : DataStoreStep) : Prop :=
  match step.2 with
  | .getVaultAssetWitnesses accountId vaultRoot vaultKeys =>
    vaultKeys ≠ [] → (∀ vaultKey ∈ vaultKeys, CanOpenAsset step.1 accountId vaultKey) →
      HasVaultRoot step.1 accountId vaultRoot
  | .getStorageMapWitness accountId mapRoot mapKey =>
    ∀ proof, AnsweredAtTip step.1 accountId mapRoot mapKey dataStore proof → proof.root = mapRoot
  | _ => True

omit [WitnessLibrary] [PartialAccountConstructors] in
theorem CacheSound.congr {first second : ClientDataStore} (sound : CacheSound first)
    (same : second.storageMapCache = first.storageMapCache) : CacheSound second := by
  unfold CacheSound
  rw [same]
  exact sound

omit [WitnessLibrary] [PartialAccountConstructors] in
/-- Caching a witness keeps the cache sound exactly when the witness is for the map. -/
theorem CacheSound.insert_iff {first second : ClientDataStore} (sound : CacheSound first)
    {mapRoot : Word} {mapKey : StorageMapKey} {witness : StorageMapWitness}
    (cached : second.storageMapCache =
      first.storageMapCache.insert (toLex (mapRoot, mapKey)) witness) :
    CacheSound second ↔ witness.OpensEntry mapRoot mapKey := by
  unfold CacheSound
  rw [cached]
  constructor
  · exact fun all => all mapRoot mapKey witness ExtTreeMap.getElem?_insert_self
  · intro opens otherRoot otherKey other found
    rw [ExtTreeMap.getElem?_insert] at found
    split at found
    · rename_i same
      obtain ⟨rfl, rfl⟩ := Prod.mk.inj (toLex_inj.mp (Std.compare_eq_iff_eq.mp same))
      cases found
      exact opens
    · exact sound otherRoot otherKey other found

/-- While the cache is sound, a call respects the roots exactly when it asks for a current one. -/
theorem respectsRoots_iff {dataStore : ClientDataStore} {step : DataStoreStep}
    (sound : CacheSound dataStore) :
    RespectsRoots dataStore step ↔ AsksForCurrentRoot dataStore step := by
  obtain ⟨env, request⟩ := step
  cases request with
  | registerForeignAccountInputs foreignAccounts =>
    exact ⟨fun _ => trivial, fun _ => ⟨trivial, sound.congr rfl⟩⟩
  | getTransactionInputs blockRefs answer =>
    refine ⟨fun _ => trivial, fun _ => ⟨trivial, sound.congr ?_⟩⟩
    show (finalState (getTransactionInputs blockRefs answer dataStore)).storageMapCache = _
    unfold getTransactionInputs
    cases blockRefs.max with
    | bot => rfl
    | coe refBlock =>
      cases answer with
      | ok value => rfl
      | error reason => rfl
  | getVaultAssetWitnesses accountId vaultRoot vaultKeys =>
    refine Iff.trans ⟨And.left, fun requested => ⟨requested, sound.congr ?_⟩⟩
      getVaultAssetWitnesses_open_iff
    exact congrArg storageMapCache (finalState_fromExcept _ dataStore)
  | getStorageMapWitness accountId mapRoot mapKey =>
    rcases getStorageMapWitness_cases sound with ⟨proof, atTip, given⟩ | ⟨notAtTip, before⟩
    · obtain ⟨last, answered⟩ := given.witness
      obtain ⟨_, _, _, _, _, _, _, covered⟩ := atTip.asks
      constructor
      · rintro ⟨requested, _⟩ other otherAtTip
        rw [otherAtTip.unique atTip]
        exact (requested _ last answered).2.1
      · intro current
        have opens : StorageMapWitness.OpensEntry ⟨proof, [mapKey]⟩ mapRoot mapKey :=
          ⟨rfl, current proof atTip, covered⟩
        refine ⟨fun witness final same => ?_, (sound.insert_iff given.cache).mpr opens⟩
        rw [answered] at same
        cases same
        exact opens
    · exact ⟨fun _ proof atTip => absurd atTip (notAtTip proof),
        fun _ => ⟨before.opens, sound.congr before.cache⟩⟩
  | getForeignAccountInputs foreignAccountId refBlock =>
    refine ⟨fun _ => trivial, fun _ => ⟨trivial, sound.congr ?_⟩⟩
    show (finalState (getForeignAccountInputs env foreignAccountId refBlock
      dataStore)).storageMapCache = _
    unfold getForeignAccountInputs
    rw [get_bind]
    cases dataStore.foreignAccountInputs[foreignAccountId]? with
    | some inputs => rfl
    | none =>
      exact fetchAndCacheForeignAccount_cache env foreignAccountId (.block refBlock) dataStore

/-- A run of a new data store respects the roots it is asked for exactly when it asks for current
ones. -/
theorem run_respectsRoots_iff (steps : List DataStoreStep) :
    (∀ reached step, reached ++ [step] <+: steps →
      RespectsRoots (reached.foldl perform new) step) ↔
        Run.Conforms perform AsksForCurrentRoot new steps := by
  have empty : CacheSound new := fun mapRoot mapKey witness found => by cases found
  have exactly : ∀ dataStore step, CacheSound dataStore →
      (RespectsRoots dataStore step ↔ AsksForCurrentRoot dataStore step) :=
    fun _ _ sound => respectsRoots_iff sound
  rw [← Run.conforms_iff_forall_step]
  exact Run.conforms_congr exactly
    (fun _ _ sound current => ((respectsRoots_iff sound).mpr current).2) empty

end ClientDataStore

end Library

/-! ### Accounts that change -/

namespace Trees

open ClientDataStore

/-- Openings of the trees that keep their leaves in the root. -/
scoped instance witnessLibrary : WitnessLibrary where
  openTree root key := ⟨root, fun other => if other = key then some (leaves root key) else none⟩
  openTree_opens _ _ :=
    ⟨rfl, (congrArg Option.isSome (if_pos rfl)).trans Option.isSome_some⟩
  assetOfWords key value :=
    .ok (if key % 2 = 0 then .fungible ⟨key / 2, value⟩ else .nonFungible value)
  checkAssetWitness _ := .ok ()

/-- Constructors that check nothing. -/
scoped instance accountConstructors : PartialAccountConstructors where
  storageMap entries := .ok (ExtTreeMap.ofList entries)
  assetVault assets := .ok (ExtTreeMap.ofList (assets.map fun asset => (asset.vaultKey, asset)))
  accountStorage slots := .ok (ExtTreeMap.ofList slots)
  checkAccount _ := .ok ()
  partialMap _ := .ok ⟨library.emptySmtRoot, fun _ => false⟩
  checkPartialAccount _ _ _ _ := .ok ()

def fundedVault : ExtTreeMap AssetVaultKey Asset :=
  (∅ : ExtTreeMap AssetVaultKey Asset).insert (.fungible 9) (.fungible ⟨9, 5⟩)

/-- The store after account 2 received its first asset. -/
def fundedTables : AccountTables where
  kind := .sqlite
  header accountId := if accountId = 2 then some ⟨2, 1, assetVaultRoot fundedVault, 0, 0⟩ else none
  assets accountId := if accountId = 2 then fundedVault else ∅
  slots _ := []
  mapEntries _ _ := ∅
  forest := { AccountSmtForest.new with forest := ⟨{assetVaultRoot fundedVault}⟩ }

theorem consistentAt_fundedTables (accountId : AccountId) :
    fundedTables.ConsistentAt accountId := by
  constructor
  · intro header stored
    by_cases own : accountId = 2
    · have same : some (⟨2, 1, assetVaultRoot fundedVault, 0, 0⟩ : AccountHeader) = some header :=
        (if_pos own).symm.trans stored
      rw [← Option.some.inj same]
      exact congrArg assetVaultRoot (if_pos own)
    · have none_ : none = some header := (if_neg own).symm.trans stored
      cases none_
  · intro slotName root listed
    exact absurd listed List.not_mem_nil

/-- The node has map 4 of public account 7 with another root than the transaction started from. -/
def changedNode : GetAccountProof := fun _ _ _ _ =>
  .ok (some ⟨⟨7, 3, 0, 0, 0⟩,
    ⟨[(4, .map, 8)], [⟨4, false, .entriesWithProofs [witnessLibrary.openTree 8 6]⟩]⟩, 0,
      ⟨false, []⟩⟩)

def changedEnvironment : DataStoreEnvironment where
  accounts := ⟨fundedTables, consistentAt_fundedTables⟩
  foreignAccountCode _ := .ok none
  getAccountProof := changedNode

/-- The inputs of account 7, with a map that was too big to be fetched. -/
def foreignInputs : AccountInputs :=
  ⟨7, 0, [(4, .map, 5)], []⟩

theorem leaves_fundedVault : leaves (assetVaultRoot fundedVault) 18 = 5 := by
  unfold leaves
  show (treeOf (treeRoot ((fundedVault.toList.map _).foldl setLeaf
    (treeOf (treeRoot ∅)))))[18]?.getD
    emptyWord = 5
  rw [treeOf_treeRoot, treeOf_treeRoot]
  decide +kernel

theorem assetVaultRoot_fundedVault_ne : assetVaultRoot fundedVault ≠ library.emptySmtRoot := by
  intro same
  have leaf := leaves_fundedVault
  rw [same, smtLaw.empty] at leaf
  exact absurd leaf (by decide)

/-- The store can open the asset. -/
theorem canOpenAsset_funded : CanOpenAsset changedEnvironment 2 (.fungible 9) := by
  refine ⟨(.fungible ⟨9, 5⟩, ⟨witnessLibrary.openTree (assetVaultRoot fundedVault) 18⟩), ?_⟩
  have opened : fundedTables.forest.openRoot (assetVaultRoot fundedVault) 18 =
      .ok (witnessLibrary.openTree (assetVaultRoot fundedVault) 18) :=
    if_neg fun unknown => unknown.2 (Finset.mem_singleton_self _)
  have found : fundedTables.forest.getAssetAndWitness (assetVaultRoot fundedVault) (.fungible 9) =
      .ok (.fungible ⟨9, 5⟩, ⟨witnessLibrary.openTree (assetVaultRoot fundedVault) 18⟩) := by
    refine bind_eq_ok.mpr ⟨_, opened, ?_⟩
    have leaf : (WitnessLibrary.openTree (assetVaultRoot fundedVault) 18).get
        (ProtocolLibrary.vaultKeyWord (.fungible 9)) = some 5 :=
      congrArg some leaves_fundedVault
    dsimp only
    rw [leaf]
    rfl
  exact AccountTables.getAccountAsset_of_opened rfl found

/-- The vault is asked for as it was before the asset came, and the map entry under the root that
the inputs have. Both are answered with what is there now. -/
theorem not_respectsRoots_changed :
    ¬RespectsRoots new (changedEnvironment,
      .getVaultAssetWitnesses 2 library.emptySmtRoot [.fungible 9]) ∧
      ¬RespectsRoots (perform new
        (changedEnvironment, .registerForeignAccountInputs [foreignInputs]))
        (changedEnvironment, .getStorageMapWitness 7 5 6) := by
  have sound : ∀ dataStore : ClientDataStore, dataStore.storageMapCache = ∅ →
      CacheSound dataStore := by
    intro dataStore empty mapRoot mapKey witness found
    rw [empty] at found
    cases found
  constructor
  · intro respects
    obtain ⟨header, stored, root⟩ := (respectsRoots_iff (sound _ rfl)).mp respects
      (List.cons_ne_nil _ _) fun vaultKey listed => by
        obtain rfl := List.mem_singleton.mp listed
        exact canOpenAsset_funded
    cases stored
    exact assetVaultRoot_fundedVault_ne root
  · intro respects
    have current := (respectsRoots_iff (sound _ rfl)).mp respects
    have atTip : AnsweredAtTip changedEnvironment 7 5 6
        (perform new (changedEnvironment, .registerForeignAccountInputs [foreignInputs]))
        (witnessLibrary.openTree 8 6) :=
      ⟨rfl, rfl, _, rfl, rfl, 4, 0, rfl, rfl, rfl⟩
    exact absurd (current _ atTip) (by decide)

end Trees

end MidenClient
