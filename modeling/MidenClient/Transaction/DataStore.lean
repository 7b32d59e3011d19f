/-
This file models the data store that a transaction executor asks for the parts of accounts
it needs (`rust-client/src/store/data_store.rs`).

The witness of a vault asset comes from the local store. The witness of a storage map entry
comes from a cache, from the local store, from the inputs of a foreign account, or from the
node, which is asked for the account at the tip of its chain. Inputs of foreign accounts are
cached too, and fetched at the reference block of the transaction when they are missing.

What the executor is not given a witness from is left out: the rest of the transaction inputs,
note scripts and the code of accounts, which stands for itself as its commitment.
-/

import MidenClient.Note.NoteUpdateTracker
import MidenClient.Rpc.AccountProof

namespace MidenClient

open Std (ExtTreeMap)
open Fallible

/-! ### Account inputs -/

/-- What the node answers to a request for an account proof, as far as it is looked at. -/
abbrev GetAccountProof := AccountId → AccountStorageRequirements → AccountStateAt → Option Word →
  Except RpcError (Option AccountDetails)

/-- A storage map of which some keys can be opened. -/
structure PartialStorageMap where
  root : Word
  tracked : StorageMapKey → Bool

/-- An account without the parts of its state that are fetched on demand. -/
structure AccountInputs where
  id : AccountId
  code : Word
  slots : List StorageSlotHeader
  maps : List PartialStorageMap

/-- What the data store uses of the constructors of the protocol library. -/
class PartialAccountConstructors extends AccountConstructors where
  /-- `PartialStorageMap::with_witnesses`. -/
  partialMap : List StorageMapWitness → Except String PartialStorageMap
  /-- The checks of `PartialStorage::new` and `PartialAccount::new`. -/
  checkPartialAccount : AccountHeader → Word → List StorageSlotHeader → List PartialStorageMap →
    Except String Unit

inductive DataStoreError where
  | accountNotFound (accountId : AccountId)
  | storeError (error : AccountReadError)
  | other (message : String)
  /-- The panic when the reference block is not set. -/
  | referenceBlockNotSet
  deriving DecidableEq, Repr

section Witnesses

variable [ProtocolLibrary] [WitnessLibrary]

/-- `PartialStorageMap::open`. -/
def PartialStorageMap.openKey (partialMap : PartialStorageMap) (key : StorageMapKey) :
    Option StorageMapWitness :=
  if partialMap.tracked key then
    some ⟨WitnessLibrary.openTree partialMap.root (ProtocolLibrary.mapKeyHash key), [key]⟩
  else none

variable [PartialAccountConstructors]

/-- The part of a map that the answer of the node gives. -/
def partialMapOfDetails (requirements : AccountStorageRequirements)
    (details : AccountStorageMapDetails) : Except String PartialStorageMap :=
  match details.entries with
  | .allEntries entries => do
    let map ← AccountConstructors.storageMap entries
    return ⟨storageMapRoot map, fun _ => true⟩
  | .entriesWithProofs proofs => do
    let witnesses ← (proofs.zip (requirements.keysForSlot details.slotName)).mapM
      fun pair => StorageMapWitness.new pair.1 [pair.2]
    PartialAccountConstructors.partialMap witnesses

/-- `account_proof_into_inputs`. -/
def accountProofIntoInputs (details : Option AccountDetails)
    (requirements : AccountStorageRequirements) : Except String AccountInputs :=
  match details with
  | none => .error "foreign account data missing"
  | some details => do
    let maps ← details.storageDetails.mapDetails.mapM (partialMapOfDetails requirements)
    let _ ← AccountConstructors.assetVault details.vaultDetails.assets
    PartialAccountConstructors.checkPartialAccount details.header details.code
      details.storageDetails.header maps
    return ⟨details.header.id, details.code, details.storageDetails.header, maps⟩

end Witnesses

/-! ### The data store -/

/-- The caches of a data store, and the reference block of its transaction. -/
structure ClientDataStore where
  foreignAccountInputs : ExtTreeMap AccountId AccountInputs
  /-- Storage map witnesses by map root and key. -/
  storageMapCache : ExtTreeMap (Word ×ₗ StorageMapKey) StorageMapWitness
  refBlock : Option BlockNumber

abbrev DataStoreM := EStateM DataStoreError ClientDataStore

/-- What a request meets: the accounts in the store, the known code of foreign accounts, and the
node. All of them may be others at the next request. -/
structure DataStoreEnvironment [ProtocolLibrary] where
  accounts : StoredAccounts
  foreignAccountCode : AccountId → Except StoreError (Option Word)
  getAccountProof : GetAccountProof

namespace ClientDataStore

def new : ClientDataStore :=
  ⟨∅, ∅, none⟩

/-- Stores the provided foreign account inputs in place of the cached ones. -/
def registerForeignAccountInputs (foreignAccounts : List AccountInputs) : DataStoreM Unit :=
  modify fun dataStore => { dataStore with
    foreignAccountInputs :=
      foreignAccounts.foldl (fun cache inputs => cache.insert inputs.id inputs) ∅ }

/-- The last of the blocks is the reference block. What the store then answers is given. -/
def getTransactionInputs (blockRefs : Finset BlockNumber)
    (answer : Except DataStoreError Unit) : DataStoreM Unit := do
  match blockRefs.max with
  | none => throw (.other "block set is empty")
  | some refBlock =>
    modify fun dataStore => { dataStore with refBlock := some refBlock }
    fromExcept answer

section Requests

variable [ProtocolLibrary] [WitnessLibrary] [PartialAccountConstructors]
    (env : DataStoreEnvironment)

/-! ### Vault assets -/

/-- Opens the whole vault of an account, if that is the vault asked for. -/
def openWholeVault (accountId : AccountId) (vaultRoot : Word) (vaultKey : AssetVaultKey) :
    Except DataStoreError AssetWitness := do
  let vault ← (env.accounts.getAccountVault accountId).mapError .storeError
  if assetVaultRoot vault ≠ vaultRoot then throw (.other "Vault root mismatch")
  (AssetWitness.new (openVault vault vaultKey)).mapError
    fun _ => .other "Failed to open vault asset tree"

/-- The witness of one asset. An asset that the store cannot open is opened in its whole vault. -/
def vaultAssetWitness (accountId : AccountId) (vaultRoot : Word) (vaultKey : AssetVaultKey) :
    Except DataStoreError AssetWitness :=
  match env.accounts.getAccountAsset accountId vaultKey with
  | .ok (some (_, assetWitness)) => .ok assetWitness
  | .ok none => openWholeVault env accountId vaultRoot vaultKey
  | .error (.storeError (.rootNotInStore _)) => openWholeVault env accountId vaultRoot vaultKey
  | .error _ => .error (.other "Failed to get account asset")

def getVaultAssetWitnesses (accountId : AccountId) (vaultRoot : Word)
    (vaultKeys : List AssetVaultKey) : Except DataStoreError (List AssetWitness) :=
  vaultKeys.mapM (vaultAssetWitness env accountId vaultRoot)

/-! ### Storage map entries -/

/-- Attempts to resolve a storage map witness from the local store. -/
def getLocalStorageMapWitness (accountId : AccountId) (mapRoot : Word) (mapKey : StorageMapKey) :
    Except DataStoreError (Option StorageMapWitness) :=
  match env.accounts.getAccountStorage accountId mapRoot with
  | .error _ => .ok none
  | .ok [] => .ok none
  | .ok (.map entries :: _) => .ok (some (openStorageMap entries mapKey))
  | .ok (.value _ :: _) => .error (.other "found StorageSlotContent::Value")

/-- `fetch_public_account_inputs`. -/
def fetchPublicAccountInputs (accountId : AccountId) (requirements : AccountStorageRequirements)
    (stateAt : AccountStateAt) : Except DataStoreError AccountInputs := do
  let knownCode ← (env.foreignAccountCode accountId).mapError
    fun _ => .other "failed to fetch foreign account inputs"
  let details ← (env.getAccountProof accountId requirements stateAt knownCode).mapError
    fun _ => .other "failed to fetch foreign account inputs"
  (accountProofIntoInputs details requirements).mapError
    fun _ => .other "failed to fetch foreign account inputs"

/-- Lazily fetches a foreign account's inputs from the network and caches them. -/
def fetchAndCacheForeignAccount (accountId : AccountId) (stateAt : AccountStateAt) :
    DataStoreM AccountInputs := do
  let inputs ← fromExcept (fetchPublicAccountInputs env accountId [] stateAt)
  modify fun dataStore => { dataStore with
    foreignAccountInputs := dataStore.foreignAccountInputs.insert accountId inputs }
  return inputs

/-- Makes sure that the inputs of the account are cached. -/
def ensureForeignAccount (accountId : AccountId) : DataStoreM Unit := do
  let dataStore ← get
  if dataStore.foreignAccountInputs.contains accountId then return ()
  match dataStore.refBlock with
  | none => throw .referenceBlockNotSet
  | some refBlock =>
    let _ ← fetchAndCacheForeignAccount env accountId (.block refBlock)

/-- The witness that the cached inputs of an account give. -/
def cachedInputsWitness (dataStore : ClientDataStore) (accountId : AccountId) (mapRoot : Word)
    (mapKey : StorageMapKey) : Option StorageMapWitness := do
  let inputs ← dataStore.foreignAccountInputs[accountId]?
  let partialMap ← inputs.maps.find? fun map => map.root = mapRoot
  partialMap.openKey mapKey

/-- Resolves the slot name and account code for a map root from the cached foreign account
inputs. -/
def resolveSlotNameAndCode (dataStore : ClientDataStore) (accountId : AccountId)
    (mapRoot : Word) : Except DataStoreError (StorageSlotName × Word) :=
  match dataStore.foreignAccountInputs[accountId]? with
  | none => .error (.accountNotFound accountId)
  | some inputs =>
    match inputs.slots.find? fun slot => slot.2.1 = .map ∧ slot.2.2 = mapRoot with
    | none => .error (.other
        s!"did not find map slot with root {mapRoot} for foreign account {accountId}")
    | some slot => .ok (slot.1, inputs.code)

/-- The proof that the node answers for one key of a map at the tip of the chain. -/
def storageMapProofAtTip (accountId : AccountId) (slotName : StorageSlotName)
    (mapKey : StorageMapKey) (knownCode : Word) : Except DataStoreError SmtProof := do
  let answer ← (env.getAccountProof accountId [(slotName, [mapKey])] .chainTip
    (some knownCode)).mapError fun _ => .other "failed to fetch storage map via RPC"
  match answer with
  | none => throw (.other s!"RPC returned no account details for account {accountId}")
  | some details =>
    match details.storageDetails.mapDetails with
    | [] => throw (.other s!"RPC returned no storage map details for account {accountId}")
    | mapDetail :: _ =>
      match mapDetail.entries with
      | .entriesWithProofs [] =>
        throw (.other "RPC returned no proofs for the requested key")
      | .entriesWithProofs (proof :: _) => return proof
      | .allEntries _ =>
        throw (.other "unexpected AllEntries response; specific keys were requested")

/-- Fetches a storage map witness for a specific key from the network and caches it. -/
def fetchAndCacheStorageMapWitness (accountId : AccountId) (mapRoot : Word)
    (slotName : StorageSlotName) (mapKey : StorageMapKey) (knownCode : Word) :
    DataStoreM StorageMapWitness := do
  let proof ← fromExcept (storageMapProofAtTip env accountId slotName mapKey knownCode)
  let witness ← fromExcept ((StorageMapWitness.new proof [mapKey]).mapError
    fun _ => .other "failed to create storage map witness")
  modify fun dataStore => { dataStore with
    storageMapCache := dataStore.storageMapCache.insert (toLex (mapRoot, mapKey)) witness }
  return witness

/-- The part of a request for a witness that has the inputs of the account at hand. -/
def getPreparedStorageMapWitness (accountId : AccountId) (mapRoot : Word)
    (mapKey : StorageMapKey) : DataStoreM StorageMapWitness := do
  let dataStore ← get
  match dataStore.cachedInputsWitness accountId mapRoot mapKey with
  | some witness => return witness
  | none =>
    let (slotName, knownCode) ←
      fromExcept (dataStore.resolveSlotNameAndCode accountId mapRoot)
    fetchAndCacheStorageMapWitness env accountId mapRoot slotName mapKey knownCode

/-- The part of a request for a witness that is not answered locally. -/
def getForeignStorageMapWitness (accountId : AccountId) (mapRoot : Word)
    (mapKey : StorageMapKey) : DataStoreM StorageMapWitness := do
  ensureForeignAccount env accountId
  getPreparedStorageMapWitness env accountId mapRoot mapKey

/-- Retrieves the storage map witness from the cache or the store, alternatively from the cached
account inputs or the node. -/
def getStorageMapWitness (accountId : AccountId) (mapRoot : Word) (mapKey : StorageMapKey) :
    DataStoreM StorageMapWitness := do
  let dataStore ← get
  match dataStore.storageMapCache[toLex (mapRoot, mapKey)]? with
  | some witness => return witness
  | none =>
    match ← fromExcept (getLocalStorageMapWitness env accountId mapRoot mapKey) with
    | some witness => return witness
    | none => getForeignStorageMapWitness env accountId mapRoot mapKey

/-- Returns the inputs of a foreign account from the cache or alternatively fetches them. -/
def getForeignAccountInputs (foreignAccountId : AccountId) (refBlock : BlockNumber) :
    DataStoreM AccountInputs := do
  let dataStore ← get
  match dataStore.foreignAccountInputs[foreignAccountId]? with
  | some inputs => return inputs
  | none => fetchAndCacheForeignAccount env foreignAccountId (.block refBlock)

end Requests

end ClientDataStore

end MidenClient
