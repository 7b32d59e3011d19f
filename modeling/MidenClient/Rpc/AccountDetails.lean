/-
This file models how the client fetches the whole state of an account from the node
(`fetch_full_account_proof`, `build_storage_slots`, `get_account_details`,
`sync_storage_maps` and `sync_account_vault` of `rust-client/src/rpc/tonic_client/mod.rs`).

A public account takes at least two requests: one that tells the names of its maps, and one
for its state with these maps. A vault or a map that is too large is put together from the
changes since the first block, page by page. The chain goes on between the requests, so they
are numbered.
-/

import MidenClient.Library.ChangeLog
import MidenClient.Note.NoteUpdateTracker
import MidenClient.Rpc.AccountProof

namespace MidenClient

open Std (ExtTreeMap)

/-! ### Requests and responses -/

/-- A request for an account at the tip of the chain, with its details and the maps of some slots if
any are asked for. The code and the vault are always included. -/
structure AccountRequest where
  accountId : AccountId
  details : Option (List StorageSlotName)

structure AccountResponse where
  blockNum : Option BlockNumber
  witness : Option AccountWitness
  details : Option AccountDetails

structure BlockRange where
  blockFrom : BlockNumber
  blockTo : Option BlockNumber

structure PaginationInfo where
  chainTip : BlockNumber
  blockNum : BlockNumber

/-- A page of changes. -/
structure SyncPage (α : Type) where
  paginationInfo : Option PaginationInfo
  updates : List α

structure StorageMapUpdate where
  blockNum : BlockNumber
  slotName : StorageSlotName
  key : StorageMapKey
  value : Word

/-- A change of an asset, which is removed if it is not present. -/
structure AccountVaultUpdate where
  blockNum : BlockNumber
  asset : Option Asset
  vaultKey : AssetVaultKey

/-- All changes up to a block. -/
structure SyncInfo (α : Type) where
  chainTip : BlockNumber
  blockNumber : BlockNumber
  updates : List α

/-- The errors of a call to the node. -/
inductive NodeError where
  | rpcError (error : RpcError)
  | invalidResponse (message : String)
  | paginationError (message : String)
  deriving DecidableEq, Repr

/-- The answers of the node to the numbered requests. -/
structure AccountNode where
  getAccount : ℕ → AccountRequest → Except NodeError AccountResponse
  syncStorageMaps : ℕ → BlockRange → AccountId → Except NodeError (SyncPage StorageMapUpdate)
  syncAccountVault : ℕ → BlockRange → AccountId → Except NodeError (SyncPage AccountVaultUpdate)

/-- A computation that sends requests. Its state is the number of the next one. -/
abbrev AccountRpcM := EStateM NodeError ℕ

namespace AccountRpcM

/-- Sends a request. -/
def call {α : Type} (request : ℕ → Except NodeError α) : AccountRpcM α := fun number =>
  match request number with
  | .ok response => .ok response (number + 1)
  | .error error => .error error (number + 1)

/-- A field that must be there. -/
def required {α : Type} (field : String) (value : Option α) : AccountRpcM α :=
  Fallible.fromExcept (value.elim (.error (.rpcError (.expectedDataMissing field))) .ok)

/-- A part of a response that must be accepted. -/
def accept {α : Type} (result : Except String α) : AccountRpcM α :=
  Fallible.fromExcept (result.mapError .invalidResponse)

theorem call_eq_ok {α : Type} {request : ℕ → Except NodeError α} {number next : ℕ} {response : α}
    (answered : call request number = .ok response next) :
    request number = .ok response ∧ next = number + 1 := by
  unfold call at answered
  cases asked : request number with
  | error error =>
    rw [asked] at answered
    cases answered
  | ok value =>
    rw [asked] at answered
    cases answered
    exact ⟨rfl, rfl⟩

theorem call_bind {α β : Type} (request : ℕ → Except NodeError α) (rest : α → AccountRpcM β)
    (number : ℕ) :
    (call request >>= rest) number =
      match request number with
      | .error error => .error error (number + 1)
      | .ok response => rest response (number + 1) := by
  show EStateM.bind (call request) rest number = _
  unfold EStateM.bind call
  cases request number with
  | error error => rfl
  | ok response => rfl

theorem required_eq_ok {α : Type} {field : String} {value : Option α} {number next : ℕ}
    {result : α} (present : required field value number = .ok result next) :
    value = some result ∧ number = next := by
  obtain ⟨found, same⟩ := Fallible.fromExcept_eq_ok.mp present
  cases value with
  | none => cases found
  | some held =>
    cases found
    exact ⟨rfl, same⟩

theorem accept_eq_ok {α : Type} {result : Except String α} {number next : ℕ} {value : α}
    (accepted : accept result number = .ok value next) : result = .ok value ∧ number = next := by
  obtain ⟨converted, same⟩ := Fallible.fromExcept_eq_ok.mp accepted
  exact ⟨Fallible.eq_ok_of_mapError converted, same⟩

end AccountRpcM

open AccountRpcM

/-! ### Pagination -/

/-- Tracks the pagination state for block-driven endpoints. -/
structure BlockPagination where
  currentBlockFrom : BlockNumber
  blockTo : Option BlockNumber
  iterations : ℕ

inductive PaginationResult where
  | continues (pagination : BlockPagination)
  | done (chainTip blockNum : BlockNumber)

namespace BlockPagination

/-- Maximum number of pagination iterations for a single request. -/
def maxIterations : ℕ := 1000

def new (blockFrom : BlockNumber) (blockTo : Option BlockNumber) : BlockPagination :=
  ⟨blockFrom, blockTo, 0⟩

def range (pagination : BlockPagination) : BlockRange :=
  ⟨pagination.currentBlockFrom, pagination.blockTo⟩

/-- The pagination goes on behind the page, up to the tip or the end of the range. -/
def advance (pagination : BlockPagination) (blockNum chainTip : BlockNumber) :
    Except NodeError PaginationResult :=
  if maxIterations ≤ pagination.iterations then
    .error (.paginationError "too many pagination iterations, possible infinite loop")
  else if blockNum < pagination.currentBlockFrom then
    .error (.paginationError "invalid pagination: block_num went backwards")
  else
    let targetBlock := pagination.blockTo.elim chainTip fun bound => min bound chainTip
    if targetBlock ≤ blockNum then .ok (.done chainTip blockNum)
    else .ok (.continues
      ⟨blockNum + 1, pagination.blockTo, pagination.iterations + 1⟩)

/-- The last block that a synchronization goes on to: the tip, or the end of the range if it comes
before. -/
def targetBlock (blockTo : Option BlockNumber) (chainTip : BlockNumber) : BlockNumber :=
  blockTo.elim chainTip fun bound => min bound chainTip

/-- A pagination goes on up to its target block, within its iterations. -/
theorem advance_eq_ok {pagination : BlockPagination} {blockNum chainTip : BlockNumber}
    {result : PaginationResult} (advanced : pagination.advance blockNum chainTip = .ok result) :
    pagination.iterations < maxIterations ∧ pagination.currentBlockFrom ≤ blockNum ∧
      (targetBlock pagination.blockTo chainTip ≤ blockNum ∧ result = .done chainTip blockNum ∨
        blockNum < targetBlock pagination.blockTo chainTip ∧
          result = .continues ⟨blockNum + 1, pagination.blockTo, pagination.iterations + 1⟩) := by
  unfold advance at advanced
  split at advanced
  · cases advanced
  · rename_i within
    split at advanced
    · cases advanced
    · rename_i forward
      refine ⟨not_le.mp within, not_lt.mp forward, ?_⟩
      dsimp only at advanced
      split at advanced
      · rename_i atTarget
        cases advanced
        exact Or.inl ⟨atTarget, rfl⟩
      · rename_i before
        cases advanced
        exact Or.inr ⟨not_le.mp before, rfl⟩

/-- A pagination that moves forward fails only when it has no iterations left. -/
theorem advance_eq_error {pagination : BlockPagination} {blockNum chainTip : BlockNumber}
    {error : NodeError} (forward : pagination.currentBlockFrom ≤ blockNum)
    (failed : pagination.advance blockNum chainTip = .error error) :
    maxIterations ≤ pagination.iterations ∧
      error = .paginationError "too many pagination iterations, possible infinite loop" := by
  unfold advance at failed
  split at failed
  · rename_i full
    cases failed
    exact ⟨full, rfl⟩
  · rw [if_neg (not_lt.mpr forward)] at failed
    dsimp only at failed
    split at failed
    · cases failed
    · cases failed

end BlockPagination

/-- The loop over the pages of a range. With one step more than there are iterations the bound is
not reached: the pagination ends the loop first. -/
def syncPages {α : Type} (request : ℕ → BlockRange → Except NodeError (SyncPage α)) :
    ℕ → BlockPagination → List α → AccountRpcM (SyncInfo α)
  | 0, _, _ => throw (.paginationError "too many pagination iterations, possible infinite loop")
  | bound + 1, pagination, updates => do
    let response ← call fun number => request number pagination.range
    let page ← required "pagination_info" response.paginationInfo
    match ← Fallible.fromExcept (pagination.advance page.blockNum page.chainTip) with
    | .continues next => syncPages request bound next (updates ++ response.updates)
    | .done chainTip blockNum => return ⟨chainTip, blockNum, updates ++ response.updates⟩

/-! ### Accounts -/

/-- Contains public updated information about the account requested. -/
structure AccountUpdateSummary where
  commitment : Word
  lastBlockNum : BlockNumber

inductive FetchedAccount where
  | isPrivate (accountId : AccountId) (summary : AccountUpdateSummary)
  | isPublic (account : Account) (summary : AccountUpdateSummary)

namespace AccountNode

variable [ProtocolLibrary] (node : AccountNode)

def syncStorageMapsInfo (blockFrom : BlockNumber) (blockTo : Option BlockNumber)
    (accountId : AccountId) : AccountRpcM (SyncInfo StorageMapUpdate) :=
  syncPages (fun number range => node.syncStorageMaps number range accountId)
    (BlockPagination.maxIterations + 1) (.new blockFrom blockTo) []

def syncAccountVaultInfo (blockFrom : BlockNumber) (blockTo : Option BlockNumber)
    (accountId : AccountId) : AccountRpcM (SyncInfo AccountVaultUpdate) :=
  syncPages (fun number range => node.syncAccountVault number range accountId)
    (BlockPagination.maxIterations + 1) (.new blockFrom blockTo) []

/-- `AccountProof::try_from`. -/
def accountProofOf (response : AccountResponse) : AccountRpcM AccountProof := do
  let witness ← required "GetAccountProof returned an account without witness" response.witness
  accept (AccountProof.new witness response.details)

/-- The names of the map slots. -/
def mapsToRequest (details : AccountDetails) : List StorageSlotName :=
  (details.storageDetails.header.filter fun slot => slot.2.1 = .map).map Prod.fst

/-- Given an account id, returns the proof for the account, with its details if it has public
state. The block number is the one of the first response. -/
def fetchFullAccountProof (accountId : AccountId) : AccountRpcM (BlockNumber × AccountProof) := do
  let hasPublicState := !ProtocolLibrary.isPrivate accountId
  let response ← call fun number =>
    node.getAccount number ⟨accountId, if hasPublicState then some [] else none⟩
  let blockNumber ← required "GetAccountDetails returned an account without a matching block number"
    response.blockNum
  if hasPublicState then
    let details ← required "details in public account" response.details
    let second ← call fun number => node.getAccount number ⟨accountId, some (mapsToRequest details)⟩
    return (blockNumber, ← accountProofOf second)
  else return (blockNumber, ← accountProofOf response)

variable [AccountConstructors]

/-- The storage slots built so far, and the changes of all maps once they are fetched. -/
abbrev SlotsProgress := List (StorageSlotName × StorageSlotContent) ×
  Option (SyncInfo StorageMapUpdate)

/-- The changes of all maps are fetched once. -/
def cachedMapInfo (accountId : AccountId) (mapCache : Option (SyncInfo StorageMapUpdate)) :
    AccountRpcM (SyncInfo StorageMapUpdate) :=
  match mapCache with
  | some info => return info
  | none => node.syncStorageMapsInfo 0 none accountId

/-- The latest values of a map, from the changes of all maps. -/
def latestMapEntries (info : SyncInfo StorageMapUpdate) (slotName : StorageSlotName) :
    ExtTreeMap StorageMapKey Word :=
  ChangeLog.replay ((info.updates.filter fun update => update.slotName = slotName).map
    fun update => (update.blockNum, update.key, update.value))

/-- The entries of a map in a response, all of which must be there. -/
def allMapEntries : StorageMapEntries → AccountRpcM (List (StorageMapKey × Word))
  | .allEntries entries => return entries
  | .entriesWithProofs _ => throw (.rpcError (.expectedDataMissing
      "expected AllEntries for full account fetch, got EntriesWithProofs"))

/-- Adds one slot: a value, a map from the response, or a map that is fetched separately. -/
def buildStorageSlot (accountId : AccountId) (storageDetails : AccountStorageDetails)
    (progress : SlotsProgress) (slot : StorageSlotHeader) : AccountRpcM SlotsProgress :=
  match slot.2.1 with
  | .value => return (progress.1 ++ [(slot.1, .value slot.2.2)], progress.2)
  | .map => do
    let mapDetails ← required "slot was reported as a map" (storageDetails.findMapDetails slot.1)
    if mapDetails.tooManyEntries then
      let info ← node.cachedMapInfo accountId progress.2
      let map ← accept (AccountConstructors.storageMap (latestMapEntries info slot.1).toList)
      return (progress.1 ++ [(slot.1, .map map)], some info)
    else
      let entries ← allMapEntries mapDetails.entries
      let map ← accept (AccountConstructors.storageMap entries)
      return (progress.1 ++ [(slot.1, .map map)], progress.2)

/-- Returns all storage slots of an account, given its storage details. -/
def buildStorageSlots (accountId : AccountId) (storageDetails : AccountStorageDetails) :
    AccountRpcM (List (StorageSlotName × StorageSlotContent)) := do
  let progress ← storageDetails.header.foldlM (node.buildStorageSlot accountId storageDetails)
    ([], none)
  return progress.1

/-- The latest assets, from their changes. -/
def latestAssets (info : SyncInfo AccountVaultUpdate) : List Asset :=
  (OrderedMap.values (ChangeLog.replay (info.updates.map fun update =>
    (update.blockNum, update.vaultKey, update.asset)))).reduceOption

/-- The assets of the vault, which are fetched separately when there are too many. -/
def fetchAssets (details : AccountDetails) : AccountRpcM (List Asset) := do
  if details.vaultDetails.tooManyAssets then
    let vaultInfo ← node.syncAccountVaultInfo 0 none details.header.id
    return latestAssets vaultInfo
  else return details.vaultDetails.assets

/-- Puts the account together. -/
def assembleAccount (details : AccountDetails) : AccountRpcM Account := do
  let assets ← node.fetchAssets details
  let slots ← node.buildStorageSlots details.header.id details.storageDetails
  let vault ← accept (AccountConstructors.assetVault assets)
  let storage ← accept (AccountConstructors.accountStorage slots)
  let account : Account :=
    ⟨details.header.id, vault, storage, details.code, details.header.nonce, none⟩
  accept (AccountConstructors.checkAccount account)
  return account

/-- Fetches an account: its whole state if it is public, and its commitment otherwise. -/
def getAccountDetails (accountId : AccountId) : AccountRpcM FetchedAccount := do
  let (blockNumber, fullAccountProof) ← node.fetchFullAccountProof accountId
  let summary : AccountUpdateSummary := ⟨fullAccountProof.accountCommitment, blockNumber⟩
  if ProtocolLibrary.isPrivate accountId then return .isPrivate accountId summary
  else
    let details ← required "GetAccountDetails returned a public account without details"
      fullAccountProof.stateHeaders
    return .isPublic (← node.assembleAccount details) summary

end AccountNode

end MidenClient
