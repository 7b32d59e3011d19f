/-
This file proves when a fetched account is one that the chain has.

The parts of a public account come from several requests: the block number of the summary
from the first, the commitment, the header and the small parts from the second, and a vault
or a map that is too large from the last page of its own synchronization. Nothing compares
them in the end. The account is the one of the summary exactly when the account did not
change in between, in the parts that are taken from other requests.
-/

import MidenClient.Rpc.AccountDetails
import MidenClient.Store.SmtTree

namespace MidenClient

open Std (ExtTreeMap)
open Fallible AccountRpcM
open ChangeLog (Covers)

/-! ### Synchronizing page by page -/

/-- The page has the changes from a block on, not further than up to the tip. -/
structure TruePage {κ ν : Type} (initial : κ → ν) (value : BlockNumber → κ → ν)
    (tip blockFrom : BlockNumber) (info : PaginationInfo) (log : List (BlockNumber × κ × ν)) :
    Prop where
  chainTip : info.chainTip = tip
  blockNum_le : info.blockNum ≤ info.chainTip
  covers : blockFrom ≤ info.blockNum → Covers initial value blockFrom (info.blockNum + 1) log

/-- A synchronization that starts with one request and block has its final page in answer to
another request. -/
inductive SyncEnds {α : Type} (request : ℕ → BlockRange → Except NodeError (SyncPage α)) :
    ℕ → BlockNumber → ℕ → Prop
  | final {number : ℕ} {blockFrom : BlockNumber} {page : SyncPage α} {info : PaginationInfo}
      (answered : request number ⟨blockFrom, none⟩ = .ok page)
      (pagination : page.paginationInfo = some info) (atTip : info.chainTip ≤ info.blockNum) :
      SyncEnds request number blockFrom number
  | more {number last : ℕ} {blockFrom : BlockNumber} {page : SyncPage α} {info : PaginationInfo}
      (answered : request number ⟨blockFrom, none⟩ = .ok page)
      (pagination : page.paginationInfo = some info) (before : info.blockNum < info.chainTip)
      (rest : SyncEnds request (number + 1) (info.blockNum + 1) last) :
      SyncEnds request number blockFrom last

theorem SyncEnds.unique {α : Type} {request : ℕ → BlockRange → Except NodeError (SyncPage α)}
    {number first second : ℕ} {blockFrom : BlockNumber}
    (ends : SyncEnds request number blockFrom first)
    (endsToo : SyncEnds request number blockFrom second) : first = second := by
  induction ends with
  | final answered pagination atTip =>
    cases endsToo with
    | final _ _ _ => rfl
    | more answeredToo paginationToo before _ =>
      cases answered.symm.trans answeredToo
      cases pagination.symm.trans paginationToo
      exact absurd before (not_lt.mpr atTip)
  | more answered pagination before _ inductionHypothesis =>
    cases endsToo with
    | final answeredToo paginationToo atTip =>
      cases answered.symm.trans answeredToo
      cases pagination.symm.trans paginationToo
      exact absurd before (not_lt.mpr atTip)
    | more answeredToo paginationToo _ rest =>
      cases answered.symm.trans answeredToo
      cases pagination.symm.trans paginationToo
      exact inductionHypothesis rest

/-- A synchronization that succeeds has the changes up to the tip at its final page. -/
theorem syncPages_eq_ok {α κ ν : Type} {initial : κ → ν} {value : BlockNumber → κ → ν}
    {tip : ℕ → BlockNumber} {request : ℕ → BlockRange → Except NodeError (SyncPage α)}
    {entry : α → BlockNumber × κ × ν}
    (pages : ∀ number blockFrom page info, request number ⟨blockFrom, none⟩ = .ok page →
      page.paginationInfo = some info →
        TruePage initial value (tip number) blockFrom info (page.updates.map entry))
    {bound number next : ℕ} {pagination : BlockPagination} {updates : List α} {info : SyncInfo α}
    {start : BlockNumber} (unbounded : pagination.blockTo = none)
    (ordered : start ≤ pagination.currentBlockFrom)
    (covers : Covers initial value start pagination.currentBlockFrom (updates.map entry))
    (finished : syncPages request bound pagination updates number = .ok info next) :
    ∃ last, next = last + 1 ∧ SyncEnds request number pagination.currentBlockFrom last ∧
      Covers initial value start (tip last + 1) (info.updates.map entry) := by
  induction bound generalizing number pagination updates with
  | zero => cases finished
  | succ bound inductionHypothesis =>
    unfold syncPages at finished
    obtain ⟨response, _, called, finished⟩ := bind_eq_result_ok.mp finished
    obtain ⟨answered, rfl⟩ := call_eq_ok called
    obtain ⟨page, _, present, finished⟩ := bind_eq_result_ok.mp finished
    obtain ⟨pageInfo, rfl⟩ := required_eq_ok present
    obtain ⟨result, _, moved, finished⟩ := bind_eq_result_ok.mp finished
    obtain ⟨advanced, rfl⟩ := fromExcept_eq_ok.mp moved
    have asked : request number ⟨pagination.currentBlockFrom, none⟩ = .ok response := by
      rw [← unbounded]
      exact answered
    have truth := pages _ _ _ _ asked pageInfo
    have moves := BlockPagination.advance_eq_ok advanced
    rw [unbounded] at moves
    obtain ⟨-, forward, ⟨atTip, rfl⟩ | ⟨before, rfl⟩⟩ := moves
    all_goals
      have grown : Covers initial value start (page.blockNum + 1)
          ((updates ++ response.updates).map entry) := by
        rw [List.map_append]
        exact covers.append (truth.covers forward) ordered (Nat.le_succ_of_le forward)
    · cases finished
      have same : page.blockNum = tip number :=
        truth.chainTip ▸ le_antisymm truth.blockNum_le atTip
      rw [same] at grown
      exact ⟨number, rfl, .final asked pageInfo atTip, grown⟩
    · obtain ⟨last, counted, ends, complete⟩ := inductionHypothesis rfl
        (ordered.trans (Nat.le_succ_of_le forward)) grown finished
      exact ⟨last, counted, .more asked pageInfo before ends, complete⟩

/-- The request that the assets come from: the second one, or the last one of their
synchronization. -/
def AssetsFrom (node : AccountNode) (details : AccountDetails) (last : ℕ) : Prop :=
  if details.vaultDetails.tooManyAssets then
    SyncEnds (fun number range => node.syncAccountVault number range details.header.id) 2 0 last
  else last = 1

/-- The request that the entries of a map come from. -/
def MapFrom (node : AccountNode) (details : AccountDetails) (first : ℕ)
    (slotName : StorageSlotName) (last : ℕ) : Prop :=
  ∃ mapDetails, details.storageDetails.findMapDetails slotName = some mapDetails ∧
    if mapDetails.tooManyEntries then
      SyncEnds (fun number range => node.syncStorageMaps number range details.header.id) first 0
        last
    else last = 1

/-- The details in the answer to the second request. -/
def SecondDetails (node : AccountNode) (accountId : AccountId) (details : AccountDetails) : Prop :=
  ∃ first firstDetails second, node.getAccount 0 ⟨accountId, some []⟩ = .ok first ∧
    first.details = some firstDetails ∧
      node.getAccount 1 ⟨accountId, some (AccountNode.mapsToRequest firstDetails)⟩ = .ok second ∧
        second.details = some details

theorem SecondDetails.unique {node : AccountNode} {accountId : AccountId}
    {first second : AccountDetails} (answered : SecondDetails node accountId first)
    (answeredToo : SecondDetails node accountId second) : first = second := by
  obtain ⟨response, firstDetails, _, asked, held, again, listed⟩ := answered
  obtain ⟨_, _, _, askedToo, heldToo, againToo, listedToo⟩ := answeredToo
  cases asked.symm.trans askedToo
  cases held.symm.trans heldToo
  cases again.symm.trans againToo
  exact Option.some.inj (listed.symm.trans listedToo)

theorem AssetsFrom.unique {node : AccountNode} {details : AccountDetails} {first second : ℕ}
    (comes : AssetsFrom node details first) (comesToo : AssetsFrom node details second) :
    first = second := by
  unfold AssetsFrom at comes comesToo
  split at comes
  · rename_i large
    rw [if_pos large] at comesToo
    exact comes.unique comesToo
  · rename_i small
    rw [if_neg small] at comesToo
    rw [comes, comesToo]

theorem MapFrom.unique {node : AccountNode} {details : AccountDetails} {number first second : ℕ}
    {slotName : StorageSlotName} (comes : MapFrom node details number slotName first)
    (comesToo : MapFrom node details number slotName second) : first = second := by
  obtain ⟨mapDetails, found, comes⟩ := comes
  obtain ⟨other, foundToo, comesToo⟩ := comesToo
  cases found.symm.trans foundToo
  split at comes
  · rename_i large
    rw [if_pos large] at comesToo
    exact comes.unique comesToo
  · rename_i small
    rw [if_neg small] at comesToo
    rw [comes, comesToo]

section Library

variable [ProtocolLibrary]

/-! ### Truthful answers -/

/-- A public account at the blocks of the chain. It has no state before its creation. -/
structure AccountHistory where
  accountId : AccountId
  state : BlockNumber → Option Account
  isPublic : ProtocolLibrary.isPrivate accountId = false
  own : ∀ block account, state block = some account → account.id = accountId
  keyed : ∀ block account (vaultKey : AssetVaultKey) (asset : Asset), state block = some account →
    account.vault[vaultKey]? = some asset → asset.vaultKey = vaultKey

namespace AccountHistory

variable (history : AccountHistory)

def commitment (block : BlockNumber) : Option Word :=
  (history.state block).map fun account => account.toHeader.toCommitment

def vault (block : BlockNumber) : ExtTreeMap AssetVaultKey Asset :=
  (history.state block).elim ∅ Account.vault

def map (block : BlockNumber) (slotName : StorageSlotName) : ExtTreeMap StorageMapKey Word :=
  match (history.state block).bind fun account => account.storage[slotName]? with
  | some (.map entries) => entries
  | _ => ∅

def assetAt (block : BlockNumber) (vaultKey : AssetVaultKey) : Option Asset :=
  (history.vault block)[vaultKey]?

def valueAt (block : BlockNumber) (entry : StorageSlotName × StorageMapKey) : Word :=
  (history.map block entry.1)[entry.2]?.getD emptyWord

end AccountHistory

/-- The details are those of the account. What is said to be too large is left out. -/
structure TrueDetails (account : Account) (details : AccountDetails) : Prop where
  header : details.header = account.toHeader
  slots : details.storageDetails.header =
    account.storage.toList.map fun slot => (slot.1, slot.2.slotType, slot.2.topValue)
  entries : ∀ slotName mapDetails listed content,
    details.storageDetails.findMapDetails slotName = some mapDetails →
      mapDetails.tooManyEntries = false → mapDetails.entries = .allEntries listed →
        account.storage[slotName]? = some (.map content) →
          ∀ key value, value ≠ emptyWord → ((key, value) ∈ listed ↔ content[key]? = some value)
  assets : details.vaultDetails.tooManyAssets = false →
    ∀ asset, asset ∈ details.vaultDetails.assets ↔ account.vault[asset.vaultKey]? = some asset

structure TrueResponse (account : Account) (block : BlockNumber) (response : AccountResponse) :
    Prop where
  blockNum : ∀ blockNum, response.blockNum = some blockNum → blockNum = block
  witness : ∀ witness, response.witness = some witness →
    witness = ⟨account.id, account.toHeader.toCommitment⟩
  details : ∀ details, response.details = some details → TrueDetails account details

def StorageMapUpdate.entry (update : StorageMapUpdate) :
    BlockNumber × (StorageSlotName × StorageMapKey) × Word :=
  (update.blockNum, (update.slotName, update.key), update.value)

def AccountVaultUpdate.entry (update : AccountVaultUpdate) :
    BlockNumber × AssetVaultKey × Option Asset :=
  (update.blockNum, update.vaultKey, update.asset)

/-- Each request is answered for the tip of the chain at that time. -/
structure Truthful (node : AccountNode) (history : AccountHistory) (tip : ℕ → BlockNumber) :
    Prop where
  getAccount : ∀ number details response,
    node.getAccount number ⟨history.accountId, details⟩ = .ok response →
      ∃ account, history.state (tip number) = some account ∧
        TrueResponse account (tip number) response
  storageMaps : ∀ number blockFrom page info,
    node.syncStorageMaps number ⟨blockFrom, none⟩ history.accountId = .ok page →
      page.paginationInfo = some info →
        TruePage (fun _ => emptyWord) history.valueAt (tip number) blockFrom info
          (page.updates.map StorageMapUpdate.entry)
  accountVault : ∀ number blockFrom page info,
    node.syncAccountVault number ⟨blockFrom, none⟩ history.accountId = .ok page →
      page.paginationInfo = some info →
        TruePage (fun _ => none) history.assetAt (tip number) blockFrom info
          (page.updates.map AccountVaultUpdate.entry)

/-! ### The parts of an account -/

/-- What the constructors of the protocol library make of lists. They refuse two entries for the
same key. -/
structure ConstructorLaws [AccountConstructors] : Prop where
  assetVault : ∀ assets vault, AccountConstructors.assetVault assets = .ok vault →
    ∀ (vaultKey : AssetVaultKey) (asset : Asset),
      vault[vaultKey]? = some asset ↔ asset ∈ assets ∧ asset.vaultKey = vaultKey
  storageMap : ∀ entries map, AccountConstructors.storageMap entries = .ok map →
    ∀ (key : StorageMapKey) (value : Word), value ≠ emptyWord →
      (map[key]? = some value ↔ (key, value) ∈ entries)
  accountStorage : ∀ slots storage, AccountConstructors.accountStorage slots = .ok storage →
    ∀ (slotName : StorageSlotName) (content : StorageSlotContent),
      storage[slotName]? = some content ↔ (slotName, content) ∈ slots

theorem AccountHistory.vaultKey_of_assetAt {history : AccountHistory} {block : BlockNumber}
    {vaultKey : AssetVaultKey} {asset : Asset}
    (held : history.assetAt block vaultKey = some asset) :
    asset.vaultKey = vaultKey := by
  unfold assetAt vault at held
  cases there : history.state block with
  | none =>
    rw [there] at held
    cases ExtTreeMap.getElem?_empty.symm.trans held
  | some account =>
    rw [there] at held
    exact history.keyed block account vaultKey asset there held

omit [ProtocolLibrary] in
/-- The latest assets are those of the block that the changes reach. -/
theorem mem_latestAssets_iff {assetAt : BlockNumber → AssetVaultKey → Option Asset}
    (keyed : ∀ block vaultKey asset, assetAt block vaultKey = some asset →
      asset.vaultKey = vaultKey) {block : BlockNumber} {info : SyncInfo AccountVaultUpdate}
    (covers : Covers (fun _ => none) assetAt 0 (block + 1)
      (info.updates.map AccountVaultUpdate.entry)) (asset : Asset) :
    asset ∈ AccountNode.latestAssets info ↔ assetAt block asset.vaultKey = some asset := by
  unfold AccountNode.latestAssets
  rw [List.reduceOption_mem_iff, OrderedMap.mem_values_iff]
  have replayed : ∀ vaultKey,
      (ChangeLog.replay (info.updates.map AccountVaultUpdate.entry))[vaultKey]? =
      some (some asset) ↔ assetAt block vaultKey = some asset := by
    intro vaultKey
    have value : _ = assetAt block vaultKey := covers.replay_getD vaultKey
    rw [← value]
    cases (ChangeLog.replay (info.updates.map AccountVaultUpdate.entry))[vaultKey]? with
    | none => exact ⟨fun absent => (nomatch absent), fun absent => (nomatch absent)⟩
    | some held => exact Option.some_inj
  constructor
  · rintro ⟨vaultKey, found⟩
    have held := (replayed vaultKey).mp found
    rwa [keyed block vaultKey asset held]
  · exact fun held => ⟨asset.vaultKey, (replayed asset.vaultKey).mpr held⟩

omit [ProtocolLibrary] in
/-- The latest entries of a map are those of the block that the changes reach. -/
theorem latestMapEntries_getD {valueAt : BlockNumber → StorageSlotName × StorageMapKey → Word}
    {block : BlockNumber} {info : SyncInfo StorageMapUpdate}
    (covers : Covers (fun _ => emptyWord) valueAt 0 (block + 1)
      (info.updates.map StorageMapUpdate.entry)) (slotName : StorageSlotName)
    (key : StorageMapKey) :
    (AccountNode.latestMapEntries info slotName)[key]?.getD emptyWord =
      valueAt block (slotName, key) := by
  let own : StorageSlotName × StorageMapKey → Option StorageMapKey := fun entry =>
    if entry.1 = slotName then some entry.2 else none
  have renames : ∀ entry key', own entry = some key' ↔ entry = (slotName, key') := by
    rintro ⟨name, other⟩ key'
    by_cases same : name = slotName
    · simp [own, same]
    · simp [own, same]
  have listed : (info.updates.map StorageMapUpdate.entry).filterMap (fun entry =>
      (own entry.2.1).map fun key' => (entry.1, key', entry.2.2)) =
        (info.updates.filter fun update => update.slotName = slotName).map
          fun update => (update.blockNum, update.key, update.value) := by
    induction info.updates with
    | nil => rfl
    | cons update rest inductionHypothesis =>
      rw [List.map_cons, List.filterMap_cons, inductionHypothesis]
      by_cases same : update.slotName = slotName
      · simp [own, StorageMapUpdate.entry, same]
      · simp [own, StorageMapUpdate.entry, same]
  have replayed := (covers.filterMap renames).replay_getD key
  rw [listed] at replayed
  exact replayed

/-! ### A fetched account -/

section Fetched

variable {node : AccountNode} {history : AccountHistory} {tip : ℕ → BlockNumber}
  {details : AccountDetails} {account : Account}

/-- The assets are those of the tip at the request they come from. -/
theorem fetchAssets_eq_ok (truthful : Truthful node history tip)
    (present : history.state (tip 1) = some account) (truth : TrueDetails account details)
    (own : details.header.id = history.accountId) {assets : List Asset} {next : ℕ}
    (fetched : node.fetchAssets details 2 = .ok assets next) :
    ∃ last, next = last + 1 ∧ AssetsFrom node details last ∧
      ∀ asset, asset ∈ assets ↔ history.assetAt (tip last) asset.vaultKey = some asset := by
  unfold AccountNode.fetchAssets at fetched
  unfold AssetsFrom
  split at fetched
  · rename_i large
    obtain ⟨info, _, synced, finished⟩ := bind_eq_result_ok.mp fetched
    cases finished
    unfold AccountNode.syncAccountVaultInfo at synced
    rw [own] at synced ⊢
    obtain ⟨last, counted, ends, covers⟩ := syncPages_eq_ok truthful.accountVault rfl le_rfl
      (ChangeLog.covers_nil _ _ _) synced
    have keyed : ∀ block vaultKey asset, history.assetAt block vaultKey = some asset →
        asset.vaultKey = vaultKey := fun _ _ _ held => AccountHistory.vaultKey_of_assetAt held
    refine ⟨last, counted, ?_, mem_latestAssets_iff keyed covers⟩
    rwa [if_pos large]
  · rename_i small
    cases fetched
    refine ⟨1, rfl, ?_, fun asset => ?_⟩
    · rw [if_neg small]
    · unfold AccountHistory.assetAt AccountHistory.vault
      rw [present]
      exact truth.assets (Bool.eq_false_iff.mpr small) asset

/-- A slot that is built for a header: with its value, or with the entries of a map at the tip at
the request they come from. -/
structure SlotBuilt (node : AccountNode) (history : AccountHistory) (tip : ℕ → BlockNumber)
    (details : AccountDetails) (first : ℕ) (header : StorageSlotHeader)
    (slot : StorageSlotName × StorageSlotContent) : Prop where
  name : slot.1 = header.1
  slotType : slot.2.slotType = header.2.1
  value : header.2.1 = .value → slot.2.topValue = header.2.2
  map : header.2.1 = .map → ∃ last, MapFrom node details first header.1 last ∧
    slot.2.topValue = storageMapRoot (history.map (tip last) header.1)

/-- The changes of all maps, once they are fetched, reach the tip at their final page. -/
def CacheFrom (node : AccountNode) (history : AccountHistory) (tip : ℕ → BlockNumber)
    (first : ℕ) (progress : AccountNode.SlotsProgress) (number : ℕ) : Prop :=
  match progress.2 with
  | none => number = first
  | some info => ∃ last,
      SyncEnds (fun number range => node.syncStorageMaps number range history.accountId) first 0
        last ∧
        Covers (fun _ => emptyWord) history.valueAt 0 (tip last + 1)
          (info.updates.map StorageMapUpdate.entry)

theorem cachedMapInfo_eq_ok (truthful : Truthful node history tip) {first number next : ℕ}
    {progress : AccountNode.SlotsProgress} {info : SyncInfo StorageMapUpdate}
    (cache : CacheFrom node history tip first progress number)
    (given : node.cachedMapInfo history.accountId progress.2 number = .ok info next) :
    ∃ last,
      SyncEnds (fun number range => node.syncStorageMaps number range history.accountId) first 0
        last ∧
        Covers (fun _ => emptyWord) history.valueAt 0 (tip last + 1)
          (info.updates.map StorageMapUpdate.entry) := by
  unfold CacheFrom at cache
  unfold AccountNode.cachedMapInfo at given
  cases cached : progress.2 with
  | some held =>
    rw [cached] at cache given
    cases given
    exact cache
  | none =>
    rw [cached] at cache given
    obtain rfl : number = first := cache
    obtain ⟨last, -, ends, covers⟩ := syncPages_eq_ok truthful.storageMaps rfl le_rfl
      (ChangeLog.covers_nil _ _ _) given
    exact ⟨last, ends, covers⟩

/-- The header of a slot tells the type and the top-level value of its content. -/
theorem TrueDetails.content_of_slot (truth : TrueDetails account details) {slot : StorageSlotHeader}
    (listed : slot ∈ details.storageDetails.header) :
    ∃ content, account.storage[slot.1]? = some content ∧
      slot.2 = (content.slotType, content.topValue) := by
  rw [truth.slots] at listed
  obtain ⟨⟨slotName, content⟩, stored, rfl⟩ := List.mem_map.mp listed
  exact ⟨content, ExtTreeMap.mem_toList_iff_getElem?_eq_some.mp stored, rfl⟩

/-- The root in the header of a map slot is that of the map at the block. -/
theorem TrueDetails.root_of_slot {block : BlockNumber}
    (present : history.state block = some account)
    (truth : TrueDetails account details) {slot : StorageSlotHeader}
    (listed : slot ∈ details.storageDetails.header) (kind : slot.2.1 = .map) :
    account.storage[slot.1]? = some (.map (history.map block slot.1)) ∧
      slot.2.2 = storageMapRoot (history.map block slot.1) := by
  obtain ⟨content, stored, same⟩ := truth.content_of_slot listed
  cases content with
  | value word =>
    rw [same] at kind
    cases kind
  | map entries =>
    have held : history.map block slot.1 = entries := by
      unfold AccountHistory.map
      rw [present, Option.bind_some, stored]
    rw [held, same]
    exact ⟨stored, rfl⟩

variable [AccountConstructors] {leaves : Word → Word → Word} (law : SmtLaw leaves)
  (hashes : Function.Injective ProtocolLibrary.mapKeyHash) (laws : ConstructorLaws)

include law hashes laws

/-- A map with the entries of a list has the root of any map with the same entries. -/
theorem storageMap_root {entries : List (StorageMapKey × Word)}
    {map content : ExtTreeMap StorageMapKey Word}
    (made : AccountConstructors.storageMap entries = .ok map)
    (same : ∀ (key : StorageMapKey) (value : Word), value ≠ emptyWord →
      ((key, value) ∈ entries ↔ content[key]? = some value)) :
    storageMapRoot map = storageMapRoot content := by
  have agree : ∀ (key : StorageMapKey) (value : Word), value ≠ emptyWord →
      (map[key]? = some value ↔ content[key]? = some value) := fun key value full =>
    (laws.storageMap entries map made key value full).trans (same key value full)
  refine law.storageMapRoot_congr hashes fun key => ?_
  by_cases full : map[key]?.getD emptyWord = emptyWord
  · rw [full]
    cases held : content[key]? with
    | none => rfl
    | some value =>
      by_contra different
      have full' : value ≠ emptyWord := fun empty => different empty.symm
      rw [(agree key value full').mpr held] at full
      exact full' full
  · cases held : map[key]? with
    | none =>
      rw [held] at full
      exact absurd rfl full
    | some value =>
      rw [held] at full
      rw [(agree key value full).mp held]

/-- A slot is built for its header, and the changes of the maps are kept for the next one. -/
theorem buildStorageSlot_eq_ok (truthful : Truthful node history tip)
    (present : history.state (tip 1) = some account) (truth : TrueDetails account details)
    (own : details.header.id = history.accountId) {slot : StorageSlotHeader}
    (listed : slot ∈ details.storageDetails.header) {first number last : ℕ}
    {progress next : AccountNode.SlotsProgress}
    (cache : CacheFrom node history tip first progress number)
    (built : node.buildStorageSlot history.accountId details.storageDetails progress slot number =
      .ok next last) :
    CacheFrom node history tip first next last ∧
      ∃ made, SlotBuilt node history tip details first slot made ∧
        next.1 = progress.1 ++ [made] := by
  obtain ⟨slotName, slotType, topValue⟩ := slot
  cases slotType with
  | value =>
    cases built
    exact ⟨cache, _, ⟨rfl, rfl, fun _ => rfl, fun other => (nomatch other)⟩, rfl⟩
  | map =>
    obtain ⟨mapDetails, _, required, built⟩ := bind_eq_result_ok.mp built
    obtain ⟨found, rfl⟩ := required_eq_ok required
    split at built
    · rename_i large
      obtain ⟨info, _, cached, built⟩ := bind_eq_result_ok.mp built
      obtain ⟨map, _, accepted, built⟩ := bind_eq_result_ok.mp built
      obtain ⟨made, rfl⟩ := accept_eq_ok accepted
      cases built
      obtain ⟨final, ends, covers⟩ := cachedMapInfo_eq_ok truthful cache cached
      refine ⟨⟨final, ends, covers⟩, _, ⟨rfl, rfl, fun other => (nomatch other),
        fun _ => ⟨final, ⟨mapDetails, found, ?_⟩, ?_⟩⟩, rfl⟩
      · rw [if_pos large, own]
        exact ends
      · have entries := storageMap_root law hashes laws made fun key value _ =>
          ExtTreeMap.mem_toList_iff_getElem?_eq_some
        refine entries.trans (law.storageMapRoot_congr hashes fun key => ?_)
        exact latestMapEntries_getD covers slotName key
    · rename_i small
      obtain ⟨entries, _, all, built⟩ := bind_eq_result_ok.mp built
      obtain ⟨map, _, accepted, built⟩ := bind_eq_result_ok.mp built
      obtain ⟨made, rfl⟩ := accept_eq_ok accepted
      cases built
      cases allListed : mapDetails.entries with
      | allEntries listedEntries =>
        rw [allListed] at all
        cases all
        refine ⟨cache, _, ⟨rfl, rfl, fun other => (nomatch other),
          fun _ => ⟨1, ⟨mapDetails, found, ?_⟩, ?_⟩⟩, rfl⟩
        · rw [if_neg small]
        · exact storageMap_root law hashes laws made (truth.entries slotName mapDetails _ _ found
            (Bool.eq_false_iff.mpr small) allListed (truth.root_of_slot present listed rfl).1)
      | entriesWithProofs proofs =>
        rw [allListed] at all
        cases all

/-- The slots are built for the headers one by one. -/
theorem buildStorageSlots_eq_ok (truthful : Truthful node history tip)
    (present : history.state (tip 1) = some account) (truth : TrueDetails account details)
    (own : details.header.id = history.accountId) {first last : ℕ}
    {slots : List (StorageSlotName × StorageSlotContent)}
    (built : node.buildStorageSlots history.accountId details.storageDetails first =
      .ok slots last) :
    List.Forall₂ (SlotBuilt node history tip details first) details.storageDetails.header
      slots := by
  obtain ⟨progress, _, looped, finished⟩ := bind_eq_result_ok.mp built
  cases finished
  obtain ⟨made, collected, paired⟩ := foldlM_result_forall₂
    (CacheFrom node history tip first) Prod.fst
    (fun slot listed _ _ _ _ cache stepped =>
      buildStorageSlot_eq_ok law hashes laws truthful present truth own listed cache stepped)
    (show CacheFrom node history tip first ([], none) first from rfl) looped
  rw [collected]
  exact paired

omit [AccountConstructors] law hashes laws in
/-- The slots are those of the headers exactly when the maps have the roots in the headers. -/
theorem slots_eq_headers_iff {first : ℕ} {headers : List StorageSlotHeader}
    {slots : List (StorageSlotName × StorageSlotContent)}
    (built : List.Forall₂ (SlotBuilt node history tip details first) headers slots) :
    slots.map (fun slot => (slot.1, slot.2.slotType, slot.2.topValue)) = headers ↔
      ∀ header ∈ headers, header.2.1 = .map → ∀ last, MapFrom node details first header.1 last →
        storageMapRoot (history.map (tip last) header.1) = header.2.2 := by
  induction built with
  | nil => exact ⟨fun _ _ absent => absurd absent List.not_mem_nil, fun _ => rfl⟩
  | @cons header slot headers slots made _ inductionHypothesis =>
    rw [List.map_cons, List.cons_eq_cons, List.forall_mem_cons, inductionHypothesis,
      and_congr_left_iff]
    intro _
    have same : (slot.1, slot.2.slotType, slot.2.topValue) = header ↔
        slot.2.topValue = header.2.2 := by
      rw [made.name, made.slotType]
      exact ⟨fun equal => congrArg (fun part => part.2.2) equal, fun equal => by rw [equal]⟩
    rw [same]
    cases kind : header.2.1 with
    | value => exact ⟨fun _ other => (nomatch other), fun _ => made.value kind⟩
    | map =>
      obtain ⟨last, comes, root⟩ := made.map kind
      rw [root]
      constructor
      · intro equal _ other comesToo
        rw [comesToo.unique comes]
        exact equal
      · exact fun equal => equal rfl last comes

omit [AccountConstructors] law hashes laws in
theorem names_of_built {first : ℕ} {headers : List StorageSlotHeader}
    {slots : List (StorageSlotName × StorageSlotContent)}
    (built : List.Forall₂ (SlotBuilt node history tip details first) headers slots) :
    slots.map Prod.fst = headers.map Prod.fst := by
  induction built with
  | nil => rfl
  | cons made _ inductionHypothesis =>
    rw [List.map_cons, List.map_cons, inductionHypothesis, made.name]

omit [AccountConstructors] law hashes laws in
/-- The slots are built in the order of their names. -/
theorem rising_of_built {first : ℕ} {slots : List (StorageSlotName × StorageSlotContent)}
    (truth : TrueDetails account details)
    (built : List.Forall₂ (SlotBuilt node history tip details first)
      details.storageDetails.header slots) :
    slots.Pairwise fun one two => one.1 < two.1 := by
  have names : (slots.map Prod.fst).Pairwise (· < ·) := by
    rw [names_of_built built, truth.slots, List.map_map]
    exact List.pairwise_map.mpr (OrderedMap.pairwise_lt_toList account.storage)
  exact List.pairwise_map.mp names

/-- An account that is put together has the header of the account in the details exactly when its
assets and its maps come from requests at which they were the same. -/
theorem assembleAccount_eq_ok (truthful : Truthful node history tip)
    (present : history.state (tip 1) = some account) (truth : TrueDetails account details)
    (own : details.header.id = history.accountId)
    (code : details.code = details.header.codeCommitment)
    (commits : Function.Injective ProtocolLibrary.storageCommitment) {fetched : Account} {next : ℕ}
    (assembled : node.assembleAccount details 2 = .ok fetched next) :
    ∃ assetsLast, AssetsFrom node details assetsLast ∧ (fetched.toHeader = details.header ↔
      assetVaultRoot (history.vault (tip assetsLast)) = assetVaultRoot (history.vault (tip 1)) ∧
        ∀ slotName ∈ AccountNode.mapsToRequest details, ∀ last,
          MapFrom node details (assetsLast + 1) slotName last →
            storageMapRoot (history.map (tip last) slotName) =
              storageMapRoot (history.map (tip 1) slotName)) := by
  obtain ⟨assets, _, assetsFetched, assembled⟩ := bind_eq_result_ok.mp assembled
  obtain ⟨assetsLast, rfl, comes, held⟩ :=
    fetchAssets_eq_ok truthful present truth own assetsFetched
  obtain ⟨slots, _, slotsBuilt, assembled⟩ := bind_eq_result_ok.mp assembled
  obtain ⟨vault, _, vaultAccepted, assembled⟩ := bind_eq_result_ok.mp assembled
  obtain ⟨vaultMade, rfl⟩ := accept_eq_ok vaultAccepted
  obtain ⟨storage, _, storageAccepted, assembled⟩ := bind_eq_result_ok.mp assembled
  obtain ⟨storageMade, rfl⟩ := accept_eq_ok storageAccepted
  obtain ⟨_, _, _, finished⟩ := bind_eq_result_ok.mp assembled
  cases finished
  rw [own] at slotsBuilt
  have built := buildStorageSlots_eq_ok law hashes laws truthful present truth own slotsBuilt
  refine ⟨assetsLast, comes, ?_⟩
  have vaultSame : vault = history.vault (tip assetsLast) := by
    refine ExtTreeMap.ext_getElem? fun vaultKey => Option.ext fun asset => ?_
    rw [laws.assetVault assets vault vaultMade, held]
    constructor
    · rintro ⟨stored, rfl⟩
      exact stored
    · intro stored
      have keyed := AccountHistory.vaultKey_of_assetAt stored
      rw [keyed]
      exact ⟨stored, rfl⟩
  have slotsSame : storage.toList = slots :=
    OrderedMap.toList_eq_of_getElem?_iff (rising_of_built truth built)
      (laws.accountStorage slots storage storageMade)
  have roots : details.header.vaultRoot = assetVaultRoot (history.vault (tip 1)) := by
    rw [truth.header]
    unfold AccountHistory.vault
    rw [present]
    rfl
  have headers : details.header.storageCommitment =
      ProtocolLibrary.storageCommitment details.storageDetails.header := by
    rw [truth.header, truth.slots]
    rfl
  have parts : Account.toHeader ⟨details.header.id, vault, storage, details.code,
      details.header.nonce, none⟩ = details.header ↔
        assetVaultRoot vault = details.header.vaultRoot ∧
          ProtocolLibrary.storageCommitment (storage.toList.map fun slot =>
            (slot.1, slot.2.slotType, slot.2.topValue)) = details.header.storageCommitment := by
    constructor
    · intro same
      exact ⟨congrArg AccountHeader.vaultRoot same, congrArg AccountHeader.storageCommitment same⟩
    · rintro ⟨vaultRoot, storageCommitment⟩
      show AccountHeader.mk details.header.id details.header.nonce (assetVaultRoot vault)
        (ProtocolLibrary.storageCommitment _) details.code = details.header
      rw [storageCommitment, code, vaultRoot]
  rw [parts, roots, vaultSame, headers, commits.eq_iff, slotsSame, slots_eq_headers_iff built,
    and_congr_right_iff]
  intro _
  constructor
  · intro each slotName requested last comesToo
    obtain ⟨header, kept, rfl⟩ := List.mem_map.mp requested
    obtain ⟨listed, isMap⟩ := List.mem_filter.mp kept
    have kind : header.2.1 = .map := of_decide_eq_true isMap
    rw [each header listed kind last comesToo]
    exact (truth.root_of_slot present listed kind).2
  · intro each header listed kind last comesToo
    rw [(truth.root_of_slot present listed kind).2]
    exact each header.1 (List.mem_map.mpr ⟨header, List.mem_filter.mpr
      ⟨listed, decide_eq_true kind⟩, rfl⟩) last comesToo

omit [AccountConstructors] law hashes laws in
/-- The proof is about the tip at the second request, and the block number is that of the first. -/
theorem fetchFullAccountProof_eq_ok (truthful : Truthful node history tip)
    {blockNumber : BlockNumber} {proof : AccountProof} {next : ℕ}
    (fetched : node.fetchFullAccountProof history.accountId 0 = .ok (blockNumber, proof) next) :
    next = 2 ∧ blockNumber = tip 0 ∧ ∃ account, history.state (tip 1) = some account ∧
      proof.accountCommitment = account.toHeader.toCommitment ∧
        ∀ details, proof.stateHeaders = some details →
          SecondDetails node history.accountId details ∧ TrueDetails account details ∧
            details.header.id = history.accountId ∧
              details.code = details.header.codeCommitment := by
  unfold AccountNode.fetchFullAccountProof at fetched
  rw [history.isPublic] at fetched
  obtain ⟨response, _, called, fetched⟩ := bind_eq_result_ok.mp fetched
  obtain ⟨asked, rfl⟩ := call_eq_ok called
  obtain ⟨_, _, required, fetched⟩ := bind_eq_result_ok.mp fetched
  obtain ⟨numbered, rfl⟩ := required_eq_ok required
  obtain ⟨firstDetails, _, required, fetched⟩ := bind_eq_result_ok.mp fetched
  obtain ⟨held, rfl⟩ := required_eq_ok required
  obtain ⟨second, _, called, fetched⟩ := bind_eq_result_ok.mp fetched
  obtain ⟨again, rfl⟩ := call_eq_ok called
  obtain ⟨_, _, accepted, finished⟩ := bind_eq_result_ok.mp fetched
  cases finished
  obtain ⟨witness, _, required, accepted⟩ := bind_eq_result_ok.mp accepted
  obtain ⟨witnessed, rfl⟩ := required_eq_ok required
  obtain ⟨made, rfl⟩ := accept_eq_ok accepted
  obtain ⟨_, _, firstTruth⟩ := truthful.getAccount _ _ _ asked
  obtain ⟨account, present, truth⟩ := truthful.getAccount _ _ _ again
  obtain rfl := truth.witness witness witnessed
  refine ⟨rfl, firstTruth.blockNum _ numbered, account, present, ?_⟩
  cases listed : second.details with
  | none =>
    rw [listed] at made
    cases made
    exact ⟨rfl, fun _ absent => (nomatch absent)⟩
  | some details =>
    rw [listed] at made
    obtain ⟨rfl, _, own, code⟩ := AccountProof.new_eq_ok made
    refine ⟨rfl, ?_⟩
    rintro _ ⟨⟩
    exact ⟨⟨response, firstDetails, second, asked, held, again, listed⟩,
      truth.details details listed, own.trans (history.own _ _ present), code⟩

/-- The account does not change between the first two requests, and what comes from a later request
is the same there. -/
structure Steady (node : AccountNode) (history : AccountHistory) (tip : ℕ → BlockNumber) :
    Prop where
  commitment : history.commitment (tip 0) = history.commitment (tip 1)
  assets : ∀ details last, SecondDetails node history.accountId details →
    AssetsFrom node details last →
      assetVaultRoot (history.vault (tip last)) = assetVaultRoot (history.vault (tip 1))
  maps : ∀ details assetsLast, SecondDetails node history.accountId details →
    AssetsFrom node details assetsLast → ∀ slotName ∈ AccountNode.mapsToRequest details,
      ∀ last, MapFrom node details (assetsLast + 1) slotName last →
        storageMapRoot (history.map (tip last) slotName) =
          storageMapRoot (history.map (tip 1) slotName)

/-- The account has the commitment of the summary, and had it at the block of the summary. -/
def Coherent (history : AccountHistory) (fetched : FetchedAccount) : Prop :=
  ∃ account summary, fetched = .isPublic account summary ∧
    account.toHeader.toCommitment = summary.commitment ∧
      history.commitment summary.lastBlockNum = some summary.commitment

/-- A fetched account is coherent exactly when the account was steady while it was fetched. -/
theorem getAccountDetails_eq_ok (truthful : Truthful node history tip)
    (collisionFree : CollisionFree)
    (commits : Function.Injective ProtocolLibrary.storageCommitment) {fetched : FetchedAccount}
    {last : ℕ} (run : node.getAccountDetails history.accountId 0 = .ok fetched last) :
    Coherent history fetched ↔ Steady node history tip := by
  unfold AccountNode.getAccountDetails at run
  obtain ⟨⟨blockNumber, proof⟩, _, proved, run⟩ := bind_eq_result_ok.mp run
  obtain ⟨rfl, rfl, account, present, commitment, about⟩ :=
    fetchFullAccountProof_eq_ok truthful proved
  dsimp only at run
  rw [history.isPublic] at run
  obtain ⟨details, _, required, run⟩ := bind_eq_result_ok.mp run
  obtain ⟨headers, rfl⟩ := required_eq_ok required
  obtain ⟨answered, truth, own, code⟩ := about details headers
  obtain ⟨built, _, assembled, finished⟩ := bind_eq_result_ok.mp run
  cases finished
  obtain ⟨assetsLast, comes, exactly⟩ :=
    assembleAccount_eq_ok law hashes laws truthful present truth
    own code commits assembled
  have second : history.commitment (tip 1) = some proof.accountCommitment := by
    unfold AccountHistory.commitment
    rw [present, commitment]
    rfl
  have header : built.toHeader.toCommitment = proof.accountCommitment ↔
      built.toHeader = details.header := by
    rw [commitment, truth.header, collisionFree.eq_iff]
  constructor
  · rintro ⟨_, _, ⟨⟩, same, before⟩
    obtain ⟨assets, maps⟩ := exactly.mp (header.mp same)
    refine ⟨before.trans second.symm, ?_, ?_⟩
    · intro other last answeredToo comesToo
      obtain rfl := answeredToo.unique answered
      rw [comesToo.unique comes]
      exact assets
    · intro other otherLast answeredToo comesToo
      obtain rfl := answeredToo.unique answered
      rw [comesToo.unique comes]
      exact maps
  · intro steady
    refine ⟨built, _, rfl, header.mpr (exactly.mpr ⟨?_, ?_⟩), steady.commitment.trans second⟩
    · exact steady.assets details assetsLast answered comes
    · exact steady.maps details assetsLast answered comes

end Fetched

/-- Fetching a public account fails or returns what the chain has exactly when it fails or the
account is steady in the meantime. -/
theorem getAccountDetails_coherent_iff [AccountConstructors] {node : AccountNode}
    {history : AccountHistory} {tip : ℕ → BlockNumber} {leaves : Word → Word → Word}
    (truthful : Truthful node history tip) (law : SmtLaw leaves)
    (hashes : Function.Injective ProtocolLibrary.mapKeyHash) (laws : ConstructorLaws)
    (collisionFree : CollisionFree)
    (commits : Function.Injective ProtocolLibrary.storageCommitment) :
    (∀ fetched last, node.getAccountDetails history.accountId 0 = .ok fetched last →
      Coherent history fetched) ↔
      ((∃ fetched last, node.getAccountDetails history.accountId 0 = .ok fetched last) →
        Steady node history tip) := by
  constructor
  · rintro coherent ⟨fetched, last, run⟩
    exact (getAccountDetails_eq_ok law hashes laws truthful collisionFree commits run).mp
      (coherent fetched last run)
  · intro steady fetched last run
    exact (getAccountDetails_eq_ok law hashes laws truthful collisionFree commits run).mpr
      (steady ⟨fetched, last, run⟩)

end Library

/-! ### An account that changes while it is fetched -/

namespace Fetching

/-- The library of trees, with storage commitments that keep the slots. -/
scoped instance library : ProtocolLibrary :=
  { Trees.library with
    storageCommitment := fun slots =>
      Encodable.encode (slots.map fun slot => (slot.1, decide (slot.2.1 = .map), slot.2.2)) }

/-- Constructors that refuse two entries for the same key. -/
scoped instance accountConstructors : AccountConstructors where
  storageMap entries :=
    if (entries.map Prod.fst).Nodup then .ok (ExtTreeMap.ofList entries) else .error "duplicate key"
  assetVault assets :=
    if (assets.map Asset.vaultKey).Nodup then
      .ok (ExtTreeMap.ofList (assets.map fun asset => (asset.vaultKey, asset)))
    else .error "duplicate asset"
  accountStorage slots :=
    if (slots.map Prod.fst).Nodup then .ok (ExtTreeMap.ofList slots)
    else .error "duplicate slot name"
  checkAccount _ := .ok ()

theorem storageCommitment_injective : Function.Injective library.storageCommitment := by
  intro first second same
  refine List.map_injective_iff.mpr ?_ (Encodable.encode_injective same)
  rintro ⟨name, slotType, value⟩ ⟨other, otherType, otherValue⟩ equal
  cases slotType <;> cases otherType <;> simp_all

theorem smtTree_trees {root : Word} (tree : SmtTree root) : @SmtTree Trees.library root := by
  induction tree with
  | empty => exact @SmtTree.empty Trees.library
  | batchInsert entries _ inductionHypothesis =>
    exact @SmtTree.batchInsert Trees.library _ entries inductionHypothesis

theorem smtLaw : SmtLaw Trees.leaves where
  collisionFree first second treeFirst treeSecond same :=
    @SmtLaw.collisionFree Trees.library Trees.leaves Trees.smtLaw first second
      (smtTree_trees treeFirst) (smtTree_trees treeSecond) same
  empty := @SmtLaw.empty Trees.library Trees.leaves Trees.smtLaw
  batchInsert root entries tree :=
    @SmtLaw.batchInsert Trees.library Trees.leaves Trees.smtLaw root entries (smtTree_trees tree)

theorem eq_of_guarded {α : Type} {condition : Prop} [Decidable condition] {message : String}
    {value result : α}
    (made : (if condition then Except.ok value else .error message) = .ok result) :
    condition ∧ value = result := by
  split at made
  · rename_i holds
    cases made
    exact ⟨holds, rfl⟩
  · cases made

theorem constructorLaws : ConstructorLaws where
  assetVault assets vault made vaultKey asset := by
    obtain ⟨distinct, rfl⟩ := eq_of_guarded made
    rw [OrderedMap.getElem?_ofList_eq_some_iff _ (by rwa [List.map_map]), List.mem_map]
    constructor
    · rintro ⟨other, listed, same⟩
      cases same
      exact ⟨listed, rfl⟩
    · rintro ⟨listed, rfl⟩
      exact ⟨asset, listed, rfl⟩
  storageMap entries map made key value _ := by
    obtain ⟨distinct, rfl⟩ := eq_of_guarded made
    exact OrderedMap.getElem?_ofList_eq_some_iff entries distinct key value
  accountStorage slots storage made slotName content := by
    obtain ⟨distinct, rfl⟩ := eq_of_guarded made
    exact OrderedMap.getElem?_ofList_eq_some_iff slots distinct slotName content

/-- Account 2 is created in block 1 and gets an asset in block 2. -/
def created : Account :=
  ⟨2, ∅, ∅, 7, 1, none⟩

def deposit : Asset := .fungible ⟨9, 5⟩

def funded : Account :=
  ⟨2, (∅ : ExtTreeMap AssetVaultKey Asset).insert deposit.vaultKey deposit, ∅, 7, 2, none⟩

def stateAt : BlockNumber → Option Account
  | 0 => none
  | 1 => some created
  | _ + 2 => some funded

def history : AccountHistory where
  accountId := 2
  state := stateAt
  isPublic := rfl
  own block account present := by
    match block with
    | 0 => cases present
    | 1 =>
      cases present
      rfl
    | _ + 2 =>
      cases present
      rfl
  keyed block account vaultKey asset present held := by
    match block with
    | 0 => cases present
    | 1 =>
      cases present
      cases ExtTreeMap.getElem?_empty.symm.trans held
    | _ + 2 =>
      cases present
      have stored : ((∅ : ExtTreeMap AssetVaultKey Asset).insert deposit.vaultKey
        deposit)[vaultKey]? =
        some asset := held
      rw [ExtTreeMap.getElem?_insert] at stored
      split at stored
      · rename_i same
        cases stored
        exact Std.compare_eq_iff_eq.mp same
      · cases ExtTreeMap.getElem?_empty.symm.trans stored

/-- The details of an account without slots, with its assets unless they are too many. -/
def detailsOf (account : Account) (large : Bool) : AccountDetails :=
  ⟨account.toHeader, ⟨[], []⟩, account.codeCommitment,
    ⟨large, if large then [] else OrderedMap.values account.vault⟩⟩

/-- A node with the account, and its tips at the requests. -/
def node (large : Bool) (tip : ℕ → BlockNumber) : AccountNode where
  getAccount number _ :=
    match stateAt (tip number) with
    | none => .error (.rpcError (.expectedDataMissing "account"))
    | some account => .ok ⟨some (tip number), some ⟨account.id, account.toHeader.toCommitment⟩,
        some (detailsOf account large)⟩
  syncStorageMaps number _ _ := .ok ⟨some ⟨tip number, tip number⟩, []⟩
  syncAccountVault number range _ := .ok ⟨some ⟨tip number, tip number⟩,
    if range.blockFrom ≤ 2 ∧ 2 ≤ tip number then [⟨2, some deposit, deposit.vaultKey⟩] else []⟩

theorem storage_eq_empty {block : BlockNumber} {account : Account}
    (present : stateAt block = some account) : account.storage = ∅ := by
  match block with
  | 0 => cases present
  | 1 =>
    cases present
    rfl
  | _ + 2 =>
    cases present
    rfl

theorem trueDetails {block : BlockNumber} {account : Account} (large : Bool)
    (present : stateAt block = some account) : TrueDetails account (detailsOf account large) where
  header := rfl
  slots := by
    rw [storage_eq_empty present]
    rfl
  entries _ _ _ _ absent := (nomatch absent)
  assets small asset := by
    obtain rfl : large = false := small
    show asset ∈ OrderedMap.values account.vault ↔ _
    rw [OrderedMap.mem_values_iff]
    constructor
    · rintro ⟨vaultKey, held⟩
      have keyed : asset.vaultKey = vaultKey :=
        history.keyed block account vaultKey asset present held
      rwa [keyed]
    · exact fun held => ⟨asset.vaultKey, held⟩

/-- The account has the asset from block 2 on. -/
theorem assetAt_eq (block : BlockNumber) (vaultKey : AssetVaultKey) :
    history.assetAt block vaultKey =
      if 2 ≤ block ∧ deposit.vaultKey = vaultKey then some deposit else none := by
  match block with
  | 0 => exact ExtTreeMap.getElem?_empty
  | 1 => exact ExtTreeMap.getElem?_empty
  | later + 2 =>
    show ((∅ : ExtTreeMap AssetVaultKey Asset).insert deposit.vaultKey deposit)[vaultKey]? = _
    rw [ExtTreeMap.getElem?_insert, ExtTreeMap.getElem?_empty]
    by_cases same : deposit.vaultKey = vaultKey
    · rw [if_pos (Std.compare_eq_iff_eq.mpr same), if_pos ⟨Nat.le_add_left 2 later, same⟩]
    · rw [if_neg (by rwa [Std.compare_eq_iff_eq]), if_neg fun both => same both.2]

theorem valueAt_eq (block : BlockNumber) (entry : StorageSlotName × StorageMapKey) :
    history.valueAt block entry = emptyWord := by
  match block with
  | 0 => exact congrArg (Option.getD · emptyWord) ExtTreeMap.getElem?_empty
  | 1 => exact congrArg (Option.getD · emptyWord) ExtTreeMap.getElem?_empty
  | _ + 2 => exact congrArg (Option.getD · emptyWord) ExtTreeMap.getElem?_empty

/-- The only change of an asset is in block 2. -/
theorem eq_of_changed {time : BlockNumber} {vaultKey : AssetVaultKey}
    (changed : history.assetAt time vaultKey ≠
      ChangeLog.valueBefore (fun _ => none) history.assetAt time vaultKey) :
    time = 2 ∧ deposit.vaultKey = vaultKey := by
  match time with
  | 0 =>
    exact absurd ((assetAt_eq 0 vaultKey).trans (if_neg fun both => absurd both.1 (by decide)))
      changed
  | 1 =>
    refine absurd ?_ changed
    show history.assetAt 1 vaultKey = history.assetAt 0 vaultKey
    rw [assetAt_eq, assetAt_eq, if_neg fun both => absurd both.1 (by decide),
      if_neg fun both => absurd both.1 (by decide)]
  | 2 =>
    by_contra other
    refine changed ?_
    show history.assetAt 2 vaultKey = history.assetAt 1 vaultKey
    rw [assetAt_eq, assetAt_eq, if_neg fun both => other ⟨rfl, both.2⟩,
      if_neg fun both => absurd both.1 (by decide)]
  | later + 3 =>
    refine absurd ?_ changed
    show history.assetAt (later + 3) vaultKey = history.assetAt (later + 2) vaultKey
    rfl

theorem covers_assets (blockFrom tip : BlockNumber) :
    Covers (fun _ => none) history.assetAt blockFrom (tip + 1)
      ((if blockFrom ≤ 2 ∧ 2 ≤ tip then [⟨2, some deposit, deposit.vaultKey⟩] else []).map
        AccountVaultUpdate.entry) := by
  by_cases reached : blockFrom ≤ 2 ∧ 2 ≤ tip
  · rw [if_pos reached]
    refine ⟨fun entry listed => ?_, fun entry listed => ?_, fun time vaultKey _ _ changed => ?_⟩
    · obtain rfl := List.mem_singleton.mp listed
      exact ⟨reached.1, Nat.lt_succ_of_le reached.2⟩
    · obtain rfl := List.mem_singleton.mp listed
      exact ((assetAt_eq 2 deposit.vaultKey).trans (if_pos ⟨le_rfl, rfl⟩)).symm
    · obtain ⟨rfl, rfl⟩ := eq_of_changed changed
      exact ⟨some deposit, List.mem_singleton_self _⟩
  · rw [if_neg reached]
    refine ⟨fun _ absent => absurd absent List.not_mem_nil,
      fun _ absent => absurd absent List.not_mem_nil, fun time vaultKey after before changed => ?_⟩
    obtain ⟨rfl, -⟩ := eq_of_changed changed
    exact absurd ⟨after, Nat.le_of_lt_succ before⟩ reached

theorem truthful (large : Bool) (tip : ℕ → BlockNumber) :
    Truthful (node large tip) history tip where
  getAccount number details response answered := by
    unfold node at answered
    dsimp only at answered
    cases present : stateAt (tip number) with
    | none =>
      rw [present] at answered
      cases answered
    | some account =>
      rw [present] at answered
      cases answered
      refine ⟨account, present, ?_, ?_, ?_⟩
      · rintro _ ⟨⟩
        rfl
      · rintro _ ⟨⟩
        rfl
      · rintro _ ⟨⟩
        exact trueDetails large present
  storageMaps number blockFrom page info answered pagination := by
    cases answered
    cases pagination
    refine ⟨rfl, le_rfl, fun _ => ⟨fun _ absent => absurd absent List.not_mem_nil,
      fun _ absent => absurd absent List.not_mem_nil, fun time entry _ _ changed => ?_⟩⟩
    refine absurd ((valueAt_eq time entry).trans ?_) changed
    cases time with
    | zero => rfl
    | succ earlier => exact (valueAt_eq earlier entry).symm
  accountVault number blockFrom page info answered pagination := by
    cases answered
    cases pagination
    exact ⟨rfl, le_rfl, fun _ => covers_assets blockFrom (tip number)⟩

theorem collisionFree : CollisionFree :=
  Sample.collisionFree

theorem mapKeyHash_injective : Function.Injective ProtocolLibrary.mapKeyHash :=
  fun _ _ same => same

/-- When no block comes in between, the account is fetched by several requests and is coherent. -/
theorem coherent_still :
    ∃ fetched last, (node true fun _ => 2).getAccountDetails history.accountId 0 =
      .ok fetched last ∧ Coherent history fetched := by
  obtain ⟨fetched, last, run, -⟩ := exists_of_succeedsWith (show succeedsWith
    ((node true fun _ => 2).getAccountDetails history.accountId 0) (fun _ _ => true) = true by
      decide +kernel)
  refine ⟨fetched, last, run, ?_⟩
  exact (getAccountDetails_coherent_iff (truthful true fun _ => 2) smtLaw mapKeyHash_injective
    constructorLaws collisionFree storageCommitment_injective).mpr
      (fun _ => ⟨rfl, fun _ _ _ _ => rfl, fun _ _ _ _ _ _ _ _ => rfl⟩) fetched last run

/-- The block in which the account gets its asset comes after the first request, or after the second
one and before the synchronization of the vault. Both times the account is returned. -/
theorem not_coherent_changed :
    (¬∀ fetched last, (node false fun number => number + 1).getAccountDetails history.accountId 0 =
      .ok fetched last → Coherent history fetched) ∧
      ¬∀ fetched last, (node true fun number => if number < 2 then 1 else 2).getAccountDetails
        history.accountId 0 = .ok fetched last → Coherent history fetched := by
  have notSteady : ∀ large tip, (∃ fetched last,
      (node large tip).getAccountDetails history.accountId 0 = .ok fetched last) →
        ¬Steady (node large tip) history tip →
          ¬∀ fetched last, (node large tip).getAccountDetails history.accountId 0 =
            .ok fetched last → Coherent history fetched := by
    rintro large tip ⟨fetched, last, run⟩ changes coherent
    exact changes ((getAccountDetails_eq_ok smtLaw mapKeyHash_injective constructorLaws
      (truthful large tip) collisionFree storageCommitment_injective run).mp
        (coherent fetched last run))
  constructor
  · refine notSteady _ _ ?_ fun steady => ?_
    · obtain ⟨fetched, last, run, -⟩ := exists_of_succeedsWith (show succeedsWith
        ((node false fun number => number + 1).getAccountDetails history.accountId 0)
          (fun _ _ => true) = true by decide +kernel)
      exact ⟨fetched, last, run⟩
    · have nonce := congrArg AccountHeader.nonce
        (collisionFree (Option.some.inj steady.commitment))
      exact absurd nonce (by decide)
  · refine notSteady _ _ ?_ fun steady => ?_
    · obtain ⟨fetched, last, run, -⟩ := exists_of_succeedsWith (show succeedsWith
        ((node true fun number => if number < 2 then 1 else 2).getAccountDetails
          history.accountId 0) (fun _ _ => true) = true by decide +kernel)
      exact ⟨fetched, last, run⟩
    · have roots := steady.assets (detailsOf created true) 2 ⟨_, _, _, rfl, rfl, rfl, rfl⟩
        (.final rfl rfl le_rfl)
      exact absurd roots (by decide +kernel)

end Fetching

end MidenClient
