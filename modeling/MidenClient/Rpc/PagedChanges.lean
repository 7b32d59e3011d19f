/-
This file says what the client puts together from the changes of an account that it gets page by
page (`sync_storage_maps`, `sync_account_vault` and their use in `build_storage_slots` and
`get_account_details`, in `rust-client/src/rpc/tonic_client/mod.rs`).

A node may end a page at any block, and may list the changes of a page in any order. A loop over
such pages asks for each block at most once and never for one behind its target. What it returns
covers all blocks from the first one to the last block of its last page, so replaying it gives the
account at that block.
-/

import MidenClient.Rpc.AccountMixtures

namespace MidenClient

open Std (ExtTreeMap)
open Fallible AccountRpcM BlockPagination
open ChangeLog (Covers)

/-! ### The requests of a loop -/

section Loop

variable {α : Type} (request : ℕ → BlockRange → Except NodeError (SyncPage α))

/-- What one request leads to. -/
def pageResult (pagination : BlockPagination) (number : ℕ) :
    Except NodeError (SyncPage α × PaginationResult) :=
  match request number pagination.range with
  | .error error => .error error
  | .ok response =>
    match response.paginationInfo with
    | none => .error (.rpcError (.expectedDataMissing "pagination_info"))
    | some page =>
      match pagination.advance page.blockNum page.chainTip with
      | .error error => .error error
      | .ok result => .ok (response, result)

/-- The loop sends a request with a number, for a range. -/
inductive Sends : BlockPagination → ℕ → ℕ → BlockRange → Prop
  | first (pagination : BlockPagination) (number : ℕ) :
      Sends pagination number number pagination.range
  | later {pagination next : BlockPagination} {number other : ℕ} {page : SyncPage α}
      {range : BlockRange}
      (moved : pageResult request pagination number = .ok (page, .continues next))
      (rest : Sends next (number + 1) other range) : Sends pagination number other range

variable {request} {pagination next : BlockPagination} {number other bound : ℕ}
  {page : SyncPage α} {range : BlockRange} {updates : List α}

theorem pageResult_eq_ok {result : PaginationResult}
    (moved : pageResult request pagination number = .ok (page, result)) :
    ∃ info, request number pagination.range = .ok page ∧ page.paginationInfo = some info ∧
      pagination.advance info.blockNum info.chainTip = .ok result := by
  unfold pageResult at moved
  split at moved
  · cases moved
  · rename_i answered
    split at moved
    · cases moved
    · rename_i info given
      split at moved
      · cases moved
      · rename_i advanced
        cases moved
        exact ⟨info, answered, given, advanced⟩

theorem pageResult_eq_error {info : PaginationInfo} {error : NodeError}
    (answered : request number pagination.range = .ok page)
    (given : page.paginationInfo = some info)
    (failed : pageResult request pagination number = .error error) :
    pagination.advance info.blockNum info.chainTip = .error error := by
  unfold pageResult at failed
  rw [answered] at failed
  dsimp only at failed
  rw [given] at failed
  dsimp only at failed
  cases stepped : pagination.advance info.blockNum info.chainTip with
  | error other =>
    rw [stepped] at failed
    cases failed
    rfl
  | ok result =>
    rw [stepped] at failed
    cases failed

/-- A pagination goes on behind the block of the page, which is before the target. -/
theorem pageResult_continues
    (moved : pageResult request pagination number = .ok (page, .continues next)) :
    ∃ info, request number pagination.range = .ok page ∧ page.paginationInfo = some info ∧
      pagination.iterations < maxIterations ∧ pagination.currentBlockFrom ≤ info.blockNum ∧
        info.blockNum < targetBlock pagination.blockTo info.chainTip ∧
          next = ⟨info.blockNum + 1, pagination.blockTo, pagination.iterations + 1⟩ := by
  obtain ⟨info, answered, given, advanced⟩ := pageResult_eq_ok moved
  obtain ⟨within, forward, ⟨-, other⟩ | ⟨before, same⟩⟩ := advance_eq_ok advanced
  · cases other
  · cases same
    exact ⟨info, answered, given, within, forward, before, rfl⟩

theorem pageResult_done {chainTip blockNum : BlockNumber}
    (moved : pageResult request pagination number = .ok (page, .done chainTip blockNum)) :
    ∃ info, request number pagination.range = .ok page ∧ page.paginationInfo = some info ∧
      pagination.iterations < maxIterations ∧ pagination.currentBlockFrom ≤ info.blockNum ∧
        targetBlock pagination.blockTo info.chainTip ≤ info.blockNum ∧
          blockNum = info.blockNum := by
  obtain ⟨info, answered, given, advanced⟩ := pageResult_eq_ok moved
  obtain ⟨within, forward, ⟨reached, same⟩ | ⟨-, other⟩⟩ := advance_eq_ok advanced
  · cases same
    exact ⟨info, answered, given, within, forward, reached, rfl⟩
  · cases other

/-- One request of the loop. -/
theorem syncPages_succ (request : ℕ → BlockRange → Except NodeError (SyncPage α)) (bound : ℕ)
    (pagination : BlockPagination) (updates : List α) (number : ℕ) :
    syncPages request (bound + 1) pagination updates number =
      match pageResult request pagination number with
      | .error error => .error error (number + 1)
      | .ok (page, .continues next) =>
        syncPages request bound next (updates ++ page.updates) (number + 1)
      | .ok (page, .done chainTip blockNum) =>
        .ok ⟨chainTip, blockNum, updates ++ page.updates⟩ (number + 1) := by
  rw [syncPages, call_bind, pageResult]
  cases request number pagination.range with
  | error error => rfl
  | ok response =>
    obtain ⟨info, pageUpdates⟩ := response
    cases info with
    | none => rfl
    | some page =>
      show (fromExcept (pagination.advance page.blockNum page.chainTip) >>= _) (number + 1) = _
      rw [fromExcept_bind]
      dsimp only
      cases pagination.advance page.blockNum page.chainTip with
      | error error => rfl
      | ok result =>
        cases result with
        | continues next => rfl
        | done chainTip blockNum => rfl

/-- With more iterations left than there can be, the bound of the model makes no difference. -/
theorem syncPages_add (within : pagination.iterations ≤ maxIterations)
    (enough : maxIterations < pagination.iterations + bound) (extra : ℕ) :
    syncPages request (bound + extra) pagination updates number =
      syncPages request bound pagination updates number := by
  induction bound generalizing pagination updates number with
  | zero => exact absurd enough (not_lt.mpr within)
  | succ bound inductionHypothesis =>
    rw [Nat.add_right_comm, syncPages_succ, syncPages_succ]
    cases moved : pageResult request pagination number with
    | error error => rfl
    | ok result =>
      obtain ⟨page, _ | _⟩ := result
      · obtain ⟨info, -, -, counted, -, -, rfl⟩ := pageResult_continues moved
        exact inductionHypothesis counted (by dsimp only; omega)
      · rfl

theorem sends_iff : Sends request pagination number other range ↔
    other = number ∧ range = pagination.range ∨
      ∃ page next, pageResult request pagination number = .ok (page, .continues next) ∧
        Sends request next (number + 1) other range := by
  constructor
  · intro sent
    cases sent with
    | first => exact Or.inl ⟨rfl, rfl⟩
    | later moved rest => exact Or.inr ⟨_, _, moved, rest⟩
  · rintro (⟨rfl, rfl⟩ | ⟨page, next, moved, rest⟩)
    · exact .first pagination other
    · exact .later moved rest

/-- The numbers of the requests are those that the loop counts. -/
theorem exists_sends_iff (within : pagination.iterations ≤ maxIterations)
    (enough : maxIterations < pagination.iterations + bound) :
    (∃ range, Sends request pagination number other range) ↔
      number ≤ other ∧ other < finalState (syncPages request bound pagination updates number) := by
  induction bound generalizing pagination updates number other with
  | zero => exact absurd enough (not_lt.mpr within)
  | succ bound inductionHypothesis =>
    have single (ended : ∀ page next, pageResult request pagination number ≠
        .ok (page, .continues next)) :
        (∃ range, Sends request pagination number other range) ↔
          number ≤ other ∧ other < number + 1 := by
      constructor
      · rintro ⟨range, sent⟩
        rcases sends_iff.mp sent with ⟨rfl, -⟩ | ⟨page, next, moved, -⟩
        · exact ⟨le_rfl, Nat.lt_succ_self other⟩
        · exact absurd moved (ended page next)
      · rintro ⟨after, before⟩
        obtain rfl := Nat.le_antisymm after (Nat.le_of_lt_succ before)
        exact ⟨_, .first pagination number⟩
    rw [syncPages_succ]
    cases moved : pageResult request pagination number with
    | error error => exact single fun _ _ same => (nomatch moved.symm.trans same)
    | ok result =>
      obtain ⟨page, next | _⟩ := result
      · obtain ⟨info, -, -, counted, -, -, same⟩ := pageResult_continues moved
        have within : next.iterations ≤ maxIterations := by
          rw [same]
          exact counted
        have enough : maxIterations < next.iterations + bound := by
          rw [same]
          dsimp only
          omega
        have rest (later : ℕ) : (∃ range, Sends request next (number + 1) later range) ↔
            number + 1 ≤ later ∧ later < finalState
              (syncPages request bound next (updates ++ page.updates) (number + 1)) :=
          inductionHypothesis within enough
        constructor
        · rintro ⟨range, sent⟩
          rcases sends_iff.mp sent with ⟨rfl, -⟩ | ⟨_, _, movedToo, sent⟩
          · exact ⟨le_rfl, (((rest _).mp ⟨_, .first next _⟩).2).trans' (Nat.lt_succ_self _)⟩
          · cases moved.symm.trans movedToo
            obtain ⟨after, before⟩ := (rest other).mp ⟨range, sent⟩
            exact ⟨Nat.le_of_succ_le after, before⟩
        · rintro ⟨after, before⟩
          rcases Nat.eq_or_lt_of_le after with rfl | later
          · exact ⟨_, .first pagination number⟩
          · obtain ⟨range, sent⟩ := (rest other).mpr ⟨later, before⟩
            exact ⟨range, .later moved sent⟩
      · exact single fun _ _ same => (nomatch moved.symm.trans same)

theorem Sends.within (sent : Sends request pagination number other range)
    (within : pagination.iterations ≤ maxIterations) :
    number ≤ other ∧ other + pagination.iterations ≤ number + maxIterations := by
  induction sent with
  | first pagination number => exact ⟨le_rfl, Nat.add_le_add_left within number⟩
  | later moved _ inductionHypothesis =>
    obtain ⟨info, -, -, counted, -, -, rfl⟩ := pageResult_continues moved
    obtain ⟨after, bounded⟩ := inductionHypothesis counted
    dsimp only at bounded
    omega

/-! ### Honest pages -/

/-- Each page has the changes of its blocks, the first of which is the one that was asked for. The
chain only grows. -/
structure ServesPages {κ ν : Type} (request : ℕ → BlockRange → Except NodeError (SyncPage α))
    (entry : α → BlockNumber × κ × ν) (initial : κ → ν) (value : BlockNumber → κ → ν)
    (tip : ℕ → BlockNumber) : Prop where
  grows : Monotone tip
  chainTip : ∀ number range page info, request number range = .ok page →
    page.paginationInfo = some info → info.chainTip = tip number
  covers : ∀ number range page info, request number range = .ok page →
    page.paginationInfo = some info → range.blockFrom ≤ info.blockNum →
      Covers initial value range.blockFrom (info.blockNum + 1) (page.updates.map entry)

variable {κ ν : Type} {entry : α → BlockNumber × κ × ν} {initial : κ → ν}
  {value : BlockNumber → κ → ν} {tip : ℕ → BlockNumber}

theorem targetBlock_mono (blockTo : Option BlockNumber) : Monotone (targetBlock blockTo) := by
  intro earlier later grown
  cases blockTo with
  | none => exact grown
  | some bound => exact min_le_min_left bound grown

/-- Only the first request can start behind the target. -/
theorem Sends.blockFrom_le (serves : ServesPages request entry initial value tip)
    (sent : Sends request pagination number other range)
    (within : pagination.iterations ≤ maxIterations) :
    range.blockTo = pagination.blockTo ∧ range.blockFrom ≤
      max pagination.currentBlockFrom (targetBlock pagination.blockTo (tip other)) := by
  induction sent with
  | first pagination number => exact ⟨rfl, le_max_left _ _⟩
  | @later pagination _ number other _ range moved rest inductionHypothesis =>
    obtain ⟨info, answered, given, counted, -, before, rfl⟩ := pageResult_continues moved
    obtain ⟨blockTo, bounded⟩ := inductionHypothesis counted
    obtain ⟨after, -⟩ := rest.within counted
    have reached : info.blockNum + 1 ≤ targetBlock pagination.blockTo (tip other) := by
      rw [serves.chainTip _ _ _ _ answered given] at before
      exact before.trans_le
        (targetBlock_mono pagination.blockTo (serves.grows (Nat.le_of_succ_le after)))
    exact ⟨blockTo, bounded.trans (max_le (le_max_of_le_right reached) (le_max_right _ _))⟩

/-- A loop that succeeds has all changes up to the block it returns, which is not before the target
of its last request. -/
theorem syncPages_covers (serves : ServesPages request entry initial value tip)
    {start : BlockNumber} (ordered : start ≤ pagination.currentBlockFrom)
    (covers : Covers initial value start pagination.currentBlockFrom (updates.map entry))
    {info : SyncInfo α} {last : ℕ}
    (finished : syncPages request bound pagination updates number = .ok info last) :
    last + pagination.iterations ≤ number + maxIterations ∧
      Covers initial value start (info.blockNumber + 1) (info.updates.map entry) ∧
        ∃ final, last = final + 1 ∧
          targetBlock pagination.blockTo (tip final) ≤ info.blockNumber := by
  induction bound generalizing pagination updates number with
  | zero => cases finished
  | succ bound inductionHypothesis =>
    rw [syncPages_succ] at finished
    cases moved : pageResult request pagination number with
    | error error =>
      rw [moved] at finished
      cases finished
    | ok result =>
      obtain ⟨page, next | ⟨chainTip, blockNum⟩⟩ := result
      · rw [moved] at finished
        obtain ⟨pageInfo, answered, given, counted, forward, -, rfl⟩ := pageResult_continues moved
        have more := serves.covers _ _ _ _ answered given forward
        obtain ⟨bounded, complete, reached⟩ := inductionHypothesis
          (ordered.trans (Nat.le_succ_of_le forward))
          (by rw [List.map_append]; exact covers.append more ordered (Nat.le_succ_of_le forward))
          finished
        dsimp only at bounded
        exact ⟨by omega, complete, reached⟩
      · rw [moved] at finished
        cases finished
        obtain ⟨pageInfo, answered, given, counted, forward, reached, rfl⟩ := pageResult_done moved
        have more := serves.covers _ _ _ _ answered given forward
        rw [serves.chainTip _ _ _ _ answered given] at reached
        refine ⟨by omega, ?_, number, rfl, reached⟩
        rw [List.map_append]
        exact covers.append more ordered (Nat.le_succ_of_le forward)

/-- When every request is answered by a page that is not empty, the loop fails only when it takes
more pages than it has iterations. -/
theorem syncPages_error (within : pagination.iterations ≤ maxIterations)
    (enough : maxIterations < pagination.iterations + bound)
    (answered : ∀ other range, Sends request pagination number other range → ∃ page info,
      request other range = .ok page ∧ page.paginationInfo = some info ∧
        range.blockFrom ≤ info.blockNum) {error : NodeError} {last : ℕ}
    (failed : syncPages request bound pagination updates number = .error error last) :
    last + pagination.iterations = number + maxIterations + 1 ∧
      error = .paginationError "too many pagination iterations, possible infinite loop" := by
  induction bound generalizing pagination updates number with
  | zero => exact absurd enough (not_lt.mpr within)
  | succ bound inductionHypothesis =>
    obtain ⟨page, info, here, given, forward⟩ := answered _ _ (.first pagination number)
    rw [syncPages_succ] at failed
    cases moved : pageResult request pagination number with
    | error reason =>
      obtain ⟨full, rfl⟩ := advance_eq_error forward (pageResult_eq_error here given moved)
      rw [moved] at failed
      cases failed
      exact ⟨by omega, rfl⟩
    | ok result =>
      obtain ⟨page, next | _⟩ := result
      · rw [moved] at failed
        obtain ⟨_, -, -, counted, -, -, same⟩ := pageResult_continues moved
        obtain ⟨iterations, reason⟩ := inductionHypothesis (by rw [same]; exact counted)
          (by rw [same]; dsimp only; omega)
          (fun other range sent => answered other range (.later moved sent)) failed
        rw [same] at iterations
        dsimp only at iterations
        exact ⟨by omega, reason⟩
      · rw [moved] at failed
        cases failed

/-- The loop ends within its iterations or fails, asks for no range behind the target, and returns
exactly the changes up to the block it returns. -/
structure SyncsExactly (request : ℕ → BlockRange → Except NodeError (SyncPage α))
    (entry : α → BlockNumber × κ × ν) (initial : κ → ν) (value : BlockNumber → κ → ν)
    (tip : ℕ → BlockNumber) (blockFrom : BlockNumber) (blockTo : Option BlockNumber)
    (number : ℕ) : Prop where
  ends : ∀ extra, syncPages request (maxIterations + 1 + extra) (.new blockFrom blockTo) [] number =
    syncPages request (maxIterations + 1) (.new blockFrom blockTo) [] number
  counted : ∀ other, (∃ range, Sends request (.new blockFrom blockTo) number other range) ↔
    number ≤ other ∧ other < finalState
      (syncPages request (maxIterations + 1) (.new blockFrom blockTo) [] number)
  requests : ∀ other range, Sends request (.new blockFrom blockTo) number other range →
    other ≤ number + maxIterations ∧ range.blockTo = blockTo ∧
      range.blockFrom ≤ max blockFrom (targetBlock blockTo (tip other))
  covers : ∀ info last,
    syncPages request (maxIterations + 1) (.new blockFrom blockTo) [] number = .ok info last →
      last ≤ number + maxIterations ∧
        Covers initial value blockFrom (info.blockNumber + 1) (info.updates.map entry) ∧
          ∃ final, last = final + 1 ∧ targetBlock blockTo (tip final) ≤ info.blockNumber
  fails : (∀ other range, Sends request (.new blockFrom blockTo) number other range →
      ∃ page info, request other range = .ok page ∧ page.paginationInfo = some info ∧
        range.blockFrom ≤ info.blockNum) → ∀ error last,
    syncPages request (maxIterations + 1) (.new blockFrom blockTo) [] number = .error error last →
      last = number + maxIterations + 1 ∧
        error = .paginationError "too many pagination iterations, possible infinite loop"

theorem syncsExactly (serves : ServesPages request entry initial value tip)
    (blockFrom : BlockNumber) (blockTo : Option BlockNumber) (number : ℕ) :
    SyncsExactly request entry initial value tip blockFrom blockTo number := by
  have within : (BlockPagination.new blockFrom blockTo).iterations ≤ maxIterations :=
    Nat.zero_le maxIterations
  have enough : maxIterations <
      (BlockPagination.new blockFrom blockTo).iterations + (maxIterations + 1) :=
    (Nat.lt_succ_self maxIterations).trans_eq (Nat.zero_add _).symm
  refine ⟨syncPages_add within enough, fun other => exists_sends_iff within enough,
    fun other range sent => ?_, fun info last finished => ?_, fun answered error last failed => ?_⟩
  · exact ⟨(sent.within within).2, sent.blockFrom_le serves within⟩
  · exact syncPages_covers serves le_rfl (ChangeLog.covers_nil _ _ _) finished
  · exact syncPages_error within enough answered failed

end Loop

/-! ### Accounts from their changes -/

/-- The node serves the changes of the maps and of the vault of an account. -/
structure ServesChanges (node : AccountNode) (accountId : AccountId)
    (valueAt : BlockNumber → StorageSlotName × StorageMapKey → Word)
    (assetAt : BlockNumber → AssetVaultKey → Option Asset) (tip : ℕ → BlockNumber) : Prop where
  keyed : ∀ block vaultKey asset, assetAt block vaultKey = some asset → asset.vaultKey = vaultKey
  storageMaps : ServesPages (fun number range => node.syncStorageMaps number range accountId)
    StorageMapUpdate.entry (fun _ => emptyWord) valueAt tip
  accountVault : ServesPages (fun number range => node.syncAccountVault number range accountId)
    AccountVaultUpdate.entry (fun _ => none) assetAt tip

/-- A slot that is built for a map with too many entries has the entries at the last block of the
changes that are fetched with a request. An entry with the empty word is one that was removed. -/
def LargeMapExact [AccountConstructors] (node : AccountNode) (accountId : AccountId)
    (valueAt : BlockNumber → StorageSlotName × StorageMapKey → Word)
    (storageDetails : AccountStorageDetails) (number : ℕ) (header : StorageSlotHeader)
    (slot : StorageSlotName × StorageSlotContent) : Prop :=
  header.2.1 = .map → ∀ mapDetails, storageDetails.findMapDetails header.1 = some mapDetails →
    mapDetails.tooManyEntries = true → ∃ info next map,
      node.syncStorageMapsInfo 0 none accountId number = .ok info next ∧
        AccountConstructors.storageMap (AccountNode.latestMapEntries info header.1).toList =
          .ok map ∧ slot = (header.1, .map map) ∧
            ∀ key, (AccountNode.latestMapEntries info header.1)[key]?.getD emptyWord =
              valueAt info.blockNumber (header.1, key)

/-- The latest assets are listed by rising key, so each of them is listed once. -/
theorem rising_latestAssets {assetAt : BlockNumber → AssetVaultKey → Option Asset}
    (keyed : ∀ block vaultKey asset, assetAt block vaultKey = some asset →
      asset.vaultKey = vaultKey) {block : BlockNumber} {info : SyncInfo AccountVaultUpdate}
    (covers : Covers (fun _ => none) assetAt 0 (block + 1)
      (info.updates.map AccountVaultUpdate.entry)) :
    (AccountNode.latestAssets info).Pairwise fun first second =>
      first.vaultKey < second.vaultKey := by
  let latest := ChangeLog.replay (info.updates.map AccountVaultUpdate.entry)
  have own : ∀ entry ∈ latest.toList, ∀ asset ∈ entry.2, asset.vaultKey = entry.1 := by
    rintro ⟨vaultKey, held⟩ listed asset rfl
    have value : _ = assetAt block vaultKey := covers.replay_getD vaultKey
    rw [ExtTreeMap.mem_toList_iff_getElem?_eq_some.mp listed] at value
    exact keyed block vaultKey asset value.symm
  have listed : AccountNode.latestAssets info = latest.toList.filterMap Prod.snd := by
    unfold AccountNode.latestAssets List.reduceOption OrderedMap.values
    rw [List.filterMap_map]
    rfl
  rw [listed, List.pairwise_filterMap]
  refine (OrderedMap.pairwise_lt_toList latest).imp_of_mem fun {first second} here there below => ?_
  intro asset held other heldToo
  rw [own first here asset held, own second there other heldToo]
  exact below

section Accounts

variable [AccountConstructors] {node : AccountNode} {accountId : AccountId}
  {valueAt : BlockNumber → StorageSlotName × StorageMapKey → Word}
  {assetAt : BlockNumber → AssetVaultKey → Option Asset} {tip : ℕ → BlockNumber}

/-- The changes of all maps, once they are fetched, are those of the first request. -/
def CachedFrom (node : AccountNode) (accountId : AccountId) (first : ℕ)
    (progress : AccountNode.SlotsProgress) (number : ℕ) : Prop :=
  match progress.2 with
  | none => number = first
  | some info => ∃ next, node.syncStorageMapsInfo 0 none accountId first = .ok info next

omit [AccountConstructors] in
theorem cachedMapInfo_from {first number last : ℕ} {progress : AccountNode.SlotsProgress}
    {info : SyncInfo StorageMapUpdate} (cache : CachedFrom node accountId first progress number)
    (given : node.cachedMapInfo accountId progress.2 number = .ok info last) :
    ∃ next, node.syncStorageMapsInfo 0 none accountId first = .ok info next := by
  unfold CachedFrom at cache
  unfold AccountNode.cachedMapInfo at given
  cases cached : progress.2 with
  | some held =>
    rw [cached] at cache given
    cases given
    exact cache
  | none =>
    rw [cached] at cache given
    obtain rfl : number = first := cache
    exact ⟨last, given⟩

omit [AccountConstructors] in
/-- The changes of the maps up to the block they reach. -/
theorem syncStorageMapsInfo_covers (serves : ServesChanges node accountId valueAt assetAt tip)
    {number next : ℕ} {info : SyncInfo StorageMapUpdate}
    (fetched : node.syncStorageMapsInfo 0 none accountId number = .ok info next) :
    Covers (fun _ => emptyWord) valueAt 0 (info.blockNumber + 1)
      (info.updates.map StorageMapUpdate.entry) :=
  ((syncsExactly serves.storageMaps 0 none number).covers info next fetched).2.1

/-- A slot that is built keeps the changes, and is exact if it is a large map. -/
theorem buildStorageSlot_exact (serves : ServesChanges node accountId valueAt assetAt tip)
    {storageDetails : AccountStorageDetails} {slot : StorageSlotHeader} {first number last : ℕ}
    {progress next : AccountNode.SlotsProgress}
    (cache : CachedFrom node accountId first progress number)
    (built : node.buildStorageSlot accountId storageDetails progress slot number = .ok next last) :
    CachedFrom node accountId first next last ∧
      ∃ made, LargeMapExact node accountId valueAt storageDetails first slot made ∧
        next.1 = progress.1 ++ [made] := by
  obtain ⟨slotName, slotType, topValue⟩ := slot
  cases slotType with
  | value =>
    cases built
    exact ⟨cache, _, fun other => (nomatch other), rfl⟩
  | map =>
    obtain ⟨mapDetails, _, required, built⟩ := bind_eq_result_ok.mp built
    obtain ⟨found, rfl⟩ := AccountRpcM.required_eq_ok required
    split at built
    · obtain ⟨info, _, cached, built⟩ := bind_eq_result_ok.mp built
      obtain ⟨map, _, accepted, built⟩ := bind_eq_result_ok.mp built
      obtain ⟨made, rfl⟩ := accept_eq_ok accepted
      cases built
      obtain ⟨after, fetched⟩ := cachedMapInfo_from cache cached
      refine ⟨⟨after, fetched⟩, _, fun _ _ _ _ => ⟨info, after, map, fetched, made, rfl, ?_⟩, rfl⟩
      exact latestMapEntries_getD (syncStorageMapsInfo_covers serves fetched) slotName
    · rename_i small
      obtain ⟨entries, _, all, built⟩ := bind_eq_result_ok.mp built
      obtain ⟨map, _, accepted, built⟩ := bind_eq_result_ok.mp built
      obtain ⟨-, rfl⟩ := accept_eq_ok accepted
      cases built
      have small : ∀ other, storageDetails.findMapDetails slotName = some other →
          other.tooManyEntries ≠ true := by
        rintro other foundToo
        cases found.symm.trans foundToo
        exact small
      cases listed : mapDetails.entries with
      | allEntries listedEntries =>
        rw [listed] at all
        cases all
        exact ⟨cache, _, fun _ other foundToo large => absurd large (small other foundToo), rfl⟩
      | entriesWithProofs proofs =>
        rw [listed] at all
        cases all

/-- The loops over pages end within their iterations or fail, and ask for no range behind the target
block. The large maps and the large vault of an account have exactly the entries and the assets at
the last block that their pages cover. -/
theorem changes_exact (serves : ServesChanges node accountId valueAt assetAt tip) :
    (∀ blockFrom blockTo number,
      SyncsExactly (fun number range => node.syncStorageMaps number range accountId)
          StorageMapUpdate.entry (fun _ => emptyWord) valueAt tip blockFrom blockTo number ∧
        SyncsExactly (fun number range => node.syncAccountVault number range accountId)
          AccountVaultUpdate.entry (fun _ => none) assetAt tip blockFrom blockTo number) ∧
      (∀ storageDetails number slots last,
        node.buildStorageSlots accountId storageDetails number = .ok slots last →
          List.Forall₂ (LargeMapExact node accountId valueAt storageDetails number)
            storageDetails.header slots) ∧
        ∀ (details : AccountDetails) (number : ℕ) (assets : List Asset) (last : ℕ),
          details.header.id = accountId → details.vaultDetails.tooManyAssets = true →
            node.fetchAssets details number = .ok assets last →
              ∃ info, node.syncAccountVaultInfo 0 none accountId number = .ok info last ∧
                (assets.Pairwise fun first second => first.vaultKey < second.vaultKey) ∧
                  ∀ asset, asset ∈ assets ↔
                    assetAt info.blockNumber asset.vaultKey = some asset := by
  refine ⟨fun blockFrom blockTo number => ⟨syncsExactly serves.storageMaps blockFrom blockTo number,
    syncsExactly serves.accountVault blockFrom blockTo number⟩,
    fun storageDetails number slots last built => ?_,
    fun details number assets last own large fetched => ?_⟩
  · obtain ⟨progress, _, looped, finished⟩ := bind_eq_result_ok.mp built
    cases finished
    obtain ⟨made, collected, paired⟩ := foldlM_result_forall₂
      (CachedFrom node accountId number) Prod.fst
      (fun slot _ _ _ _ _ cache stepped => buildStorageSlot_exact serves cache stepped)
      (show CachedFrom node accountId number ([], none) number from rfl) looped
    rw [collected]
    exact paired
  · unfold AccountNode.fetchAssets at fetched
    rw [if_pos large, own] at fetched
    obtain ⟨info, _, synced, finished⟩ := bind_eq_result_ok.mp fetched
    cases finished
    have covers := ((syncsExactly serves.accountVault 0 none number).covers info last synced).2.1
    exact ⟨info, synced, rising_latestAssets serves.keyed covers,
      mem_latestAssets_iff serves.keyed covers⟩

end Accounts

/-! ### A removed entry and a removed asset -/

namespace Removing

open Fetching

/-- A value that one key has in two blocks. -/
def twoBlocks {κ ν : Type} [DecidableEq κ] (own : κ) (start : ℕ) (held absent : ν) (block : ℕ)
    (key : κ) : ν :=
  if key = own ∧ (block = start ∨ block = start + 1) then held else absent

theorem eq_of_changed {κ ν : Type} [DecidableEq κ] {own key : κ} {start time : ℕ}
    {held absent : ν}
    (changed : twoBlocks own start held absent time key ≠
      ChangeLog.valueBefore (fun _ => absent) (twoBlocks own start held absent) time key) :
    key = own ∧ (time = start ∨ time = start + 2) := by
  by_contra other
  refine changed ?_
  cases time with
  | zero => exact if_neg fun both => other ⟨both.1, by omega⟩
  | succ earlier =>
    refine if_congr (and_congr_right fun same => ?_) rfl rfl
    have neither : ¬(earlier + 1 = start ∨ earlier + 1 = start + 2) :=
      fun time => other ⟨same, time⟩
    omega

/-- A map entry is set in block 1 and removed in block 3. -/
def mapUpdates : List StorageMapUpdate :=
  [⟨3, 7, 1, emptyWord⟩, ⟨1, 7, 1, 9⟩]

/-- An asset comes in block 2 and leaves in block 4. -/
def vaultUpdates : List AccountVaultUpdate :=
  [⟨2, some deposit, deposit.vaultKey⟩, ⟨4, none, deposit.vaultKey⟩]

def valueAt : BlockNumber → StorageSlotName × StorageMapKey → Word :=
  twoBlocks (7, 1) 1 9 emptyWord

def assetAt : BlockNumber → AssetVaultKey → Option Asset :=
  twoBlocks deposit.vaultKey 2 (some deposit) none

/-- Each page has two blocks of a chain of four. -/
def node : AccountNode where
  getAccount _ _ := .error (.rpcError (.expectedDataMissing "account"))
  syncStorageMaps _ range _ := .ok ⟨some ⟨4, range.blockFrom + 1⟩, mapUpdates.filter fun update =>
    range.blockFrom ≤ update.blockNum ∧ update.blockNum < range.blockFrom + 2⟩
  syncAccountVault _ range _ :=
    .ok ⟨some ⟨4, range.blockFrom + 1⟩, vaultUpdates.filter fun update =>
    range.blockFrom ≤ update.blockNum ∧ update.blockNum < range.blockFrom + 2⟩

theorem serves : ServesChanges node 2 valueAt assetAt fun _ => 4 where
  keyed block vaultKey asset held := by
    unfold assetAt twoBlocks at held
    split at held
    · rename_i own
      cases held
      exact own.1.symm
    · cases held
  storageMaps := by
    refine ⟨monotone_const, fun number range page info answered given => ?_,
      fun number range page info answered given _ => ?_⟩
    · cases answered
      cases given
      rfl
    · cases answered
      cases given
      have complete : ∀ time entry, valueAt time entry ≠
          ChangeLog.valueBefore (fun _ => emptyWord) valueAt time entry →
            ∃ held, (time, entry, held) ∈ mapUpdates.map StorageMapUpdate.entry := by
        intro time entry changed
        obtain ⟨rfl, rfl | rfl⟩ := eq_of_changed changed
        · exact ⟨9, by decide⟩
        · exact ⟨emptyWord, by decide⟩
      have covers := ChangeLog.covers_filter (by decide) complete range.blockFrom
        (range.blockFrom + 2)
      rw [List.filter_map] at covers
      exact covers
  accountVault := by
    refine ⟨monotone_const, fun number range page info answered given => ?_,
      fun number range page info answered given _ => ?_⟩
    · cases answered
      cases given
      rfl
    · cases answered
      cases given
      have complete : ∀ time vaultKey, assetAt time vaultKey ≠
          ChangeLog.valueBefore (fun _ => none) assetAt time vaultKey →
            ∃ held, (time, vaultKey, held) ∈ vaultUpdates.map AccountVaultUpdate.entry := by
        intro time vaultKey changed
        obtain ⟨rfl, rfl | rfl⟩ := eq_of_changed changed
        · exact ⟨some deposit, by decide⟩
        · exact ⟨none, by decide⟩
      have covers := ChangeLog.covers_filter (by decide) complete range.blockFrom
        (range.blockFrom + 2)
      rw [List.filter_map] at covers
      exact covers

/-- An account with a map and a vault that are too large to be sent at once. -/
def details : AccountDetails :=
  ⟨created.toHeader, ⟨[(7, .map, 0)], [⟨7, true, .allEntries []⟩]⟩, 7, ⟨true, []⟩⟩

/-- The slot is built from the changes of the maps. -/
theorem buildStorageSlots_eq_ok_of_synced {info : SyncInfo StorageMapUpdate} {last : ℕ}
    (synced : node.syncStorageMapsInfo 0 none 2 0 = .ok info last) :
    ∃ slots, node.buildStorageSlots 2 details.storageDetails 0 = .ok slots last := by
  have made : AccountConstructors.storageMap (AccountNode.latestMapEntries info 7).toList =
      .ok (ExtTreeMap.ofList (AccountNode.latestMapEntries info 7).toList) := by
    refine if_pos ?_
    rw [ExtTreeMap.map_fst_toList_eq_keys]
    exact ExtTreeMap.nodup_keys
  refine ⟨[(7, .map (ExtTreeMap.ofList (AccountNode.latestMapEntries info 7).toList))], ?_⟩
  refine bind_eq_result_ok.mpr ⟨(_, some info), last, ?_, rfl⟩
  refine bind_eq_result_ok.mpr ⟨(_, some info), last, ?_, rfl⟩
  refine bind_eq_result_ok.mpr ⟨⟨7, true, .allEntries []⟩, 0, rfl, ?_⟩
  refine bind_eq_result_ok.mpr ⟨info, last, synced, ?_⟩
  exact bind_eq_result_ok.mpr ⟨_, last, fromExcept_eq_ok.mpr ⟨by rw [made]; rfl, rfl⟩, rfl⟩

/-- The entry and the asset are removed again. -/
theorem changes_exact_removed :
    (∃ slots last, node.buildStorageSlots 2 details.storageDetails 0 = .ok slots last ∧
      List.Forall₂ (LargeMapExact node 2 valueAt details.storageDetails 0)
        details.storageDetails.header slots) ∧
      ∃ assets last, node.fetchAssets details 0 = .ok assets last ∧ last = 3 ∧
        ∃ info, node.syncAccountVaultInfo 0 none 2 0 = .ok info last ∧
          ∀ asset, asset ∈ assets ↔ assetAt info.blockNumber asset.vaultKey = some asset := by
  constructor
  · obtain ⟨info, last, synced, -⟩ := exists_of_succeedsWith (show succeedsWith
      (node.syncStorageMapsInfo 0 none 2 0) (fun _ _ => true) = true by decide +kernel)
    obtain ⟨slots, built⟩ := buildStorageSlots_eq_ok_of_synced synced
    exact ⟨slots, last, built,
      (changes_exact serves).2.1 details.storageDetails 0 slots last built⟩
  · obtain ⟨assets, last, fetched, found⟩ := exists_of_succeedsWith (show succeedsWith
      (node.fetchAssets details 0) (fun _ last => last = 3) = true by decide +kernel)
    obtain ⟨info, synced, -, listed⟩ :=
      (changes_exact serves).2.2 details 0 assets last rfl rfl fetched
    exact ⟨assets, last, fetched, of_decide_eq_true found, info, synced, listed⟩

end Removing

end MidenClient
