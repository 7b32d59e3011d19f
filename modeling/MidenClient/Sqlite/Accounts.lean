/-
This file models the account operations of the SQLite store
(`sqlite-store/src/account/accounts.rs`).

The tables are changed inside a database transaction and are therefore passed on as a
value, which a failure throws away. The forest lives in memory: it is a state that keeps
what was written to it when an operation fails.
-/

import MidenClient.Library.Grouping
import MidenClient.Sqlite.Storage

namespace MidenClient

open Std (ExtTreeMap)

/-- An operation on the forest that can fail; a failure keeps the forest as it is then. -/
abbrev ForestM := EStateM StoreError AccountSmtForest

namespace ForestM

/-- Runs an operation that does not touch the forest. -/
def liftExcept {α : Type} (result : Except StoreError α) : ForestM α := fun forest =>
  match result with
  | .ok value => .ok value forest
  | .error reason => .error reason forest

/-- Runs an operation on the forest that leaves it alone when it fails. -/
def update {α : Type} (operation : AccountSmtForest → Except StoreError (AccountSmtForest × α)) :
    ForestM α := fun forest =>
  match operation forest with
  | .ok (next, value) => .ok value next
  | .error reason => .error reason forest

/-- The registered roots of an account. -/
def registeredRoots (id : AccountId) : ForestM (List Word) :=
  update fun forest => match forest.getRoots id with
    | some roots => .ok (forest, roots)
    | none => .error (.accountDataNotFound id)

theorem liftExcept_preserves {α : Type} (invariant : AccountSmtForest → Prop)
    (result : Except StoreError α) : Fallible.Preserves invariant (liftExcept result) := by
  intro forest holds
  unfold liftExcept
  split
  · exact holds
  · exact holds

theorem update_preserves {α : Type} (invariant : AccountSmtForest → Prop)
    {operation : AccountSmtForest → Except StoreError (AccountSmtForest × α)}
    (keeps : ∀ forest next value, operation forest = .ok (next, value) → invariant forest →
      invariant next) : Fallible.Preserves invariant (update operation) := by
  intro forest holds
  unfold update
  split
  · rename_i next value updated
    exact keeps forest next value updated holds
  · exact holds

theorem liftExcept_eq_ok {α : Type} {result : Except StoreError α} {forest next : AccountSmtForest}
    {value : α} :
    liftExcept result forest = .ok value next ↔ result = .ok value ∧ next = forest := by
  unfold liftExcept
  cases result with
  | error reason =>
    constructor
    · intro failed
      cases failed
    · rintro ⟨failed, _⟩
      cases failed
  | ok produced =>
    constructor
    · intro succeeded
      cases succeeded
      exact ⟨rfl, rfl⟩
    · rintro ⟨same, rfl⟩
      cases same
      rfl

theorem update_eq_ok {α : Type}
    {operation : AccountSmtForest → Except StoreError (AccountSmtForest × α)}
    {forest next : AccountSmtForest} {value : α} :
    update operation forest = .ok value next ↔ operation forest = .ok (next, value) := by
  unfold update
  cases operation forest with
  | error reason =>
    constructor
    · intro failed
      cases failed
    · intro failed
      cases failed
  | ok produced =>
    constructor
    · intro succeeded
      cases succeeded
      rfl
    · intro same
      cases same
      rfl

theorem registeredRoots_preserves (invariant : AccountSmtForest → Prop) (id : AccountId) :
    Fallible.Preserves invariant (registeredRoots id) := by
  refine update_preserves invariant ?_
  intro forest next roots read holds
  split at read
  · cases read
    exact holds
  · cases read

theorem registeredRoots_eq_ok {id : AccountId} {registered : List Word}
    {forest next : AccountSmtForest} (found : registeredRoots id forest = .ok registered next) :
    forest.getRoots id = some registered ∧ next = forest := by
  have read := update_eq_ok.mp found
  split at read
  · rename_i roots same
    cases read
    exact ⟨same, rfl⟩
  · cases read

end ForestM

variable [ProtocolLibrary]

/-! ### Applying a delta -/

/-- Replaces the first root that equals the old one, or appends the new root. -/
def replaceMapRoot (roots : List Word) (oldRoot newRoot : Word) : List Word :=
  match roots.findIdx? (· == oldRoot) with
  | some index => roots.set index newRoot
  | none => roots ++ [newRoot]

/-- The final root list: the registered one with the new vault root in front and the changed
map roots replaced. -/
def finalRoots (registered : List Word) (vaultRoot : Word)
    (oldMapRoots : ExtTreeMap StorageSlotName Word)
    (updatedSlots : ExtTreeMap StorageSlotName (Word × StorageSlotType)) : List Word :=
  updatedSlots.toList.foldl (fun roots slot =>
    match slot.2.2 with
    | .map => replaceMapRoot roots (oldMapRoots[slot.1]?.getD ProtocolLibrary.emptySmtRoot)
        slot.2.1
    | .value => roots) (registered.set 0 vaultRoot)

/-- Adds the new tree of one storage map to the forest and its root to the updated slots. -/
def applyMapDelta (oldMapRoots : ExtTreeMap StorageSlotName Word)
    (slots : ExtTreeMap StorageSlotName (Word × StorageSlotType))
    (slot : StorageSlotName × ExtTreeMap StorageMapKey Word) :
    ForestM (ExtTreeMap StorageSlotName (Word × StorageSlotType)) := do
  let oldRoot := oldMapRoots[slot.1]?.getD ProtocolLibrary.emptySmtRoot
  let newRoot ← ForestM.update fun forest => forest.updateStorageMapNodes oldRoot slot.2.toList
  return slots.insert slot.1 (newRoot, .map)

/-- Computes the updated slots of a delta; the roots of maps come from the forest. -/
def applyAccountStorageDelta (oldMapRoots : ExtTreeMap StorageSlotName Word)
    (delta : AccountDelta) : ForestM (ExtTreeMap StorageSlotName (Word × StorageSlotType)) :=
  delta.maps.foldlM (applyMapDelta oldMapRoots)
    (ExtTreeMap.ofList (delta.values.map fun slot => (slot.1, slot.2, StorageSlotType.value)))

namespace Database

/-- Applies the vault delta to the tables and to the forest, and checks the vault root. -/
def applyAccountVaultDelta (db : Database) (initState finalState : AccountHeader)
    (updatedFungibleAssets : ExtTreeMap AssetVaultKey FungibleAsset) (delta : AccountDelta) :
    ForestM Database := do
  let changes ← ForestM.liftExcept (VaultChanges.ofDelta updatedFungibleAssets delta)
  let db := db.persistVaultDelta finalState.id finalState.nonce changes.removedVaultKeys
    changes.assets
  let newVaultRoot ← ForestM.update fun forest =>
    forest.updateAssetNodes initState.vaultRoot changes.assets changes.removedVaultKeys
  if newVaultRoot = finalState.vaultRoot then return db
  else throw (.conflictingRoots finalState.vaultRoot newVaultRoot)

/-- Applies the account delta to the account state, updating the vault and storage maps. -/
def applyAccountDelta (db : Database) (initState finalState : AccountHeader)
    (updatedFungibleAssets : ExtTreeMap AssetVaultKey FungibleAsset)
    (oldMapRoots : ExtTreeMap StorageSlotName Word) (delta : AccountDelta) :
    ForestM Database := do
  let db ← ForestM.liftExcept (db.insertAccountHeader finalState none (some initState))
  let db ← db.applyAccountVaultDelta initState finalState updatedFungibleAssets delta
  let registered ← ForestM.registeredRoots initState.id
  let slots ← applyAccountStorageDelta oldMapRoots delta
  let db := db.writeStorageDelta finalState.id finalState.nonce slots delta
  ForestM.update fun forest => .ok (forest.stageRoots finalState.id
    (finalRoots registered finalState.vaultRoot oldMapRoots slots), db)

/-- The part of `applyAccountDelta` that writes the tables, for given updated slots. -/
def applyDeltaTables (db : Database) (initState finalState : AccountHeader)
    (updatedFungibleAssets : ExtTreeMap AssetVaultKey FungibleAsset)
    (slots : ExtTreeMap StorageSlotName (Word × StorageSlotType)) (delta : AccountDelta) :
    Except StoreError Database := do
  let db ← db.insertAccountHeader finalState none (some initState)
  let changes ← VaultChanges.ofDelta updatedFungibleAssets delta
  return (db.persistVaultDelta finalState.id finalState.nonce changes.removedVaultKeys
    changes.assets).writeStorageDelta finalState.id finalState.nonce slots delta

/-! ### Undoing discarded states -/

/-- Restores old values from historical entries for a given nonce. -/
def restoreOldValuesForNonce (db : Database) (accountId : AccountId) (nonce : ℕ) : Database :=
  { db with
    accountStorage := db.accountStorage.restore oldSlot accountId nonce
    storageMapEntries := db.storageMapEntries.restore id accountId nonce
    accountAssets := db.accountAssets.restore id accountId nonce }

/-- The historical headers of an account that were replaced at a nonce, in row order. -/
def replacedAt (db : Database) (accountId : AccountId) (nonce : ℕ) : List HistoricalHeaderRow :=
  db.historicalAccountHeaders.filter fun row =>
    row.header.id = accountId ∧ row.replacedAtNonce = nonce

/-- Deletes the latest rows of an account. -/
def deleteLatest (db : Database) (accountId : AccountId) : Database :=
  { db with
    latestAccountHeaders := db.latestAccountHeaders.erase accountId
    accountStorage := db.accountStorage.clear accountId
    storageMapEntries := db.storageMapEntries.clear accountId
    accountAssets := db.accountAssets.clear accountId }

/-- Deletes the historical entries of an account at some nonces. -/
def deleteHistorical (db : Database) (accountId : AccountId) (nonces : List ℕ) : Database :=
  { db with
    historicalAccountHeaders := db.historicalAccountHeaders.filter fun row =>
      ¬(row.header.id = accountId ∧ row.replacedAtNonce ∈ nonces)
    accountStorage := db.accountStorage.forget accountId nonces
    storageMapEntries := db.storageMapEntries.forget accountId nonces
    accountAssets := db.accountAssets.forget accountId nonces }

/-- Restores the header that the earliest discarded nonce replaced. Without one there is no
previous state and the account is deleted. -/
def restoreHeader (db : Database) (accountId : AccountId) (minNonce : ℕ) : Database :=
  match db.replacedAt accountId minNonce with
  | [] => db.deleteLatest accountId
  | rows => rows.foldl (fun db row => db.replaceLatestHeader row.toHeaderRow) db

/-- Undoes all nonces of a single account: restores old values, restores the old header, and
cleans up consumed historical entries. The nonces are given in descending order. -/
def undoAccountNonces (db : Database) (accountId : AccountId) (nonces : List ℕ) : Database :=
  let restored := nonces.foldl (fun db nonce => db.restoreOldValuesForNonce accountId nonce) db
  match nonces.getLast? with
  | none => db
  | some minNonce => (restored.restoreHeader accountId minNonce).deleteHistorical accountId nonces

/-- The accounts and nonces of the stored states with the given commitments, from the latest and
then from the historical headers. -/
def resolveStates (db : Database) (commitments : List Word) : List (AccountId × ℕ) :=
  (db.latestAccountHeaders.toList.filter fun entry =>
    entry.2.header.toCommitment ∈ commitments).map
      (fun entry => (entry.2.header.id, entry.2.header.nonce)) ++
  (db.historicalAccountHeaders.filter fun row => row.header.toCommitment ∈ commitments).map
    fun row => (row.header.id, row.header.nonce)

/-- Sorted, without repetitions, and from the last to the first. -/
def descending (nonces : List ℕ) : List ℕ :=
  (nonces.insertionSort (· ≤ ·)).dedup.reverse

/-- The table part of `undoAccountState`. -/
def undoStates (db : Database) (discardedStates : List (AccountId × Word)) : Database :=
  (Grouping.groupBy Prod.fst (db.resolveStates (discardedStates.map Prod.snd))).toList.foldl
    (fun db account => db.undoAccountNonces account.1 (descending (account.2.map Prod.snd))) db

end Database

/-- The forest part of `undoAccountState`: every listed state discards one staged change. -/
def AccountSmtForest.discardStates (forest : AccountSmtForest)
    (discardedStates : List (AccountId × Word)) : AccountSmtForest :=
  discardedStates.foldl (fun forest state => forest.discardRoots state.1) forest

namespace Database

/-- Undoes discarded account states by restoring old values from historical. -/
def undoAccountState (db : Database) (forest : AccountSmtForest)
    (discardedStates : List (AccountId × Word)) : Database × AccountSmtForest :=
  if discardedStates.isEmpty then (db, forest)
  else (db.undoStates discardedStates, forest.discardStates discardedStates)

/-! ### Whole account states -/

/-- Inserts a new account into the tables. -/
def insertAccountTables (db : Database) (account : Account) : Except StoreError Database :=
  let coded := { db with accountCode := insert account.codeCommitment db.accountCode }
  let stored := (coded.insertStorageSlots account.id account.storage.toList).insertAssets
    account.id (account.vault.toList.map Prod.snd)
  stored.insertAccountHeader account.toHeader account.seed none

/-- Replaces the content of an account: archives it as a whole, deletes it, inserts the new
content, and marks what was absent before. -/
def replaceContent (db : Database) (account : Account) : Database :=
  let cleared := { db with
    accountStorage := (db.accountStorage.archiveLatest account.id account.nonce
      fun slot => (some slot.1, slot.2)).clear account.id
    storageMapEntries :=
      (db.storageMapEntries.archiveLatest account.id account.nonce some).clear account.id
    accountAssets :=
      (db.accountAssets.archiveLatest account.id account.nonce some).clear account.id }
  let inserted := (cleared.insertStorageSlots account.id account.storage.toList).insertAssets
    account.id (account.vault.toList.map Prod.snd)
  { inserted with
    accountStorage := inserted.accountStorage.archiveMissing account.id account.nonce
      fun slot => (none, slot.2)
    storageMapEntries :=
      inserted.storageMapEntries.archiveMissing account.id account.nonce fun _ => none
    accountAssets := inserted.accountAssets.archiveMissing account.id account.nonce fun _ => none }

/-- Replaces the account state with a completely new one from the network. -/
def updateAccountState (db : Database) (account : Account) : ForestM Database := do
  ForestM.update fun forest =>
    (forest.insertAndRegisterAccountState account).map fun next => (next, ())
  let oldHeader := db.latestAccountHeaders[account.id]?.map HeaderRow.header
  ForestM.liftExcept ((db.replaceContent account).insertAccountHeader account.toHeader none
    oldHeader)

/-- Locks the account if the mismatched digest does not belong to a previous account state, in
the latest and in the historical headers. -/
def lockAccountOnUnexpectedCommitment (db : Database) (mismatched : AccountId × Word) :
    Database :=
  if db.historicalAccountHeaders.any fun row =>
      row.header.id = mismatched.1 ∧ row.header.toCommitment = mismatched.2 then db
  else
    { db with
      latestAccountHeaders := db.latestAccountHeaders.modify mismatched.1 fun row =>
        { row with locked := true }
      historicalAccountHeaders := db.historicalAccountHeaders.map fun row =>
        if row.header.id = mismatched.1 then { row with locked := true } else row }

end Database

/-! ### What applying a delta does -/

/-- The root of a storage map after some of its entries are set. -/
def updatedMapRoot (root : Word) (entries : ExtTreeMap StorageMapKey Word) : Word :=
  if entries.toList.isEmpty then root
  else ProtocolLibrary.smtBatchInsert root
    (entries.toList.map fun entry => (ProtocolLibrary.mapKeyHash entry.1, entry.2))

/-- The new roots of the maps that a delta updates. -/
def newMapRoots (oldMapRoots : ExtTreeMap StorageSlotName Word) (delta : AccountDelta)
    (slotName : StorageSlotName) : Word :=
  match delta.storage[slotName]? with
  | some (.map entries) =>
    updatedMapRoot (oldMapRoots[slotName]?.getD ProtocolLibrary.emptySmtRoot) entries
  | _ => emptyWord

/-- The new roots of the maps are all that the forest adds to the updated slots. -/
theorem foldlM_applyMapDelta (oldMapRoots : ExtTreeMap StorageSlotName Word)
    (maps : List (StorageSlotName × ExtTreeMap StorageMapKey Word))
    (distinct : (maps.map Prod.fst).Nodup)
    (start slots : ExtTreeMap StorageSlotName (Word × StorageSlotType))
    (forest next : AccountSmtForest)
    (folded : maps.foldlM (applyMapDelta oldMapRoots) start forest = .ok slots next) :
    (∀ slot ∈ maps, slots[slot.1]? = some (updatedMapRoot
      (oldMapRoots[slot.1]?.getD ProtocolLibrary.emptySmtRoot) slot.2, StorageSlotType.map)) ∧
    ∀ slotName : StorageSlotName, slotName ∉ maps.map Prod.fst →
      slots[slotName]? = start[slotName]? := by
  induction maps generalizing start forest with
  | nil =>
    cases folded
    exact ⟨fun slot member => (by cases member), fun _ _ => rfl⟩
  | cons slot rest inductionHypothesis =>
    rw [List.foldlM_cons] at folded
    obtain ⟨value, middle, stepped, remaining⟩ := Fallible.bind_eq_result_ok.mp folded
    obtain ⟨newRoot, _, updated, inserted⟩ := Fallible.bind_eq_result_ok.mp stepped
    cases inserted
    have root := AccountSmtForest.updateStorageMapNodes_root (ForestM.update_eq_ok.mp updated)
    rw [List.map_cons, List.nodup_cons] at distinct
    obtain ⟨fresh, distinct⟩ := distinct
    obtain ⟨changed, unchanged⟩ := inductionHypothesis distinct _ _ remaining
    refine ⟨fun other member => ?_, fun slotName absent => ?_⟩
    · rcases List.mem_cons.mp member with rfl | later
      · rw [unchanged other.1 fresh, ExtTreeMap.getElem?_insert_self, root]
        rfl
      · exact changed other later
    · rw [List.map_cons, List.mem_cons, not_or] at absent
      rw [unchanged slotName absent.2, ExtTreeMap.getElem?_insert,
        if_neg (by rw [Std.compare_eq_iff_eq]; exact fun same => absent.1 same.symm)]

theorem applyAccountStorageDelta_eq_ok {oldMapRoots : ExtTreeMap StorageSlotName Word}
    {delta : AccountDelta} {slots : ExtTreeMap StorageSlotName (Word × StorageSlotType)}
    {forest next : AccountSmtForest}
    (applied : applyAccountStorageDelta oldMapRoots delta forest = .ok slots next) :
    slots = Database.updatedSlots (newMapRoots oldMapRoots delta) delta := by
  obtain ⟨changed, unchanged⟩ :=
    foldlM_applyMapDelta oldMapRoots delta.maps delta.maps_nodup _ slots forest next applied
  have values : ∀ (slotName : StorageSlotName) (word : Word) (slotType : StorageSlotType),
      (ExtTreeMap.ofList (delta.values.map fun slot =>
        (slot.1, slot.2, StorageSlotType.value)))[slotName]? = some (word, slotType) ↔
      delta.storage[slotName]? = some (.value word) ∧ slotType = .value := by
    intro slotName word slotType
    rw [OrderedMap.getElem?_ofList_eq_some_iff _ (by rw [List.map_map]; exact delta.values_nodup),
      List.mem_map, ← AccountDelta.mem_values_iff]
    constructor
    · rintro ⟨slot, member, same⟩
      cases same
      exact ⟨member, rfl⟩
    · rintro ⟨member, rfl⟩
      exact ⟨(slotName, word), member, rfl⟩
  refine ExtTreeMap.ext_getElem? fun slotName => Option.ext fun written => ?_
  rw [Database.updatedSlots, ExtTreeMap.getElem?_map]
  obtain ⟨word, slotType⟩ := written
  by_cases isMap : slotName ∈ delta.maps.map Prod.fst
  · obtain ⟨entries, change⟩ := (AccountDelta.mem_maps_iff delta slotName).mp isMap
    have listed := (delta.mem_maps_entry_iff slotName entries).mpr change
    rw [changed _ listed, change]
    simp only [newMapRoots, change, Option.map_some]
  · rw [unchanged slotName isMap, values]
    rw [AccountDelta.mem_maps_iff] at isMap
    cases change : delta.storage[slotName]? with
    | none => simp
    | some slotDelta =>
      cases slotDelta with
      | map entries => exact absurd ⟨entries, change⟩ isMap
      | value value =>
        simp only [Option.some.injEq, StorageSlotDelta.value.injEq, Option.map_some, Prod.mk.injEq]
        exact and_congr_right fun _ => eq_comm

namespace Database

variable {db result : Database} {initState finalState : AccountHeader} {delta : AccountDelta}
  {updatedFungibleAssets : ExtTreeMap AssetVaultKey FungibleAsset}
  {oldMapRoots : ExtTreeMap StorageSlotName Word} {forest next original : AccountSmtForest}

theorem applyAccountVaultDelta_preserves (db : Database) (initState finalState : AccountHeader)
    (updatedFungibleAssets : ExtTreeMap AssetVaultKey FungibleAsset) (delta : AccountDelta)
    (original : AccountSmtForest) :
    Fallible.Preserves (AccountSmtForest.SameRegistration · original)
      (db.applyAccountVaultDelta initState finalState updatedFungibleAssets delta) := by
  refine (ForestM.liftExcept_preserves _ _).bind fun changes => ?_
  refine (ForestM.update_preserves _ ?_).bind fun newVaultRoot => ?_
  · exact fun _ _ _ updated => AccountSmtForest.updateAssetNodes_sameRegistration updated
  · intro forest same
    split
    · exact same
    · exact same

theorem applyAccountStorageDelta_preserves (oldMapRoots : ExtTreeMap StorageSlotName Word)
    (delta : AccountDelta) (original : AccountSmtForest) :
    Fallible.Preserves (AccountSmtForest.SameRegistration · original)
      (applyAccountStorageDelta oldMapRoots delta) := by
  refine Fallible.Preserves.foldlM (fun slots slot => ?_) _ _
  refine (ForestM.update_preserves _ ?_).bind fun newRoot => Fallible.Preserves.pure _ _
  exact fun _ _ _ updated => AccountSmtForest.updateStorageMapNodes_sameRegistration updated

theorem applyAccountVaultDelta_eq_ok
    (applied : db.applyAccountVaultDelta initState finalState updatedFungibleAssets delta forest =
      .ok result next) :
    ∃ changes, VaultChanges.ofDelta updatedFungibleAssets delta = .ok changes ∧
      result = db.persistVaultDelta finalState.id finalState.nonce changes.removedVaultKeys
        changes.assets := by
  obtain ⟨changes, _, computed, applied⟩ := Fallible.bind_eq_result_ok.mp applied
  obtain ⟨newVaultRoot, _, -, applied⟩ := Fallible.bind_eq_result_ok.mp applied
  refine ⟨changes, (ForestM.liftExcept_eq_ok.mp computed).1, ?_⟩
  split at applied
  · cases applied
    rfl
  · cases applied

/-- What a successful application does to the tables and to the forest: besides new trees, only
the final roots are staged. -/
theorem applyAccountDelta_eq_ok
    (applied : db.applyAccountDelta initState finalState updatedFungibleAssets oldMapRoots delta
      forest = .ok result next) :
    ∃ registered, ∃ grown : AccountSmtForest,
      db.applyDeltaTables initState finalState updatedFungibleAssets
        (updatedSlots (newMapRoots oldMapRoots delta) delta) delta = .ok result ∧
      forest.getRoots initState.id = some registered ∧ grown.SameRegistration forest ∧
      next = grown.stageRoots finalState.id (finalRoots registered finalState.vaultRoot
        oldMapRoots (updatedSlots (newMapRoots oldMapRoots delta) delta)) := by
  obtain ⟨headed, first, inserted, afterHeader⟩ := Fallible.bind_eq_result_ok.mp applied
  obtain ⟨insertedOk, rfl⟩ := ForestM.liftExcept_eq_ok.mp inserted
  obtain ⟨vaulted, second, vaultApplied, afterVault⟩ := Fallible.bind_eq_result_ok.mp afterHeader
  obtain ⟨registered, third, found, afterRoots⟩ := Fallible.bind_eq_result_ok.mp afterVault
  obtain ⟨registeredAt, rfl⟩ := ForestM.registeredRoots_eq_ok found
  obtain ⟨slots, fourth, stored, afterSlots⟩ := Fallible.bind_eq_result_ok.mp afterRoots
  have staged := ForestM.update_eq_ok.mp afterSlots
  cases staged
  obtain ⟨changes, computed, rfl⟩ := applyAccountVaultDelta_eq_ok vaultApplied
  obtain rfl := applyAccountStorageDelta_eq_ok stored
  have sameSecond := (applyAccountVaultDelta_preserves headed initState finalState
    updatedFungibleAssets delta first).of_ok (.refl first) vaultApplied
  have sameFourth := (applyAccountStorageDelta_preserves oldMapRoots delta first).of_ok
    sameSecond stored
  refine ⟨registered, fourth, ?_, ?_, sameFourth, rfl⟩
  · rw [applyDeltaTables, insertedOk]
    show (VaultChanges.ofDelta updatedFungibleAssets delta >>= _) = _
    rw [computed]
    rfl
  · rw [AccountSmtForest.getRoots, ← sameSecond.accountRoots]
    exact registeredAt

end Database

end MidenClient
