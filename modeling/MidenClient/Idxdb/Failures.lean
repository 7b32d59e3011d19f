/-
This file says what a failed update leaves behind in the IndexedDB store
(`idxdb-store/src/transaction/mod.rs`, `idxdb-store/src/sync/mod.rs`,
`idxdb-store/src/account/mod.rs`).

An update is a series of separate transactions, between which the forest is changed. What
was completed before the failure stays: nothing is taken back, neither in the tables nor
in the forest.
-/

import MidenClient.Idxdb.Accounts
import MidenClient.Store.StoreUpdate

namespace MidenClient

open Std (ExtTreeMap)

namespace IdxdbDatabase

/-! ### Locking -/

/-- The lock of the latest header of an account. -/
def lockLatest (db : IdxdbDatabase) (accountId : AccountId) : IdxdbDatabase :=
  { db with
    latestAccountHeaders := db.latestAccountHeaders.modify accountId fun row =>
      { row with locked := true } }

/-- The lock of the historical headers of an account. -/
def lockHistorical (db : IdxdbDatabase) (accountId : AccountId) : IdxdbDatabase :=
  { db with
    historicalAccountHeaders := db.historicalAccountHeaders.map fun _ row =>
      if row.header.id = accountId then { row with locked := true } else row }

/-- The digest belongs to a previous state of the account. -/
def isPreviousState (db : IdxdbDatabase) (mismatched : AccountId × Word) : Bool :=
  (db.historicalAccountHeaders[mismatched.2]?).any fun row => row.header.id = mismatched.1

end IdxdbDatabase

/-- Inserts all nodes of an account's vault and storage, then stages the account's roots. -/
def AccountSmtForest.insertAndStageAccountState [ProtocolLibrary] (forest : AccountSmtForest)
    (account : Account) : AccountSmtForest :=
  (forest.insertAccountState account).stageRoots account.id (collectAccountRoots account)

namespace IdxdbDatabase

/-! ### What locking and undoing do to the headers -/

/-- The number of header rows that are not locked. -/
def unlocked (db : IdxdbDatabase) : ℕ :=
  OrderedMap.total (fun row : HeaderRow => if row.locked then 0 else 1) db.latestAccountHeaders +
    OrderedMap.total (fun row : HistoricalHeaderRow => if row.locked then 0 else 1)
      db.historicalAccountHeaders

/-- A lock of the latest header changes nothing, or there are fewer rows that are not locked. -/
theorem lockLatest_lowers (db : IdxdbDatabase) (accountId : AccountId) :
    db.lockLatest accountId = db ∨ (db.lockLatest accountId).unlocked < db.unlocked := by
  have away : ∀ other, accountId ≠ other →
      (db.latestAccountHeaders.modify accountId fun row => { row with locked := true })[other]? =
        db.latestAccountHeaders[other]? := by
    intro other different
    rw [ExtTreeMap.getElem?_modify, if_neg (by rwa [Std.compare_eq_iff_eq])]
  have here : (db.latestAccountHeaders.modify accountId fun row =>
      { row with locked := true })[accountId]? =
        (db.latestAccountHeaders[accountId]?).map fun row => { row with locked := true } := by
    rw [ExtTreeMap.getElem?_modify, if_pos Std.ReflCmp.compare_self]
  have unchanged : ((db.latestAccountHeaders[accountId]?).map fun row : HeaderRow =>
      { row with locked := true }) = db.latestAccountHeaders[accountId]? →
        db.lockLatest accountId = db := by
    intro same
    have latest : db.latestAccountHeaders.modify accountId (fun row =>
        { row with locked := true }) = db.latestAccountHeaders := by
      refine ExtTreeMap.ext_getElem? fun other => ?_
      by_cases equal : accountId = other
      · rw [← equal, here, same]
      · exact away other equal
    exact congrArg (fun latest => { db with latestAccountHeaders := latest }) latest
  rcases found : db.latestAccountHeaders[accountId]? with _ | row
  · exact Or.inl (unchanged (by rw [found]; rfl))
  · rcases locked : row.locked with _ | _
    · right
      refine Nat.add_lt_add_right ?_ _
      show OrderedMap.total _ (db.latestAccountHeaders.modify accountId _) < _
      rw [OrderedMap.total_eq_add_erase _ _ accountId,
        OrderedMap.total_eq_add_erase _ db.latestAccountHeaders accountId,
        OrderedMap.erase_congr away, here, found]
      simp [locked]
    · refine Or.inl (unchanged ?_)
      rw [found, Option.map_some, ← locked]

/-- A lock of the historical headers changes nothing, or there are fewer rows that are not
locked. -/
theorem lockHistorical_lowers (db : IdxdbDatabase) (accountId : AccountId) :
    db.lockHistorical accountId = db ∨ (db.lockHistorical accountId).unlocked < db.unlocked := by
  by_cases open_ : ∃ entry ∈ db.historicalAccountHeaders.toList,
      entry.2.header.id = accountId ∧ entry.2.locked = false
  · right
    refine Nat.add_lt_add_left ?_ _
    show OrderedMap.total _ (db.historicalAccountHeaders.map _) < _
    unfold OrderedMap.total
    rw [ExtTreeMap.toList_map, List.map_map]
    refine List.sum_lt_sum _ _ (fun entry _ => ?_) ?_
    · dsimp only [Function.comp_apply]
      split
      · exact Nat.zero_le _
      · exact Nat.le_refl _
    · obtain ⟨entry, member, own, free⟩ := open_
      refine ⟨entry, member, ?_⟩
      simp [own, free]
  · left
    refine congrArg (fun stored => { db with historicalAccountHeaders := stored }) ?_
    refine ExtTreeMap.ext_getElem? fun commitment => ?_
    rw [ExtTreeMap.getElem?_map]
    rcases found : db.historicalAccountHeaders[commitment]? with _ | row
    · rfl
    · rw [Option.map_some]
      by_cases own : row.header.id = accountId
      · rcases locked : row.locked with _ | _
        · exact absurd ⟨(commitment, row), ExtTreeMap.mem_toList_iff_getElem?_eq_some.mpr found,
            own, locked⟩ open_
        · rw [if_pos own, ← locked]
      · rw [if_neg own]

theorem foldl_restoreFromHistorical_headers (accountId : AccountId) (nonces : List ℕ)
    (db : IdxdbDatabase) :
    (nonces.foldl (fun db nonce => db.restoreFromHistorical accountId nonce)
        db).latestAccountHeaders = db.latestAccountHeaders ∧
      (nonces.foldl (fun db nonce => db.restoreFromHistorical accountId nonce)
        db).historicalAccountHeaders = db.historicalAccountHeaders := by
  induction nonces generalizing db with
  | nil => exact ⟨rfl, rfl⟩
  | cons nonce rest inductionHypothesis => exact inductionHypothesis _

theorem foldl_deleteHistorical_headers (accountId : AccountId) (nonces : List ℕ)
    (db : IdxdbDatabase) :
    (nonces.foldl (fun db nonce => db.deleteHistorical accountId nonce)
        db).latestAccountHeaders = db.latestAccountHeaders ∧
      (nonces.foldl (fun db nonce => db.deleteHistorical accountId nonce)
        db).historicalAccountHeaders = db.historicalAccountHeaders.filter fun _ row =>
          ¬(row.header.id = accountId ∧ row.replacedAtNonce ∈ nonces) := by
  induction nonces generalizing db with
  | nil =>
    refine ⟨rfl, ExtTreeMap.ext_getElem? fun commitment => ?_⟩
    rw [ExtTreeMap.getElem?_filter', List.foldl_nil]
    rcases db.historicalAccountHeaders[commitment]? with _ | row
    · rfl
    · simp [Option.filter_some]
  | cons nonce rest inductionHypothesis =>
    rw [List.foldl_cons]
    refine ⟨(inductionHypothesis _).1, (inductionHypothesis _).2.trans ?_⟩
    refine ExtTreeMap.ext_getElem? fun commitment => ?_
    rw [ExtTreeMap.getElem?_filter', ExtTreeMap.getElem?_filter', deleteHistorical,
      ExtTreeMap.getElem?_filter']
    rcases db.historicalAccountHeaders[commitment]? with _ | row
    · rfl
    · simp only [Option.filter_some, List.mem_cons, Bool.decide_and, Bool.decide_or,
        decide_not]
      by_cases own : row.header.id = accountId <;>
        by_cases here : row.replacedAtNonce = nonce <;>
        simp [own, here, Option.filter_some]

/-- Undoing the states of an account adds no row that is not locked: a restored header leaves the
historical ones. -/
theorem undoAccountNonces_unlocked_le (db : IdxdbDatabase) (accountId : AccountId)
    (nonces : List ℕ) : (db.undoAccountNonces accountId nonces).unlocked ≤ db.unlocked := by
  unfold undoAccountNonces
  dsimp only
  rcases last : (Database.descending nonces).getLast? with _ | minNonce
  · exact Nat.le_refl _
  dsimp only
  obtain ⟨restoredLatest, restoredHistorical⟩ :=
    foldl_restoreFromHistorical_headers accountId (Database.descending nonces) db
  generalize (Database.descending nonces).foldl
    (fun db nonce => db.restoreFromHistorical accountId nonce) db = restored at *
  obtain ⟨latest, historical⟩ := foldl_deleteHistorical_headers accountId
    (Database.descending nonces) (restored.restoreHeader accountId minNonce)
  unfold unlocked
  rw [latest, historical, ← restoredLatest, ← restoredHistorical]
  have listed : minNonce ∈ Database.descending nonces := List.mem_of_getLast? last
  unfold restoreHeader
  rcases found : restored.replacedAt accountId minNonce with _ | row
  · dsimp only
    exact Nat.add_le_add (OrderedMap.total_erase_le _ _ _) (OrderedMap.total_filter_le _ _ _)
  · dsimp only
    unfold replacedAt at found
    have selected := List.find?_some found
    obtain ⟨own, replaced⟩ := of_decide_eq_true selected
    obtain ⟨commitment, stored⟩ :=
      OrderedMap.mem_values_iff.mp (List.mem_of_find?_eq_some found)
    have gone := OrderedMap.total_filter_add_le
      (fun row : HistoricalHeaderRow => if row.locked then 0 else 1)
      (fun _ row => decide ¬(row.header.id = accountId ∧
        row.replacedAtNonce ∈ Database.descending nonces)) stored
      (by simp [own, replaced, listed])
    have added := OrderedMap.total_insert_le
      (fun row : HeaderRow => if row.locked then 0 else 1) restored.latestAccountHeaders
      row.header.id row.toHeaderRow
    omega

theorem undoAccountStates_unlocked_le [ProtocolLibrary] (db : IdxdbDatabase)
    (commitments : List Word) :
    (db.undoAccountStates commitments).unlocked ≤ db.unlocked := by
  unfold undoAccountStates
  generalize (Grouping.groupBy Prod.fst (commitments.filterMap db.resolveState)).toList = accounts
  induction accounts generalizing db with
  | nil => exact Nat.le_refl _
  | cons account rest inductionHypothesis =>
    exact (inductionHypothesis _).trans
      (db.undoAccountNonces_unlocked_le account.1 (account.2.map Prod.snd))

end IdxdbDatabase

/-! ### Computations that do not panic -/

theorem IdxdbDatabase.computeFungible_failsWith [ProtocolLibrary]
    (state : ExtTreeMap AssetVaultKey FungibleAsset × List Asset × List AssetVaultKey)
    (change : AccountId × ℤ) :
    Fallible.FailsWith StoreError.IsOrdinary (computeFungible state change) := by
  refine (FungibleAsset.new_failsWith _ _).bind fun deltaAsset => ?_
  exact (VaultChanges.changedAsset_failsWith _ _ _).bind fun asset => Fallible.FailsWith.ok _ _

theorem IdxdbDatabase.computeVaultDelta_failsWith [ProtocolLibrary] (oldVaultAssets : List Asset)
    (delta : AccountDelta) :
    Fallible.FailsWith StoreError.IsOrdinary (computeVaultDelta oldVaultAssets delta) :=
  (Fallible.FailsWith.foldlM computeFungible_failsWith _ _).bind fun _ => Fallible.FailsWith.ok _ _

namespace IdxdbStore

/-! ### Writes -/

/-- Changes the account tables only. -/
def onAccounts (change : IdxdbDatabase → IdxdbDatabase) (tables : StoreTables IdxdbDatabase) :
    StoreTables IdxdbDatabase :=
  { tables with accounts := change tables.accounts }

/-- Changes the note, tag and transaction tables only. -/
def onClient (change : ClientStore → ClientStore) (tables : StoreTables IdxdbDatabase) :
    StoreTables IdxdbDatabase :=
  { tables with client := change tables.client }

/-- `upsert_transaction_record`: the script first, then the record. -/
def recordWrites (update : TransactionStoreUpdate) :
    List (Statement × (StoreTables IdxdbDatabase → StoreTables IdxdbDatabase)) :=
  update.script.toList.map (fun script => (.transactionScript update.record.id, fun tables =>
    { tables with
      transactionScripts := tables.transactionScripts.insert script.1 script.2 })) ++
  [(.transactionRecord update.record.id, onClient fun client =>
    client.upsertTransactionRecord update.record)]

variable [NoteLibrary]

/-- The tracked notes are put as a whole, input notes first. -/
def noteWrites (updates : NoteUpdateTracker) :
    List (Statement × (StoreTables IdxdbDatabase → StoreTables IdxdbDatabase)) :=
  updates.updatedInputNotes.map (fun update => (.inputNote update.note.id, onClient fun client =>
    client.upsertInputNote update.note)) ++
  updates.updatedOutputNotes.map fun update => (.outputNote update.note.id, onClient fun client =>
    { client with outputNotes := client.outputNotes.insert update.note.id update.note })

/-- `add_note_tag`. -/
def addNoteTag (refusals : Refusals) (record : NoteTagRecord) : StoreM IdxdbDatabase Unit := do
  StoreM.read refusals .readTags
  let store ← get
  if record ∈ store.tables.client.noteTags then pure ()
  else StoreM.write refusals (.addTag record) (onClient fun client => client.addNoteTag record)

variable [ProtocolLibrary]

/-- The one transaction of a sync that writes everything but locks and rolled back states. A block
header is inserted once, a node is put. -/
def syncWrite (update : SyncStoreUpdate) (tables : StoreTables IdxdbDatabase) :
    StoreTables IdxdbDatabase :=
  let noted := (noteWrites update.noteUpdates).foldl (fun tables write => write.2 tables) tables
  { accounts := update.updatedPublicAccounts.foldl (fun db account =>
      db.applyFullAccountState { account with seed := none }) noted.accounts
    client :=
      let recorded := (ClientStore.settledRecords update.transactionUpdates).foldl
        ClientStore.upsertTransactionRecord noted.client
      { recorded with
        syncHeight := max recorded.syncHeight update.blockNum
        noteTags := recorded.noteTags.filter fun record => ∀ tracked ∈
          update.noteUpdates.updatedInputNotes, tracked.note.state.isCommitted →
            record.source ≠ .note tracked.note.id }
    transactionScripts := noted.transactionScripts
    blockHeaders := update.blockHeaders.foldl (fun stored block =>
      stored.insertIfNew block.1.blockNum ⟨block.1, block.2.2, block.2.1⟩) noted.blockHeaders
    partialBlockchainNodes := update.newAuthenticationNodes.foldl (fun stored node =>
      stored.insert node.1 node.2) noted.partialBlockchainNodes }

/-! ### The updates -/

/-- The part of `apply_transaction` for a delta that holds the whole account: the tables come
before the forest. -/
def applyFullState (refusals : Refusals) (account : Account) : StoreM IdxdbDatabase Unit := do
  StoreM.write refusals (.accountState account.id)
    (onAccounts fun db => db.applyFullAccountState account)
  StoreM.withForest fun _ => ForestM.update fun forest =>
    .ok (forest.insertAndStageAccountState account, ())

/-- The part of `apply_transaction` for another delta: the forest comes before the tables. -/
def applyDelta (refusals : Refusals) (transaction : ExecutedTransaction) :
    StoreM IdxdbDatabase Unit := do
  StoreM.read refusals .readAssets
  StoreM.read refusals .readMapRoots
  let changes ← StoreM.withForest fun tables => tables.accounts.stageTransaction transaction
  StoreM.write refusals (.accountState transaction.finalAccount.id) (onAccounts fun db =>
    db.applyTransactionDelta transaction.finalAccount changes.updatedSlots changes.updatedAssets
      changes.removedVaultKeys transaction.accountDelta)

/-- The account part of `apply_transaction`. -/
def applyAccount (refusals : Refusals) (update : TransactionStoreUpdate) :
    StoreM IdxdbDatabase Unit :=
  match update.fullState with
  | some account => applyFullState refusals account
  | none => applyDelta refusals update.executedTransaction

/-- `apply_transaction`. -/
def applyTransaction (refusals : Refusals) (update : TransactionStoreUpdate) :
    StoreM IdxdbDatabase Unit := do
  StoreM.writeEach refusals (recordWrites update)
  applyAccount refusals update
  StoreM.writeEach refusals (noteWrites update.noteUpdates)
  update.newTags.forM (addNoteTag refusals)

/-- `lock_account_on_unexpected_commitment`: two puts, each on its own. -/
def lockAccountOnUnexpectedCommitment (refusals : Refusals) (mismatched : AccountId × Word) :
    StoreM IdxdbDatabase Unit := do
  StoreM.read refusals (.readHistory mismatched.1)
  let store ← get
  if store.tables.accounts.isPreviousState mismatched then pure ()
  else
    StoreM.write refusals (.lockLatest mismatched.1)
      (onAccounts fun db => db.lockLatest mismatched.1)
    StoreM.write refusals (.lockHistorical mismatched.1)
      (onAccounts fun db => db.lockHistorical mismatched.1)

/-- Replaces the roots of updated accounts. -/
def registerAccounts (accounts : List Account) : ForestM Unit :=
  accounts.forM fun account => ForestM.update fun forest =>
    (forest.insertAndRegisterAccountState account).map fun next => (next, ())

/-- `apply_state_sync`. -/
def applyStateSync (refusals : Refusals) (update : SyncStoreUpdate) :
    StoreM IdxdbDatabase Unit := do
  update.mismatchedPrivateAccounts.forM (lockAccountOnUnexpectedCommitment refusals)
  StoreM.write refusals .undoStates (onAccounts fun db =>
    db.undoAccountStates (update.discardedStates.map Prod.snd))
  StoreM.withForest fun _ => ForestM.update fun forest =>
    .ok (forest.settle update.discardedStates update.committedAccounts, ())
  StoreM.withForest fun _ => registerAccounts update.updatedPublicAccounts
  StoreM.write refusals .syncUpdate (syncWrite update)

/-- `update_account`: the tables come before the forest. -/
def updateAccount (refusals : Refusals) (account : Account) : StoreM IdxdbDatabase Unit := do
  StoreM.read refusals .readHeader
  let store ← get
  if store.tables.accounts.latestAccountHeaders[account.id]? = none then
    throw (.accountDataNotFound account.id)
  else
    StoreM.write refusals (.accountState account.id)
      (onAccounts fun db => db.applyFullAccountState account)
    StoreM.withForest fun _ => registerAccounts [account]

/-- One of the updates. -/
def perform (refusals : Refusals) : UpdateCall → StoreM IdxdbDatabase Unit
  | .applyTransaction update => applyTransaction refusals update
  | .applyStateSync update => applyStateSync refusals update
  | .updateAccount account => updateAccount refusals account

/-! ### Writes before the accounts -/

omit [NoteLibrary] [ProtocolLibrary] in
/-- The script and the record are in tables of their own. -/
theorem foldl_recordWrites_iff (refusals : Refusals) (update : TransactionStoreUpdate)
    (tables : StoreTables IdxdbDatabase) :
    (StoreM.reached refusals (recordWrites update)).foldl (fun tables change => change.2 tables)
        tables = tables ↔ StoreM.KeepsTables refusals (recordWrites update) tables := by
  refine ⟨fun same => ?_, StoreM.KeepsTables.foldl⟩
  unfold StoreM.KeepsTables
  unfold recordWrites StoreM.reached at same ⊢
  generalize update.script = scripts at same ⊢
  rcases scripts with _ | script <;>
    rcases recorded : refusals (.transactionRecord update.record.id) with _ | reason
  · simpa [recorded] using same
  · simp [recorded]
  · rcases scripted : refusals (.transactionScript update.record.id) with _ | reason
    · simp only [Option.toList_some, List.map_cons, List.map_nil, List.cons_append,
        List.nil_append, List.takeWhile_cons, scripted, recorded, Option.isNone_none, if_true,
        List.takeWhile_nil, List.foldl_cons, List.foldl_nil, List.forall_mem_cons] at same ⊢
      have scripts := congrArg StoreTables.transactionScripts same
      have client := congrArg StoreTables.client same
      refine ⟨?_, ?_, fun _ member => (by cases member)⟩
      · exact congrArg (fun stored => { tables with transactionScripts := stored }) scripts
      · exact congrArg (fun stored => { tables with client := stored }) client
    · simp [scripted]
  · rcases scripted : refusals (.transactionScript update.record.id) with _ | refused
    · simpa [scripted, recorded] using same
    · simp [scripted]

omit [NoteLibrary] [ProtocolLibrary] in
theorem recordWrites_accounts (refusals : Refusals) (update : TransactionStoreUpdate)
    (tables : StoreTables IdxdbDatabase) :
    ((StoreM.reached refusals (recordWrites update)).foldl (fun tables change => change.2 tables)
      tables).accounts = tables.accounts := by
  refine foldl_write_view StoreTables.accounts (fun change member tables => ?_) tables
  have listed := (List.takeWhile_subset _) member
  simp only [recordWrites, List.mem_append, List.mem_map, List.mem_singleton] at listed
  rcases listed with ⟨script, -, rfl⟩ | rfl <;> rfl

/-! ### Staging -/

omit [NoteLibrary] in
/-- A transaction that fails under the lock leaves the registration alone, and one that succeeds
stages roots. -/
theorem stageTransaction_ends (db : IdxdbDatabase) (transaction : ExecutedTransaction)
    (original : AccountSmtForest) :
    Fallible.Ends (AccountSmtForest.SameRegistration · original)
      (fun _ last => ∃ grown roots, last = AccountSmtForest.stageRoots grown
        transaction.finalAccount.id roots ∧ grown.SameRegistration original)
      (db.stageTransaction transaction) := by
  refine .bind (ForestM.registeredRoots_preserves _ _) fun registered => ?_
  refine .bind (Database.applyAccountStorageDelta_preserves _ _ original) fun updatedSlots => ?_
  refine .bind (ForestM.liftExcept_preserves _ _) fun changes => ?_
  refine .bind (ForestM.update_preserves _ ?_) fun newVaultRoot => ?_
  · exact fun _ _ _ updated => AccountSmtForest.updateAssetNodes_sameRegistration updated
  split
  · exact fun grown same => Or.inr ⟨_, _, rfl, grown, _, rfl, same⟩
  · exact fun grown same => Or.inl ⟨_, _, rfl, same⟩

omit [NoteLibrary] in
/-- What runs under the lock does not panic. -/
theorem stageTransaction_throws (db : IdxdbDatabase) (transaction : ExecutedTransaction) :
    Fallible.Throws StoreError.IsOrdinary (db.stageTransaction transaction) := by
  refine (ForestM.registeredRoots_throws _).bind fun registered => ?_
  refine (applyAccountStorageDelta_throws _ _).bind fun updatedSlots => ?_
  refine (ForestM.liftExcept_throws (IdxdbDatabase.computeVaultDelta_failsWith _ _)).bind
    fun changes => ?_
  refine (ForestM.update_throws fun forest => forest.updateAssetNodes_failsWith _ _ _).bind
    fun newVaultRoot => ?_
  split
  · exact ForestM.update_throws fun _ => Fallible.FailsWith.ok _ _
  · exact Fallible.Throws.throw rfl

/-- The account part fails without a trace: before roots are staged, and after a write that changed
nothing. -/
def FailsUnstaged (refusals : Refusals) (update : TransactionStoreUpdate)
    (store : Store IdxdbDatabase) : Prop :=
  match update.fullState with
  | some account => refusals (.accountState account.id) ≠ none ∨ store.forestPoisoned = true ∧
      store.tables.accounts.applyFullAccountState account = store.tables.accounts
  | none => ¬ForestM.Accepts refusals [.readAssets, .readMapRoots] ∨
      store.forestPoisoned = true ∨
      ∃ reason last, store.tables.accounts.stageTransaction update.executedTransaction
        store.forest = .error reason last

omit [NoteLibrary] in
theorem applyDelta_cases (refusals : Refusals) (transaction : ExecutedTransaction)
    (store : Store IdxdbDatabase) :
    ((¬ForestM.Accepts refusals [.readAssets, .readMapRoots] ∨ store.forestPoisoned = true ∨
          ∃ reason last, store.tables.accounts.stageTransaction transaction store.forest =
            .error reason last) ∧ ∃ reason last,
        applyDelta refusals transaction store = .error reason { store with forest := last } ∧
          last.SameRegistration store.forest) ∨
      (¬(¬ForestM.Accepts refusals [.readAssets, .readMapRoots] ∨ store.forestPoisoned = true ∨
          ∃ reason last, store.tables.accounts.stageTransaction transaction store.forest =
            .error reason last) ∧ ∃ grown id roots,
        (Fallible.finalState (applyDelta refusals transaction store)).forest =
          AccountSmtForest.stageRoots grown id roots ∧ grown.SameRegistration store.forest) := by
  unfold ForestM.Accepts applyDelta
  simp only [List.forall_mem_cons, List.not_mem_nil, false_implies, implies_true, and_true]
  rcases assets : refusals .readAssets with _ | refused
  swap
  · refine Or.inl ⟨Or.inl fun accepted => (by cases accepted.1), refused, store.forest, ?_,
      .refl _⟩
    exact Fallible.bind_eq_result_error.mpr (Or.inl (StoreM.read_of_refused assets store))
  rw [Fallible.bind_of_result_ok (StoreM.read_of_accepted assets store)]
  rcases roots : refusals .readMapRoots with _ | refused
  swap
  · refine Or.inl ⟨Or.inl fun accepted => (by cases accepted.2), refused, store.forest, ?_,
      .refl _⟩
    exact Fallible.bind_eq_result_error.mpr (Or.inl (StoreM.read_of_refused roots store))
  rw [Fallible.bind_of_result_ok (StoreM.read_of_accepted roots store)]
  rcases free : store.forestPoisoned with _ | _
  swap
  · refine Or.inl ⟨Or.inr (Or.inl rfl), .lockPoisoned, store.forest, ?_, .refl _⟩
    rw [← free]
    exact Fallible.bind_eq_result_error.mpr (Or.inl (StoreM.withForest_of_poisoned free _))
  rcases stageTransaction_ends store.tables.accounts transaction store.forest store.forest
    (.refl store.forest) with
    ⟨stopped, last, outcome, same⟩ | ⟨changes, _, outcome, grown, newRoots, rfl, same⟩
  · refine Or.inl ⟨Or.inr (Or.inr ⟨stopped, last, outcome⟩), stopped, last, ?_, same⟩
    refine Fallible.bind_eq_result_error.mpr (Or.inl ?_)
    rw [StoreM.withForest_of_error free outcome, StoreM.failed_of_ordinary
      (stageTransaction_throws _ _ _ _ _ outcome), ← free]
  · refine Or.inr ⟨?_, grown, transaction.finalAccount.id, newRoots, ?_, same⟩
    · rintro (refuses | poisoned | ⟨stopped, last, fails⟩)
      · exact refuses ⟨rfl, rfl⟩
      · cases poisoned
      · rw [outcome] at fails
        cases fails
    · rw [Fallible.view_finalState_bind Store.forest fun _ _ => StoreM.write_forest _ _ _ _,
        StoreM.withForest_of_ok free outcome]
      rfl

omit [NoteLibrary] in
/-- The account part stages roots, or fails: without a trace, or on a lock that is not free after a
write that changed the tables. -/
theorem applyAccount_cases (refusals : Refusals) (update : TransactionStoreUpdate)
    (store : Store IdxdbDatabase) :
    (FailsUnstaged refusals update store ∧ ∃ reason last,
        applyAccount refusals update store = .error reason { store with forest := last } ∧
          last.SameRegistration store.forest) ∨
      (¬FailsUnstaged refusals update store ∧
        ((∃ reason changed, changed ≠ store.tables.accounts ∧
            applyAccount refusals update store =
              .error reason { store with tables := onAccounts (fun _ => changed) store.tables }) ∨
          ∃ grown id roots, (Fallible.finalState (applyAccount refusals update store)).forest =
            AccountSmtForest.stageRoots grown id roots ∧ grown.SameRegistration store.forest)) := by
  unfold FailsUnstaged applyAccount
  rcases update.fullState with _ | account
  · rcases applyDelta_cases refusals update.executedTransaction store with clean | ⟨staged, left⟩
    · exact Or.inl clean
    · exact Or.inr ⟨staged, Or.inr left⟩
  · dsimp only
    unfold applyFullState
    rcases accepted : refusals (.accountState account.id) with _ | refused
    swap
    · refine Or.inl ⟨Or.inl (by simp), refused, store.forest, ?_, .refl _⟩
      exact Fallible.bind_eq_result_error.mpr
        (Or.inl (StoreM.write_of_refused accepted _ store))
    rw [Fallible.bind_of_result_ok (StoreM.write_of_accepted accepted _ store)]
    rcases free : store.forestPoisoned with _ | _
    · refine Or.inr ⟨?_, Or.inr ⟨store.forest.insertAccountState account, account.id,
        AccountSmtForest.collectAccountRoots account, ?_,
        store.forest.insertAccountState_sameRegistration account⟩⟩
      · rintro (refuses | ⟨poisoned, -⟩)
        · exact refuses rfl
        · cases poisoned
      · have staged : StoreM.withForest (fun _ => ForestM.update fun forest =>
            .ok (forest.insertAndStageAccountState account, ())) { store with
              tables := onAccounts (fun db => db.applyFullAccountState account) store.tables } =
            .ok () { store with
              tables := onAccounts (fun db => db.applyFullAccountState account) store.tables
              forest := store.forest.insertAndStageAccountState account } :=
          StoreM.withForest_of_ok (by exact free) rfl
        rw [← free, staged]
        rfl
    · have stopped : StoreM.withForest (fun _ => ForestM.update fun forest =>
          .ok (forest.insertAndStageAccountState account, ())) { store with
            tables := onAccounts (fun db => db.applyFullAccountState account) store.tables } =
          .error .lockPoisoned { store with
            tables := onAccounts (fun db => db.applyFullAccountState account) store.tables } :=
        StoreM.withForest_of_poisoned (by exact free) _
      by_cases same : store.tables.accounts.applyFullAccountState account = store.tables.accounts
      · refine Or.inl ⟨Or.inr ⟨rfl, same⟩, .lockPoisoned, store.forest, ?_, .refl _⟩
        rw [← free, stopped]
        unfold onAccounts
        dsimp only
        rw [same]
      · refine Or.inr ⟨?_, Or.inl ⟨.lockPoisoned, _, same, ?_⟩⟩
        · rintro (refuses | ⟨-, unchanged⟩)
          · exact refuses rfl
          · exact same unchanged
        · rw [← free]
          exact stopped

omit [NoteLibrary] [ProtocolLibrary] in
/-- Adding tags does not touch the forest. -/
theorem addNoteTags_preserves (refusals : Refusals) (invariant : AccountSmtForest → Prop)
    (records : List NoteTagRecord) :
    Fallible.Preserves (fun store : Store IdxdbDatabase => invariant store.forest)
      (records.forM (addNoteTag refusals)) := by
  refine Fallible.Preserves.forM (fun record => ?_) records
  refine (StoreM.read_preserves refusals _).bind fun _ => ?_
  refine Fallible.Preserves.bind (fun _ holds => holds) fun store => ?_
  split
  · exact Fallible.Preserves.pure _ _
  · exact StoreM.write_preserves refusals _ _

/-! ### What failed updates leave behind -/

variable {refusals : Refusals} {store after : Store IdxdbDatabase} {reason : StoreError}

theorem applyTransaction_unchanged_iff {update : TransactionStoreUpdate}
    (failed : applyTransaction refusals update store = .error reason after) :
    store.Unchanged after ↔
      StoreM.KeepsTables refusals (recordWrites update) store.tables ∧
        (¬ForestM.Accepts refusals ((recordWrites update).map Prod.fst) ∨
          FailsUnstaged refusals update store) := by
  unfold applyTransaction at failed
  have kept := foldl_recordWrites_iff refusals update store.tables
  rcases StoreM.writeEach_cases refusals (recordWrites update) store with
    ⟨accepted, written⟩ | ⟨refuses, stopped, fails⟩
  swap
  · rw [Fallible.bind_eq_result_error.mpr (Or.inl fails)] at failed
    cases failed
    rw [← kept]
    constructor
    · exact fun unchanged => ⟨unchanged.tables, Or.inl refuses⟩
    · exact fun clean => ⟨clean.1, .refl _, rfl⟩
  rw [Fallible.bind_of_result_ok written] at failed
  have accounts := recordWrites_accounts refusals update store.tables
  generalize (StoreM.reached refusals (recordWrites update)).foldl
    (fun tables change => change.2 tables) store.tables = recorded at kept failed accounts
  have unstaged : FailsUnstaged refusals update { store with tables := recorded } ↔
      FailsUnstaged refusals update store := by
    unfold FailsUnstaged
    rw [accounts]
  rcases applyAccount_cases refusals update { store with tables := recorded } with
    ⟨fails, stopped, last, outcome, same⟩ | ⟨traced,
      ⟨stopped, changed, different, outcome⟩ | ⟨grown, id, roots, forest, same⟩⟩
  · rw [Fallible.bind_eq_result_error.mpr (Or.inl outcome)] at failed
    cases failed
    rw [← kept]
    constructor
    · exact fun unchanged => ⟨unchanged.tables, Or.inr (unstaged.mp fails)⟩
    · exact fun clean => ⟨clean.1, same, rfl⟩
  · refine iff_of_false (fun unchanged => ?_) ?_
    · rw [Fallible.bind_eq_result_error.mpr (Or.inl outcome)] at failed
      cases failed
      rw [accounts] at different
      exact different (congrArg StoreTables.accounts unchanged.tables)
    · rintro ⟨-, refuses | fails⟩
      · exact refuses accepted
      · exact traced (unstaged.mpr fails)
  · refine iff_of_false (fun unchanged => ?_) ?_
    · have final : after.forest = AccountSmtForest.stageRoots grown id roots := by
        rw [← forest, ← Fallible.view_finalState_bind Store.forest (fun _ _ =>
          (Fallible.view_finalState_bind Store.forest (fun _ _ =>
            addNoteTags_preserves refusals (· = _) update.newTags _ rfl) _).trans
              (StoreM.writeEach_forest refusals (noteWrites update.noteUpdates) _)), failed]
        rfl
      refine AccountSmtForest.not_sameRegistration_stageRoots same id roots ?_
      rw [← final]
      exact unchanged.registration
    · rintro ⟨-, refuses | fails⟩
      · exact refuses accepted
      · exact traced (unstaged.mpr fails)

omit [NoteLibrary] in
/-- All roots are replaced, or one of the accounts has staged roots and there is a panic. -/
theorem registerAccounts_cases (accounts : List Account) (forest : AccountSmtForest) :
    (forest.Settled accounts ∧ ∃ next, registerAccounts accounts forest = .ok () next ∧
        forest.registerAll accounts = .ok next) ∨
      (¬forest.Settled accounts ∧ ∃ id last,
        registerAccounts accounts forest = .error (.stagedChangesPending id) last) := by
  induction accounts generalizing forest with
  | nil => exact Or.inl ⟨fun _ absent => absurd absent List.not_mem_nil, forest, rfl, rfl⟩
  | cons account rest inductionHypothesis =>
    have unrolled : registerAccounts (account :: rest) = ((ForestM.update fun forest =>
        (forest.insertAndRegisterAccountState account).map fun next => (next, ())) >>= fun _ =>
          registerAccounts rest) := rfl
    rw [unrolled, forest.settled_cons]
    rcases forest.update_register_cases account with
      ⟨absent, next, registered, kept, ran⟩ | ⟨pending, panics⟩
    · have same : next.Settled rest ↔ forest.Settled rest := by
        unfold AccountSmtForest.Settled
        rw [kept]
      have all : forest.registerAll (account :: rest) = next.registerAll rest := by
        show List.foldlM _ _ _ = _
        rw [List.foldlM_cons, registered]
        rfl
      rw [Fallible.bind_of_result_ok ran, all]
      rcases inductionHypothesis next with ⟨settled, finished⟩ | ⟨open_, panics⟩
      · exact Or.inl ⟨⟨absent, same.mp settled⟩, finished⟩
      · exact Or.inr ⟨fun both => open_ (same.mpr both.2), panics⟩
    · refine Or.inr ⟨fun both => pending both.1, account.id, forest, ?_⟩
      exact Fallible.bind_eq_result_error.mpr (Or.inl panics)

omit [NoteLibrary] in
theorem updateAccount_unchanged_iff {account : Account}
    (failed : updateAccount refusals account store = .error reason after) :
    store.Unchanged after ↔
      refusals .readHeader ≠ none ∨
        store.tables.accounts.latestAccountHeaders[account.id]? = none ∨
        refusals (.accountState account.id) ≠ none ∨ store.forestPoisoned = true ∧
        store.tables.accounts.applyFullAccountState account = store.tables.accounts := by
  rcases header : refusals .readHeader with _ | refused
  swap
  · rw [StoreM.eq_of_read_refused header failed]
    exact iff_of_true (.refl store) (Or.inl (by simp))
  unfold updateAccount at failed
  rw [Fallible.bind_of_result_ok (StoreM.read_of_accepted header store)] at failed
  change (if store.tables.accounts.latestAccountHeaders[account.id]? = none then _ else _ :
    StoreM IdxdbDatabase Unit) store = _ at failed
  by_cases missing : store.tables.accounts.latestAccountHeaders[account.id]? = none
  · rw [if_pos missing] at failed
    cases failed
    exact iff_of_true (.refl store) (Or.inr (Or.inl missing))
  rw [if_neg missing] at failed
  rcases written : refusals (.accountState account.id) with _ | refused
  swap
  · rw [Fallible.bind_eq_result_error.mpr
      (Or.inl (StoreM.write_of_refused written _ store))] at failed
    cases failed
    exact iff_of_true (.refl store) (Or.inr (Or.inr (Or.inl (by simp))))
  rw [Fallible.bind_of_result_ok (StoreM.write_of_accepted written _ store)] at failed
  rw [or_iff_right (by simp), or_iff_right missing, or_iff_right (by simp)]
  rcases free : store.forestPoisoned with _ | _
  · refine iff_of_false (fun unchanged => ?_) fun poisoned => (by cases poisoned.1)
    rcases registerAccounts_cases [account] store.forest with
      ⟨-, next, ran, -⟩ | ⟨-, id, last, panics⟩
    · cases failed.symm.trans (StoreM.withForest_of_ok (by exact free) ran)
    · cases failed.symm.trans (StoreM.withForest_of_error (by exact free) panics)
      have poisoned := unchanged.lock
      rw [free] at poisoned
      exact absurd poisoned (by simp [StoreM.failed, StoreError.isPanic])
  · cases failed.symm.trans (StoreM.withForest_of_poisoned (by exact free) _)
    constructor
    · exact fun unchanged => ⟨rfl, congrArg StoreTables.accounts unchanged.tables⟩
    · rintro ⟨-, same⟩
      exact ⟨congrArg (fun accounts => { store.tables with accounts := accounts }) same,
        .refl _, rfl⟩

/-- What locking a report asks of the database, for the tables before it. -/
def reportWrites (db : IdxdbDatabase) (report : AccountId × Word) :
    List (Statement × (StoreTables IdxdbDatabase → StoreTables IdxdbDatabase)) :=
  (.readHistory report.1, id) ::
    if db.isPreviousState report then []
    else [(.lockLatest report.1, onAccounts fun db => db.lockLatest report.1),
      (.lockHistorical report.1, onAccounts fun db => db.lockHistorical report.1)]

/-- The writes of a sync on the tables before the forest is touched. -/
def accountWrites (db : IdxdbDatabase) (update : SyncStoreUpdate) :
    List (Statement × (StoreTables IdxdbDatabase → StoreTables IdxdbDatabase)) :=
  update.mismatchedPrivateAccounts.flatMap (reportWrites db) ++
    [(.undoStates, onAccounts fun db =>
      db.undoAccountStates (update.discardedStates.map Prod.snd))]

omit [NoteLibrary] [ProtocolLibrary] in
theorem lockAccount_eq (report : AccountId × Word) (store : Store IdxdbDatabase) :
    lockAccountOnUnexpectedCommitment refusals report store =
      StoreM.writeEach refusals (reportWrites store.tables.accounts report) store := by
  have unrolled : StoreM.writeEach refusals (reportWrites store.tables.accounts report) =
      (StoreM.write refusals (.readHistory report.1) id >>= fun _ => StoreM.writeEach refusals
        (if store.tables.accounts.isPreviousState report then []
        else [(.lockLatest report.1, onAccounts fun db => db.lockLatest report.1),
          (.lockHistorical report.1, onAccounts fun db => db.lockHistorical report.1)])) := rfl
  rw [unrolled]
  unfold lockAccountOnUnexpectedCommitment
  rcases answer : refusals (.readHistory report.1) with _ | refused
  · rw [Fallible.bind_of_result_ok (StoreM.read_of_accepted answer store),
      Fallible.bind_of_result_ok (StoreM.write_of_accepted answer id store)]
    change (if store.tables.accounts.isPreviousState report then _ else _ :
      StoreM IdxdbDatabase Unit) store = _
    split
    · rfl
    · show _ = (StoreM.write refusals (.lockLatest report.1) _ >>= fun _ =>
        StoreM.write refusals (.lockHistorical report.1) _ >>= fun _ => pure ()) store
      rw [bind_pure_unit]
  · rw [Fallible.bind_eq_result_error.mpr (Or.inl (StoreM.read_of_refused answer store)),
      Fallible.bind_eq_result_error.mpr (Or.inl (StoreM.write_of_refused answer id store))]

omit [NoteLibrary] [ProtocolLibrary] in
theorem reportWrites_congr {first second : IdxdbDatabase} {report : AccountId × Word}
    (same : first.isPreviousState report = second.isPreviousState report) :
    reportWrites first report = reportWrites second report := by
  unfold reportWrites
  rw [same]

omit [NoteLibrary] [ProtocolLibrary] in
/-- Locking does not change which digests belong to previous states. -/
theorem reportWrites_isPreviousState (db : IdxdbDatabase) (report other : AccountId × Word)
    (tables : StoreTables IdxdbDatabase) :
    ((StoreM.reached refusals (reportWrites db report)).foldl
      (fun tables change => change.2 tables) tables).accounts.isPreviousState other =
        tables.accounts.isPreviousState other := by
  refine foldl_write_view (fun tables : StoreTables IdxdbDatabase =>
    tables.accounts.isPreviousState other) (fun change member tables => ?_) tables
  have listed := (List.takeWhile_subset _) member
  unfold reportWrites at listed
  rcases List.mem_cons.mp listed with rfl | listed
  · rfl
  split at listed
  · cases listed
  · rcases List.mem_cons.mp listed with rfl | listed
    · rfl
    · rw [List.mem_singleton.mp listed]
      show ((tables.accounts.historicalAccountHeaders.map _)[other.2]?).any _ = _
      rw [ExtTreeMap.getElem?_map, IdxdbDatabase.isPreviousState]
      rcases tables.accounts.historicalAccountHeaders[other.2]? with _ | row
      · rfl
      · rw [Option.map_some, Option.any_some, Option.any_some]
        split
        · rfl
        · rfl

omit [NoteLibrary] [ProtocolLibrary] in
/-- Locking all reports is a series of separate writes. -/
theorem forM_lockAccount_eq (mismatched : List (AccountId × Word)) (store : Store IdxdbDatabase) :
    mismatched.forM (lockAccountOnUnexpectedCommitment refusals) store =
      StoreM.writeEach refusals (mismatched.flatMap (reportWrites store.tables.accounts))
        store := by
  induction mismatched generalizing store with
  | nil => rfl
  | cons report rest inductionHypothesis =>
    have unrolled : (report :: rest).forM (lockAccountOnUnexpectedCommitment refusals) =
        (lockAccountOnUnexpectedCommitment refusals report >>= fun _ =>
          rest.forM (lockAccountOnUnexpectedCommitment refusals)) := rfl
    have first := @lockAccount_eq refusals report store
    rw [unrolled, List.flatMap_cons, StoreM.writeEach_append]
    rcases StoreM.writeEach_cases refusals (reportWrites store.tables.accounts report) store with
      ⟨-, done⟩ | ⟨-, reason, failed⟩
    · rw [done] at first
      rw [Fallible.bind_of_result_ok first, Fallible.bind_of_result_ok done, inductionHypothesis]
      have same : reportWrites ((StoreM.reached refusals (reportWrites store.tables.accounts
          report)).foldl (fun tables change => change.2 tables) store.tables).accounts =
            reportWrites store.tables.accounts := by
        funext other
        exact reportWrites_congr (reportWrites_isPreviousState _ _ _ _)
      rw [same]
    · rw [failed] at first
      rw [Fallible.bind_eq_result_error.mpr (Or.inl first),
        Fallible.bind_eq_result_error.mpr (Or.inl failed)]

omit [NoteLibrary] in
/-- The writes on the accounts do not cancel each other: a lock leaves fewer rows that are not
locked, and the rollback cannot bring one back. -/
theorem foldl_accountWrites_iff (db : IdxdbDatabase) (update : SyncStoreUpdate)
    (tables : StoreTables IdxdbDatabase) :
    (StoreM.reached refusals (accountWrites db update)).foldl
        (fun tables change => change.2 tables) tables = tables ↔
      StoreM.KeepsTables refusals (accountWrites db update) tables := by
  refine ⟨fun same => ?_, StoreM.KeepsTables.foldl⟩
  let undo : Statement × (StoreTables IdxdbDatabase → StoreTables IdxdbDatabase) :=
    (.undoStates, onAccounts fun db =>
      db.undoAccountStates (update.discardedStates.map Prod.snd))
  obtain ⟨locks, rest, whole, locksListed, restListed⟩ : ∃ locks rest,
      StoreM.reached refusals (accountWrites db update) = locks ++ rest ∧
      (∀ change ∈ locks,
        change ∈ update.mismatchedPrivateAccounts.flatMap (reportWrites db)) ∧
      (rest = [] ∨ rest = [undo]) := by
    unfold StoreM.reached accountWrites
    rw [List.takeWhile_append]
    split
    · refine ⟨_, _, rfl, fun change member => member, ?_⟩
      rw [List.takeWhile_cons, List.takeWhile_nil]
      split
      · exact Or.inr rfl
      · exact Or.inl rfl
    · exact ⟨_, [], (List.append_nil _).symm,
        fun change member => (List.takeWhile_subset _) member, Or.inl rfl⟩
  have lowers : ∀ change ∈ locks, ∀ tables : StoreTables IdxdbDatabase,
      change.2 tables = tables ∨
        (change.2 tables).accounts.unlocked < tables.accounts.unlocked := by
    intro change member tables
    obtain ⟨report, -, listed⟩ := List.mem_flatMap.mp (locksListed change member)
    unfold reportWrites at listed
    rcases List.mem_cons.mp listed with rfl | listed
    · exact Or.inl rfl
    split at listed
    · cases listed
    have onTables : ∀ accounts, accounts = tables.accounts →
        { tables with accounts := accounts } = tables := by
      rintro accounts rfl
      rfl
    rcases List.mem_cons.mp listed with rfl | listed
    · exact (tables.accounts.lockLatest_lowers report.1).imp_left (onTables _)
    · rw [List.mem_singleton.mp listed]
      exact (tables.accounts.lockHistorical_lowers report.1).imp_left (onTables _)
  have undone : ∀ tables : StoreTables IdxdbDatabase,
      (rest.foldl (fun tables change => change.2 tables) tables).accounts.unlocked ≤
        tables.accounts.unlocked := by
    intro tables
    rcases restListed with rfl | rfl
    · exact Nat.le_refl _
    · exact tables.accounts.undoAccountStates_unlocked_le _
  obtain ⟨-, kept⟩ := foldl_write_lowers
    (fun tables : StoreTables IdxdbDatabase => tables.accounts.unlocked) lowers tables
  rw [whole, List.foldl_append] at same
  have locksVoid : ∀ change ∈ locks, change.2 tables = tables := by
    refine kept ?_
    have below := undone (locks.foldl (fun tables change => change.2 tables) tables)
    rwa [same] at below
  rw [foldl_write_fixed locksVoid] at same
  unfold StoreM.KeepsTables
  rw [whole]
  intro change member
  rcases List.mem_append.mp member with member | member
  · exact locksVoid change member
  · rcases restListed with rfl | rfl
    · cases member
    · rw [List.mem_singleton.mp member]
      exact same

/-- The part of a sync after its first writes: the forest, then the other tables. -/
def finishSync (refusals : Refusals) (update : SyncStoreUpdate) : StoreM IdxdbDatabase Unit := do
  StoreM.withForest fun _ => ForestM.update fun forest =>
    .ok (forest.settle update.discardedStates update.committedAccounts, ())
  StoreM.withForest fun _ => registerAccounts update.updatedPublicAccounts
  StoreM.write refusals .syncUpdate (syncWrite update)

theorem applyStateSync_eq (update : SyncStoreUpdate) (store : Store IdxdbDatabase) :
    applyStateSync refusals update store =
      (StoreM.writeEach refusals (accountWrites store.tables.accounts update) >>= fun _ =>
        finishSync refusals update) store := by
  have split : StoreM.writeEach refusals (accountWrites store.tables.accounts update) =
      (StoreM.writeEach refusals (update.mismatchedPrivateAccounts.flatMap
        (reportWrites store.tables.accounts)) >>= fun _ =>
          StoreM.write refusals .undoStates (onAccounts fun db =>
            db.undoAccountStates (update.discardedStates.map Prod.snd))) := by
    unfold accountWrites
    rw [StoreM.writeEach_append]
    show (_ >>= fun _ => (StoreM.write refusals .undoStates _ >>= fun _ => pure ())) = _
    rw [bind_pure_unit]
  rw [split, bind_assoc]
  show EStateM.bind _ _ _ = EStateM.bind _ _ _
  unfold EStateM.bind
  rw [forM_lockAccount_eq]
  rfl

/-- A sync that fails after its first writes leaves the tables as they were then. It found the lock
poisoned, poisoned it, or was refused with all roots replaced. -/
theorem finishSync_eq_error {update : SyncStoreUpdate}
    (failed : finishSync refusals update store = .error reason after) :
    after.tables = store.tables ∧
      ((store.forestPoisoned = true ∧ after.forest = store.forest ∧ after.forestPoisoned = true) ∨
      (store.forestPoisoned = false ∧
        ¬(store.forest.settle update.discardedStates update.committedAccounts).Settled
          update.updatedPublicAccounts ∧ after.forestPoisoned = true) ∨
      (store.forestPoisoned = false ∧
        (store.forest.settle update.discardedStates update.committedAccounts).Settled
          update.updatedPublicAccounts ∧
        (store.forest.settle update.discardedStates update.committedAccounts).registerAll
          update.updatedPublicAccounts = .ok after.forest ∧ after.forestPoisoned = false)) := by
  unfold finishSync at failed
  rcases free : store.forestPoisoned with _ | _
  swap
  · rw [Fallible.bind_eq_result_error.mpr
      (Or.inl (StoreM.withForest_of_poisoned free _))] at failed
    cases failed
    exact ⟨rfl, Or.inl ⟨rfl, rfl, free⟩⟩
  have settles : StoreM.withForest (fun _ => ForestM.update fun forest =>
      .ok (forest.settle update.discardedStates update.committedAccounts, ())) store = .ok ()
        { store with forest :=
          store.forest.settle update.discardedStates update.committedAccounts } :=
    StoreM.withForest_of_ok free rfl
  rw [Fallible.bind_of_result_ok settles] at failed
  generalize store.forest.settle update.discardedStates update.committedAccounts = settled
    at failed ⊢
  rcases registerAccounts_cases update.updatedPublicAccounts settled with
    ⟨ready, next, ran, registered⟩ | ⟨open_, id, last, panics⟩
  · have replaced : StoreM.withForest (fun _ => registerAccounts update.updatedPublicAccounts)
        { store with forest := settled } = .ok () { store with forest := next } :=
      StoreM.withForest_of_ok (by exact free) ran
    rw [Fallible.bind_of_result_ok replaced] at failed
    rcases answer : refusals .syncUpdate with _ | refused
    · rw [StoreM.write_of_accepted answer] at failed
      cases failed
    · rw [StoreM.write_of_refused answer] at failed
      cases failed
      exact ⟨rfl, Or.inr (Or.inr ⟨rfl, ready, registered, free⟩)⟩
  · have poisons : StoreM.withForest (fun _ => registerAccounts update.updatedPublicAccounts)
        { store with forest := settled } = .error (.stagedChangesPending id)
          (StoreM.failed (.stagedChangesPending id) last { store with forest := settled }) :=
      StoreM.withForest_of_error (by exact free) panics
    rw [Fallible.bind_eq_result_error.mpr (Or.inl poisons)] at failed
    cases failed
    exact ⟨rfl, Or.inr (Or.inl ⟨rfl, open_, Bool.or_true _⟩)⟩

theorem applyStateSync_unchanged_iff {update : SyncStoreUpdate}
    (well : store.forest.WellCounted)
    (failed : applyStateSync refusals update store = .error reason after) :
    store.Unchanged after ↔
      StoreM.KeepsTables refusals (accountWrites store.tables.accounts update) store.tables ∧
        (¬ForestM.Accepts refusals
            ((accountWrites store.tables.accounts update).map Prod.fst) ∨
          store.forestPoisoned = true ∨
          (store.forest.settle update.discardedStates update.committedAccounts).Settled
              update.updatedPublicAccounts ∧
            store.forest.KeepsRoots update.discardedStates update.committedAccounts
              update.updatedPublicAccounts) := by
  have kept := @foldl_accountWrites_iff _ refusals store.tables.accounts update store.tables
  rw [applyStateSync_eq] at failed
  rcases StoreM.writeEach_cases refusals (accountWrites store.tables.accounts update) store with
    ⟨accepted, written⟩ | ⟨refuses, stopped, fails⟩
  swap
  · rw [Fallible.bind_eq_result_error.mpr (Or.inl fails)] at failed
    cases failed
    rw [← kept]
    constructor
    · exact fun unchanged => ⟨unchanged.tables, Or.inl refuses⟩
    · exact fun clean => ⟨clean.1, .refl _, rfl⟩
  rw [Fallible.bind_of_result_ok written] at failed
  rw [← kept]
  obtain ⟨tables, ⟨poisoned, forest, lock⟩ | ⟨free, open_, lock⟩ |
    ⟨free, ready, registered, lock⟩⟩ :=
    finishSync_eq_error failed
  · constructor
    · exact fun unchanged => ⟨tables.symm.trans unchanged.tables, Or.inr (Or.inl poisoned)⟩
    · exact fun clean => ⟨tables.trans clean.1, forest ▸ .refl _, lock.trans poisoned.symm⟩
  · refine iff_of_false (fun unchanged => ?_) ?_
    · have same := unchanged.lock
      rw [lock, free] at same
      cases same
    · rintro ⟨-, refuses | poisoned | ⟨ready, -⟩⟩
      · exact refuses accepted
      · rw [free] at poisoned
        cases poisoned
      · exact open_ ready
  · have exact_ := AccountSmtForest.sameRegistration_settled_iff well registered
    rw [← exact_]
    constructor
    · exact fun unchanged =>
        ⟨tables.symm.trans unchanged.tables, Or.inr (Or.inr ⟨ready, unchanged.registration⟩)⟩
    · rintro ⟨same, refuses | poisoned | ⟨-, registration⟩⟩
      · exact absurd accepted refuses
      · rw [free] at poisoned
        cases poisoned
      · exact ⟨tables.trans same, registration, lock.trans free.symm⟩

/-- A failed call leaves no trace: what it completed before the failure, in the tables or in the
forest, changed nothing. -/
def FailsClean (refusals : Refusals) (store : Store IdxdbDatabase) : UpdateCall → Prop
  | .applyTransaction update =>
    StoreM.KeepsTables refusals (recordWrites update) store.tables ∧
      (¬ForestM.Accepts refusals ((recordWrites update).map Prod.fst) ∨
        FailsUnstaged refusals update store)
  | .applyStateSync update =>
    StoreM.KeepsTables refusals (accountWrites store.tables.accounts update) store.tables ∧
      (¬ForestM.Accepts refusals ((accountWrites store.tables.accounts update).map Prod.fst) ∨
        store.forestPoisoned = true ∨
        (store.forest.settle update.discardedStates update.committedAccounts).Settled
            update.updatedPublicAccounts ∧
          store.forest.KeepsRoots update.discardedStates update.committedAccounts
            update.updatedPublicAccounts)
  | .updateAccount account =>
    refusals .readHeader ≠ none ∨
      store.tables.accounts.latestAccountHeaders[account.id]? = none ∨
      refusals (.accountState account.id) ≠ none ∨ store.forestPoisoned = true ∧
      store.tables.accounts.applyFullAccountState account = store.tables.accounts

/-- A failed update of the IndexedDB store leaves it as it was exactly when nothing it completed
before the failure changed anything. -/
theorem unchanged_iff_failsClean (well : store.forest.WellCounted) (call : UpdateCall)
    (failed : perform refusals call store = .error reason after) :
    store.Unchanged after ↔ FailsClean refusals store call := by
  cases call with
  | applyTransaction update => exact applyTransaction_unchanged_iff failed
  | applyStateSync update => exact applyStateSync_unchanged_iff well failed
  | updateAccount account => exact updateAccount_unchanged_iff failed

/-- Every update, failed or not, keeps the counts of the forest right. -/
theorem perform_wellCounted (refusals : Refusals) (call : UpdateCall) :
    Fallible.Preserves (fun store : Store IdxdbDatabase => store.forest.WellCounted)
      (perform refusals call) := by
  have registered : ∀ accounts : List Account,
      Fallible.Preserves AccountSmtForest.WellCounted (registerAccounts accounts) :=
    fun accounts => Fallible.Preserves.forM AccountSmtForest.update_register_wellCounted accounts
  cases call with
  | applyTransaction update =>
    refine (StoreM.writeEach_preserves refusals _).bind fun _ => ?_
    refine Fallible.Preserves.bind (fun store well => ?_) fun _ => ?_
    · rcases applyAccount_cases refusals update store with
        ⟨-, reason, last, outcome, same⟩ | ⟨-,
          ⟨reason, changed, -, outcome⟩ | ⟨grown, id, roots, forest, same⟩⟩
      · rw [outcome]
        exact well.congr same
      · rw [outcome]
        exact well
      · show AccountSmtForest.WellCounted
          (Fallible.finalState (applyAccount refusals update store)).forest
        rw [forest]
        exact (well.congr same).stageRoots id roots
    · refine (StoreM.writeEach_preserves refusals _).bind fun _ => ?_
      exact addNoteTags_preserves refusals _ update.newTags
  | applyStateSync update =>
    intro store well
    show (Fallible.finalState (applyStateSync refusals update store)).forest.WellCounted
    rw [applyStateSync_eq]
    refine Fallible.Preserves.bind (StoreM.writeEach_preserves refusals _) (fun _ => ?_) store well
    refine (StoreM.withForest_preserves fun _ => ForestM.update_preserves _ ?_).bind fun _ => ?_
    · rintro forest _ _ ⟨⟩ counted
      exact counted.settle update.discardedStates update.committedAccounts
    refine (StoreM.withForest_preserves fun _ => registered _).bind fun _ => ?_
    exact StoreM.write_preserves refusals _ _
  | updateAccount account =>
    refine (StoreM.read_preserves refusals _).bind fun _ => ?_
    refine Fallible.Preserves.bind (fun _ well => well) fun store => ?_
    split
    · exact fun _ well => well
    · refine (StoreM.write_preserves refusals _ _).bind fun _ => ?_
      exact StoreM.withForest_preserves fun _ => registered [account]

end IdxdbStore

end MidenClient
