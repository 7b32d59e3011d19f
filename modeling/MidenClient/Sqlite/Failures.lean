/-
This file says what a failed update leaves behind in the SQLite store
(`sqlite-store/src/transaction.rs`, `sqlite-store/src/sync.rs`,
`sqlite-store/src/account/accounts.rs`).

Every update runs in one database transaction, so a failure never changes the tables. The
forest is changed in the middle of it, and nothing takes that back when a later statement
or the commit fails. A panic of the forest also poisons its lock.
-/

import MidenClient.Store.StoreUpdate

namespace MidenClient

open Std (ExtTreeMap)

section Library

variable [ProtocolLibrary]

namespace Database

/-! ### Account operations with statements that can be refused -/

/-- `applyAccountDelta` up to the point where the new roots are staged: the roots to stage, and
the tables. -/
def prepareAccountDelta (refusals : Refusals) (db : Database) (initState finalState : AccountHeader)
    (updatedFungibleAssets : ExtTreeMap AssetVaultKey FungibleAsset)
    (oldMapRoots : ExtTreeMap StorageSlotName Word) (delta : AccountDelta) :
    ForestM (List Word × Database) := do
  ForestM.statement refusals (.accountHeader finalState.id)
  let db ← ForestM.liftExcept (db.insertAccountHeader finalState none (some initState))
  let changes ← ForestM.liftExcept (VaultChanges.ofDelta updatedFungibleAssets delta)
  ForestM.statement refusals (.accountVault finalState.id)
  let db := db.persistVaultDelta finalState.id finalState.nonce changes.removedVaultKeys
    changes.assets
  let newVaultRoot ← ForestM.update fun forest =>
    forest.updateAssetNodes initState.vaultRoot changes.assets changes.removedVaultKeys
  if newVaultRoot = finalState.vaultRoot then
    let registered ← ForestM.registeredRoots initState.id
    let slots ← applyAccountStorageDelta oldMapRoots delta
    ForestM.statement refusals (.accountStorage finalState.id)
    return (finalRoots registered finalState.vaultRoot oldMapRoots slots,
      db.writeStorageDelta finalState.id finalState.nonce slots delta)
  else throw (.conflictingRoots finalState.vaultRoot newVaultRoot)

/-- The account part of `apply_transaction`. -/
def applyTransactionDelta (refusals : Refusals) (db : Database)
    (transaction : ExecutedTransaction) : ForestM Database := do
  let accountId := transaction.finalAccount.id
  let delta := transaction.accountDelta
  let prepared ← db.prepareAccountDelta refusals transaction.initialAccount
    transaction.finalAccount (db.getAccountFungibleAssetsForDelta accountId delta)
    (db.getStorageMapRootsForDelta accountId delta) delta
  ForestM.update fun forest => .ok (forest.stageRoots accountId prepared.1, prepared.2)

/-- The part of `updateAccountState` that writes the tables. -/
def replaceAccountTables (refusals : Refusals) (db : Database) (account : Account) :
    Except StoreError Database := do
  refusals.answer (.accountState account.id)
  let oldHeader := db.latestAccountHeaders[account.id]?.map HeaderRow.header
  (db.replaceContent account).insertAccountHeader account.toHeader none oldHeader

/-- `updateAccountState`: the forest comes first, then the tables. -/
def replaceAccountState (refusals : Refusals) (db : Database) (account : Account) :
    ForestM Database := do
  ForestM.update fun forest =>
    (forest.insertAndRegisterAccountState account).map fun next => (next, ())
  ForestM.liftExcept (db.replaceAccountTables refusals account)

/-! ### What the account parts leave in the forest -/

/-- Nothing is registered or staged before the new roots are known. -/
theorem prepareAccountDelta_preserves (refusals : Refusals) (db : Database)
    (initState finalState : AccountHeader)
    (updatedFungibleAssets : ExtTreeMap AssetVaultKey FungibleAsset)
    (oldMapRoots : ExtTreeMap StorageSlotName Word) (delta : AccountDelta)
    (original : AccountSmtForest) :
    Fallible.Preserves (AccountSmtForest.SameRegistration · original)
      (db.prepareAccountDelta refusals initState finalState updatedFungibleAssets oldMapRoots
        delta) := by
  refine (ForestM.liftExcept_preserves _ _).bind fun _ => ?_
  refine (ForestM.liftExcept_preserves _ _).bind fun headed => ?_
  refine (ForestM.liftExcept_preserves _ _).bind fun changes => ?_
  refine (ForestM.liftExcept_preserves _ _).bind fun _ => ?_
  refine (ForestM.update_preserves _ ?_).bind fun newVaultRoot => ?_
  · exact fun _ _ _ updated => AccountSmtForest.updateAssetNodes_sameRegistration updated
  split
  · refine (ForestM.registeredRoots_preserves _ _).bind fun registered => ?_
    refine (applyAccountStorageDelta_preserves oldMapRoots delta original).bind
      fun slots => ?_
    exact (ForestM.liftExcept_preserves _ _).bind fun _ => Fallible.Preserves.pure _ _
  · exact fun _ same => same

/-- A failed account part leaves the registration alone, and a successful one stages roots. -/
theorem applyTransactionDelta_ends (refusals : Refusals) (db : Database)
    (transaction : ExecutedTransaction) (original : AccountSmtForest) :
    Fallible.Ends (AccountSmtForest.SameRegistration · original)
      (fun _ last => ∃ grown roots, last = AccountSmtForest.stageRoots grown
        transaction.finalAccount.id roots ∧ grown.SameRegistration original)
      (db.applyTransactionDelta refusals transaction) := by
  refine .bind (prepareAccountDelta_preserves refusals db _ _ _ _ _ original) fun prepared => ?_
  exact fun grown same => Or.inr ⟨_, _, rfl, grown, prepared.1, rfl, same⟩

theorem applyTransactionDelta_throws (refusals : Refusals) (db : Database)
    (transaction : ExecutedTransaction) :
    Fallible.Throws StoreError.IsOrdinary (db.applyTransactionDelta refusals transaction) := by
  refine Fallible.Throws.bind ?_ fun prepared =>
    ForestM.update_throws fun _ => Fallible.FailsWith.ok _ _
  refine (ForestM.statement_throws refusals _).bind fun _ => ?_
  refine (ForestM.liftExcept_throws (db.insertAccountHeader_failsWith _ _ _)).bind fun _ => ?_
  refine (ForestM.liftExcept_throws (VaultChanges.ofDelta_failsWith _ _)).bind fun changes => ?_
  refine (ForestM.statement_throws refusals _).bind fun _ => ?_
  refine (ForestM.update_throws fun forest => forest.updateAssetNodes_failsWith _ _ _).bind
    fun newVaultRoot => ?_
  split
  · refine (ForestM.registeredRoots_throws _).bind fun registered => ?_
    refine (applyAccountStorageDelta_throws _ _).bind fun slots => ?_
    exact (ForestM.statement_throws refusals _).bind fun _ => Fallible.Throws.pure _ _
  · exact Fallible.Throws.throw rfl

/-- The accounts whose roots are to be replaced, up to the first whose tables fail. -/
def replacedAccounts (refusals : Refusals) : List Account → Database → List Account
  | [], _ => []
  | account :: rest, db =>
    account :: match db.replaceAccountTables refusals account with
      | .error _ => []
      | .ok next => replacedAccounts refusals rest next

theorem replacedAccounts_singleton (refusals : Refusals) (account : Account) (db : Database) :
    replacedAccounts refusals [account] db = [account] := by
  rw [replacedAccounts]
  split
  · rfl
  · rfl

theorem replaceAccountTables_failsWith (refusals : Refusals) (db : Database) (account : Account) :
    Fallible.FailsWith StoreError.IsOrdinary (db.replaceAccountTables refusals account) := by
  refine Fallible.FailsWith.bind (fun reason refused => ?_) fun _ =>
    insertAccountHeader_failsWith _ _ _ _
  exact ForestM.statement_throws refusals (.accountState account.id) AccountSmtForest.new reason
    AccountSmtForest.new (by unfold ForestM.statement ForestM.liftExcept; rw [refused])

/-- The roots of all these accounts are replaced, or one of them has staged roots and there is a
panic. Nothing is staged or settled. -/
theorem foldlM_replaceAccountState_cases (refusals : Refusals) (accounts : List Account)
    (db : Database) (forest : AccountSmtForest) :
    (Fallible.finalState
        (accounts.foldlM (replaceAccountState refusals) db forest)).pendingOldRoots =
      forest.pendingOldRoots ∧
    ((forest.Settled (replacedAccounts refusals accounts db) ∧
        forest.registerAll (replacedAccounts refusals accounts db) = .ok (Fallible.finalState
          (accounts.foldlM (replaceAccountState refusals) db forest)) ∧
        ∀ reason last, accounts.foldlM (replaceAccountState refusals) db forest =
          .error reason last → reason.IsOrdinary) ∨
      (¬forest.Settled (replacedAccounts refusals accounts db) ∧ ∃ id last,
        accounts.foldlM (replaceAccountState refusals) db forest =
          .error (.stagedChangesPending id) last)) := by
  induction accounts generalizing db forest with
  | nil =>
    refine ⟨rfl, Or.inl ⟨fun _ absent => absurd absent List.not_mem_nil, rfl, ?_⟩⟩
    exact fun reason last failed => (by cases failed)
  | cons account rest inductionHypothesis =>
    rw [List.foldlM_cons, replacedAccounts, forest.settled_cons]
    rcases forest.update_register_cases account with
      ⟨absent, next, registered, kept, ran⟩ | ⟨pending, panics⟩
    swap
    · have stopped : db.replaceAccountState refusals account forest =
          .error (.stagedChangesPending account.id) forest :=
        Fallible.bind_eq_result_error.mpr (Or.inl panics)
      rw [Fallible.bind_eq_result_error.mpr (Or.inl stopped)]
      exact ⟨rfl, Or.inr ⟨fun both => pending both.1, account.id, forest, rfl⟩⟩
    have all : ∀ others, forest.registerAll (account :: others) = next.registerAll others := by
      intro others
      show List.foldlM _ _ _ = _
      rw [List.foldlM_cons, registered]
      rfl
    have tables : db.replaceAccountState refusals account forest =
        ForestM.liftExcept (db.replaceAccountTables refusals account) next :=
      Fallible.bind_of_result_ok ran _
    rw [all]
    rcases written : db.replaceAccountTables refusals account with reason | replaced
    · have failed : db.replaceAccountState refusals account forest = .error reason next := by
        rw [tables, written]
        rfl
      rw [Fallible.bind_eq_result_error.mpr (Or.inl failed)]
      refine ⟨kept, Or.inl ⟨⟨absent, fun _ member => absurd member List.not_mem_nil⟩, rfl, ?_⟩⟩
      intro other last stopped
      cases stopped
      exact replaceAccountTables_failsWith refusals db account reason written
    · have done : db.replaceAccountState refusals account forest = .ok replaced next := by
        rw [tables, written]
        rfl
      rw [Fallible.bind_of_result_ok done]
      have same : next.Settled (replacedAccounts refusals rest replaced) ↔
          forest.Settled (replacedAccounts refusals rest replaced) := by
        unfold AccountSmtForest.Settled
        rw [kept]
      obtain ⟨unstaged, ⟨settled, finished⟩ | ⟨open_, panics⟩⟩ := inductionHypothesis replaced next
      · exact ⟨unstaged.trans kept, Or.inl ⟨⟨absent, same.mp settled⟩, finished⟩⟩
      · exact ⟨unstaged.trans kept, Or.inr ⟨fun both => open_ (same.mpr both.2), panics⟩⟩

end Database

namespace SqliteStore

variable [NoteLibrary]

/-! ### Writing the other tables -/

/-- `upsert_transaction_record`: a script that is there already is kept. -/
def upsertTransactionRecord (record : TransactionRecord) (script : Option (Word × List ℕ))
    (tables : StoreTables Database) : StoreTables Database :=
  { tables with
    client := tables.client.upsertTransactionRecord record
    transactionScripts := match script with
      | some (root, bytes) => tables.transactionScripts.insertIfNew root bytes
      | none => tables.transactionScripts }

/-- A block header is inserted once; that it has client notes can be added later. -/
def insertBlockHeader (block : BlockHeader × Bool × List Word) (tables : StoreTables Database) :
    StoreTables Database :=
  { tables with
    blockHeaders := (tables.blockHeaders.insertIfNew block.1.blockNum
      ⟨block.1, block.2.2, block.2.1⟩).modify block.1.blockNum fun row =>
        if row.hasClientNotes then row else { row with hasClientNotes := block.2.1 } }

/-- Nodes are inserted once. -/
def insertPartialBlockchainNodes (nodes : List (ℕ × Word)) (tables : StoreTables Database) :
    StoreTables Database :=
  { tables with
    partialBlockchainNodes := nodes.foldl (fun stored node => stored.insertIfNew node.1 node.2)
      tables.partialBlockchainNodes }

/-- Changes the note, tag and transaction tables only. -/
def onClient (change : ClientStore → ClientStore) (tables : StoreTables Database) :
    StoreTables Database :=
  { tables with client := change tables.client }

/-- The writes of a transaction update after its account part. -/
def transactionWrites (update : TransactionStoreUpdate) :
    List (Statement × (StoreTables Database → StoreTables Database)) :=
  (.noteUpdates, onClient fun client => client.applyNoteUpdates update.noteUpdates) ::
    update.newTags.map fun record => (.addTag record, onClient fun client =>
      { client with noteTags := client.noteTags ++ [record] })

/-- The writes of a sync update before its account part. -/
def syncWrites (update : SyncStoreUpdate) :
    List (Statement × (StoreTables Database → StoreTables Database)) :=
  (.syncHeight, onClient fun client =>
      { client with syncHeight := max client.syncHeight update.blockNum }) ::
    update.blockHeaders.map (fun block =>
      (.blockHeader block.1.blockNum, insertBlockHeader block)) ++
    (.blockchainNodes, insertPartialBlockchainNodes update.newAuthenticationNodes) ::
    (.noteUpdates, onClient fun client => client.applyNoteUpdates update.noteUpdates) ::
    (ClientStore.tagsToRemove update.noteUpdates).map (fun record =>
      (.removeTag record, onClient fun client => client.removeNoteTag record)) ++
    (ClientStore.settledRecords update.transactionUpdates).map fun record =>
      (.transactionRecord record.id, upsertTransactionRecord record none)

/-- The writes that lock private accounts. -/
def lockWrites (mismatched : List (AccountId × Word)) :
    List (Statement × (StoreTables Database → StoreTables Database)) :=
  mismatched.map fun report => (.lockLatest report.1, fun tables =>
    { tables with accounts := tables.accounts.lockAccountOnUnexpectedCommitment report })

/-! ### The updates -/

/-- `apply_transaction`. -/
def applyTransaction (refusals : Refusals) (update : TransactionStoreUpdate) :
    StoreM Database Unit := do
  StoreM.read refusals .readAssets
  StoreM.read refusals .readMapRoots
  let store ← get
  StoreM.inTransaction refusals fun tables => do
    ForestM.statement refusals (.transactionRecord update.record.id)
    let tables := upsertTransactionRecord update.record update.script tables
    ForestM.lock store.forestPoisoned
    let accounts ← tables.accounts.applyTransactionDelta refusals update.executedTransaction
    ForestM.writeAll refusals (transactionWrites update) { tables with accounts := accounts }

/-- The table part of `undo_account_state`, which does nothing without discarded states. -/
def undoWrites (discardedStates : List (AccountId × Word)) :
    List (Statement × (Database → Database)) :=
  if discardedStates.isEmpty then []
  else [(.undoStates, fun db => db.undoStates discardedStates)]

/-- The part of `apply_state_sync` that holds the lock of the forest. -/
def applyAccountUpdates (refusals : Refusals) (update : SyncStoreUpdate) (db : Database) :
    ForestM Database := do
  let db ← ForestM.writeAll refusals (undoWrites update.discardedStates) db
  ForestM.update fun forest => .ok (forest.discardStates update.discardedStates, ())
  ForestM.update fun forest =>
    .ok (update.committedAccounts.foldl AccountSmtForest.commitRoots forest, ())
  update.updatedPublicAccounts.foldlM (Database.replaceAccountState refusals) db

/-- `apply_state_sync`. -/
def applyStateSync (refusals : Refusals) (update : SyncStoreUpdate) : StoreM Database Unit := do
  let store ← get
  StoreM.inTransaction refusals fun tables => do
    let tables ← ForestM.writeAll refusals (syncWrites update) tables
    ForestM.lock store.forestPoisoned
    let accounts ← applyAccountUpdates refusals update tables.accounts
    ForestM.writeAll refusals (lockWrites update.mismatchedPrivateAccounts)
      { tables with accounts := accounts }

/-- `update_account`. -/
def updateAccount (refusals : Refusals) (account : Account) : StoreM Database Unit := do
  StoreM.read refusals .readHeader
  let store ← get
  if store.tables.accounts.latestAccountHeaders[account.id]? = none then
    throw (.accountDataNotFound account.id)
  else
    StoreM.lockForest
    StoreM.inTransaction refusals fun tables => do
      let accounts ← tables.accounts.replaceAccountState refusals account
      return { tables with accounts := accounts }

/-- One of the updates. -/
def perform (refusals : Refusals) : UpdateCall → StoreM Database Unit
  | .applyTransaction update => applyTransaction refusals update
  | .applyStateSync update => applyStateSync refusals update
  | .updateAccount account => updateAccount refusals account

/-! ### What failed updates leave behind -/

/-- The statements of a sync update before the forest is touched. -/
def syncStatements (update : SyncStoreUpdate) : List Statement :=
  .begin :: (syncWrites update).map Prod.fst ++ (undoWrites update.discardedStates).map Prod.fst

/-- The account tables at the point where the forest is touched. -/
def undoneAccounts (update : SyncStoreUpdate) (db : Database) : Database :=
  (undoWrites update.discardedStates).foldl (fun db write => write.2 db) db

/-- A transaction update gets so far that it stages roots. -/
def StagesRoots (refusals : Refusals) (store : Store Database) (update : TransactionStoreUpdate) :
    Prop :=
  ForestM.Accepts refusals
      [.readAssets, .readMapRoots, .begin, .transactionRecord update.record.id] ∧
    store.forestPoisoned = false ∧
    ∃ db last, store.tables.accounts.applyTransactionDelta refusals update.executedTransaction
      store.forest = .ok db last

instance (refusals : Refusals) (store : Store Database) (update : TransactionStoreUpdate) :
    Decidable (StagesRoots refusals store update) :=
  @instDecidableAnd _ _ _ (@instDecidableAnd _ _ _
    (match store.tables.accounts.applyTransactionDelta refusals update.executedTransaction
        store.forest with
    | .ok db last => isTrue ⟨db, last, rfl⟩
    | .error _ _ => isFalse (by rintro ⟨_, _, succeeds⟩; cases succeeds)))

/-- The accounts whose roots a sync update is to replace, when it gets that far. -/
def syncReplaced (refusals : Refusals) (store : Store Database) (update : SyncStoreUpdate) :
    List Account :=
  Database.replacedAccounts refusals update.updatedPublicAccounts
    (undoneAccounts update store.tables.accounts)

/-- A failed call leaves no trace: it fails before the forest is touched, or it does nothing to the
forest and does not panic. -/
def FailsClean (refusals : Refusals) (store : Store Database) : UpdateCall → Prop
  | .applyTransaction update => ¬StagesRoots refusals store update
  | .applyStateSync update =>
    ¬ForestM.Accepts refusals (syncStatements update) ∨ store.forestPoisoned = true ∨
      (store.forest.settle update.discardedStates update.committedAccounts).Settled
          (syncReplaced refusals store update) ∧
        store.forest.KeepsRoots update.discardedStates update.committedAccounts
          (syncReplaced refusals store update)
  | .updateAccount account =>
    ¬ForestM.Accepts refusals [.readHeader, .begin] ∨
      store.tables.accounts.latestAccountHeaders[account.id]? = none ∨
      store.forestPoisoned = true ∨
      store.forest.pendingOldRoots[account.id]? = none ∧
        store.forest.getRoots account.id = some (AccountSmtForest.collectAccountRoots account)

variable {refusals : Refusals} {store after : Store Database} {reason : StoreError}

/-- The part of a transaction update that is rolled back. -/
def transactionBody (refusals : Refusals) (update : TransactionStoreUpdate) (poisoned : Bool)
    (tables : StoreTables Database) : ForestM (StoreTables Database) := do
  ForestM.statement refusals (.transactionRecord update.record.id)
  let tables := upsertTransactionRecord update.record update.script tables
  ForestM.lock poisoned
  let accounts ← tables.accounts.applyTransactionDelta refusals update.executedTransaction
  ForestM.writeAll refusals (transactionWrites update) { tables with accounts := accounts }

/-- What a transaction update leaves behind: staged roots, or the store as it was. -/
theorem applyTransaction_cases (refusals : Refusals) (update : TransactionStoreUpdate)
    (store : Store Database) :
    (StagesRoots refusals store update ∧ ∃ grown roots,
        (Fallible.finalState (applyTransaction refusals update store)).forest =
          AccountSmtForest.stageRoots grown update.executedTransaction.finalAccount.id roots ∧
        grown.SameRegistration store.forest) ∨
      (¬StagesRoots refusals store update ∧ ∃ reason after,
        applyTransaction refusals update store = .error reason after ∧ store.Unchanged after) := by
  unfold StagesRoots ForestM.Accepts
  simp only [List.forall_mem_cons, List.not_mem_nil, false_implies, implies_true, and_true]
  unfold applyTransaction
  rcases assets : refusals .readAssets with _ | refused
  swap
  · refine Or.inr ⟨fun stages => (by cases stages.1.1), refused.val, store, ?_, .refl store⟩
    exact Fallible.bind_eq_result_error.mpr (Or.inl (StoreM.read_of_refused assets store))
  rw [Fallible.bind_of_result_ok (StoreM.read_of_accepted assets store)]
  rcases roots : refusals .readMapRoots with _ | refused
  swap
  · refine Or.inr ⟨fun stages => (by cases stages.1.2.1), refused.val, store, ?_, .refl store⟩
    exact Fallible.bind_eq_result_error.mpr (Or.inl (StoreM.read_of_refused roots store))
  rw [Fallible.bind_of_result_ok (StoreM.read_of_accepted roots store), Fallible.get_bind]
  change (_ ∧ ∃ grown roots, (Fallible.finalState (StoreM.inTransaction refusals
    (transactionBody refusals update store.forestPoisoned) store)).forest = _ ∧ _) ∨
    (_ ∧ ∃ reason after, StoreM.inTransaction refusals
      (transactionBody refusals update store.forestPoisoned) store = .error reason after ∧ _)
  rcases begun : refusals .begin with _ | refused
  swap
  · exact Or.inr ⟨fun stages => (by cases stages.1.2.2.1), refused.val, store,
      StoreM.inTransaction_of_refused begun _ store, .refl store⟩
  rw [StoreM.inTransaction_forest begun]
  rcases recorded : refusals (.transactionRecord update.record.id) with _ | refused
  swap
  · have stopped : transactionBody refusals update store.forestPoisoned store.tables store.forest =
        .error refused.val store.forest :=
      Fallible.bind_eq_result_error.mpr (Or.inl (ForestM.statement_of_refused recorded _))
    exact Or.inr ⟨fun stages => (by cases stages.1.2.2.2), _, _,
      StoreM.inTransaction_of_error begun stopped,
      StoreM.unchanged_failed (.refl _) (Or.inl refused.property)⟩
  have past : ∀ poisoned, transactionBody refusals update poisoned store.tables store.forest = (do
      ForestM.lock poisoned
      let accounts ← store.tables.accounts.applyTransactionDelta refusals
        update.executedTransaction
      ForestM.writeAll refusals (transactionWrites update) { upsertTransactionRecord update.record
        update.script store.tables with accounts := accounts }) store.forest := fun poisoned =>
    Fallible.bind_of_result_ok (ForestM.statement_of_accepted recorded store.forest) _
  rcases free : store.forestPoisoned with _ | _
  swap
  · have stopped : transactionBody refusals update true store.tables store.forest =
        .error .lockPoisoned store.forest := by
      rw [past]
      exact Fallible.bind_eq_result_error.mpr (Or.inl (ForestM.lock_of_poisoned _))
    exact Or.inr ⟨fun stages => (by cases stages.2.1), _, _,
      StoreM.inTransaction_of_error begun stopped, StoreM.unchanged_failed (.refl _) (Or.inr free)⟩
  rcases Database.applyTransactionDelta_ends refusals store.tables.accounts
    update.executedTransaction store.forest store.forest (.refl store.forest) with
    ⟨stopped, last, outcome, same⟩ | ⟨result, _, outcome, grown, newRoots, rfl, same⟩
  · have stops : transactionBody refusals update false store.tables store.forest =
        .error stopped last := by
      rw [past, Fallible.bind_of_result_ok (ForestM.lock_of_free store.forest)]
      exact Fallible.bind_eq_result_error.mpr (Or.inl outcome)
    refine Or.inr ⟨?_, _, _, StoreM.inTransaction_of_error begun stops,
      StoreM.unchanged_failed same
        (Or.inl (Database.applyTransactionDelta_throws _ _ _ _ _ _ outcome))⟩
    rintro ⟨-, -, db, other, succeeds⟩
    rw [outcome] at succeeds
    cases succeeds
  · refine Or.inl ⟨⟨⟨rfl, rfl, rfl, rfl⟩, rfl, result, _, outcome⟩, grown, newRoots, ?_, same⟩
    rw [past, Fallible.bind_of_result_ok (ForestM.lock_of_free store.forest),
      Fallible.bind_of_result_ok outcome, ForestM.writeAll_finalState]

theorem applyTransaction_unchanged_iff {update : TransactionStoreUpdate}
    (failed : applyTransaction refusals update store = .error reason after) :
    store.Unchanged after ↔ FailsClean refusals store (.applyTransaction update) := by
  rcases applyTransaction_cases refusals update store with
    ⟨stages, grown, roots, forest, same⟩ | ⟨clean, stopped, last, fails, unchanged⟩
  · refine iff_of_false (fun unchanged => ?_) fun clean => clean stages
    rw [failed] at forest
    refine AccountSmtForest.not_sameRegistration_stageRoots same
      update.executedTransaction.finalAccount.id roots ?_
    rw [← forest]
    exact unchanged.registration
  · rw [failed] at fails
    cases fails
    exact iff_of_true unchanged clean

omit [ProtocolLibrary] in
theorem transactionWrites_accounts (update : TransactionStoreUpdate)
    (tables : StoreTables Database) :
    ((transactionWrites update).foldl (fun tables write => write.2 tables) tables).accounts =
      tables.accounts := by
  refine foldl_write_view StoreTables.accounts (fun write member tables => ?_) tables
  simp only [transactionWrites, List.mem_cons, List.mem_map] at member
  rcases member with rfl | ⟨record, -, rfl⟩
  · rfl
  · rfl

omit [ProtocolLibrary] in
/-- The first writes of a sync leave the account tables alone. -/
theorem syncWrites_accounts (update : SyncStoreUpdate) (tables : StoreTables Database) :
    ((syncWrites update).foldl (fun tables write => write.2 tables) tables).accounts =
      tables.accounts := by
  refine foldl_write_view StoreTables.accounts (fun write member tables => ?_) tables
  simp only [syncWrites, List.mem_cons, List.mem_append, List.mem_map] at member
  rcases member with ((rfl | ⟨block, -, rfl⟩) | rfl | rfl | ⟨tag, -, rfl⟩) | ⟨record, -, rfl⟩ <;>
    rfl

/-- The part of a sync update that is rolled back. -/
def syncBody (refusals : Refusals) (update : SyncStoreUpdate) (poisoned : Bool)
    (tables : StoreTables Database) : ForestM (StoreTables Database) := do
  let tables ← ForestM.writeAll refusals (syncWrites update) tables
  ForestM.lock poisoned
  let accounts ← applyAccountUpdates refusals update tables.accounts
  ForestM.writeAll refusals (lockWrites update.mismatchedPrivateAccounts)
    { tables with accounts := accounts }

/-- A sync update gets so far that it changes the forest. -/
def SettlesRoots (refusals : Refusals) (store : Store Database) (update : SyncStoreUpdate) : Prop :=
  ForestM.Accepts refusals (syncStatements update) ∧ store.forestPoisoned = false

instance (refusals : Refusals) (store : Store Database) (update : SyncStoreUpdate) :
    Decidable (SettlesRoots refusals store update) :=
  inferInstanceAs (Decidable (_ ∧ _))

/-- The body of a sync stops before the forest is touched, or settles it and replaces all roots, or
settles it and panics. -/
theorem syncBody_cases (refusals : Refusals) (update : SyncStoreUpdate) (poisoned : Bool)
    (tables : StoreTables Database) (forest : AccountSmtForest) :
    let accepted := ForestM.Accepts refusals ((syncWrites update).map Prod.fst) ∧
      ForestM.Accepts refusals ((undoWrites update.discardedStates).map Prod.fst)
    let settled := forest.settle update.discardedStates update.committedAccounts
    let replaced := Database.replacedAccounts refusals update.updatedPublicAccounts
      (undoneAccounts update tables.accounts)
    let outcome := syncBody refusals update poisoned tables forest
    (¬(accepted ∧ poisoned = false) ∧ ∃ reason, outcome = .error reason forest ∧
        (reason.IsOrdinary ∨ reason = .lockPoisoned ∧ poisoned = true)) ∨
      ((accepted ∧ poisoned = false) ∧
        (Fallible.finalState outcome).pendingOldRoots = settled.pendingOldRoots ∧
        (settled.Settled replaced ∧
            settled.registerAll replaced = .ok (Fallible.finalState outcome) ∧
            (∀ reason last, outcome = .error reason last → reason.IsOrdinary) ∨
          ¬settled.Settled replaced ∧
            ∃ id last, outcome = .error (.stagedChangesPending id) last)) := by
  dsimp only
  unfold syncBody
  rcases ForestM.writeAll_cases refusals (syncWrites update) tables forest with
    ⟨accepted, written⟩ | ⟨refuses, stopped, ordinary, fails⟩
  swap
  · rw [Fallible.bind_eq_result_error.mpr (Or.inl fails)]
    exact Or.inl ⟨fun both => refuses both.1.1, stopped, rfl, Or.inl ordinary⟩
  rw [Fallible.bind_of_result_ok written]
  rcases poisoned with _ | _
  swap
  · rw [Fallible.bind_eq_result_error.mpr (Or.inl (ForestM.lock_of_poisoned forest))]
    exact Or.inl ⟨fun both => (by cases both.2), _, rfl, Or.inr ⟨rfl, rfl⟩⟩
  rw [Fallible.bind_of_result_ok (ForestM.lock_of_free forest), syncWrites_accounts]
  unfold applyAccountUpdates
  rcases ForestM.writeAll_cases refusals (undoWrites update.discardedStates) tables.accounts forest
    with ⟨undone, undoes⟩ | ⟨refuses, stopped, ordinary, fails⟩
  swap
  · refine Or.inl ⟨fun both => refuses both.1.2, stopped, ?_, Or.inl ordinary⟩
    refine Fallible.bind_eq_result_error.mpr (Or.inl ?_)
    exact Fallible.bind_eq_result_error.mpr (Or.inl fails)
  right
  have settles : ∀ rest : Database → ForestM (StoreTables Database), ((do
      let db ← ForestM.writeAll refusals (undoWrites update.discardedStates) tables.accounts
      ForestM.update fun forest => .ok (forest.discardStates update.discardedStates, ())
      ForestM.update fun forest =>
        .ok (update.committedAccounts.foldl AccountSmtForest.commitRoots forest, ())
      update.updatedPublicAccounts.foldlM (Database.replaceAccountState refusals) db) >>= rest)
        forest = (update.updatedPublicAccounts.foldlM (Database.replaceAccountState refusals)
          (undoneAccounts update tables.accounts) >>= rest)
            (forest.settle update.discardedStates update.committedAccounts) := by
    intro rest
    rw [bind_assoc, Fallible.bind_of_result_ok undoes]
    rfl
  rw [settles]
  have finished : ∀ (db : Database) (next : AccountSmtForest), Fallible.finalState
      (ForestM.writeAll refusals (lockWrites update.mismatchedPrivateAccounts)
        { (syncWrites update).foldl (fun tables write => write.2 tables) tables with
          accounts := db } next) = next :=
    fun _ _ => ForestM.writeAll_finalState _ _ _ _
  obtain ⟨unstaged, ⟨settled, registered, ordinary⟩ | ⟨pending, id, last, panics⟩⟩ :=
    Database.foldlM_replaceAccountState_cases refusals update.updatedPublicAccounts
      (undoneAccounts update tables.accounts)
      (forest.settle update.discardedStates update.committedAccounts)
  · refine ⟨⟨⟨accepted, undone⟩, rfl⟩, ?_, Or.inl ⟨settled, ?_, fun reason last stopped => ?_⟩⟩
    · rw [Fallible.finalState_bind finished, unstaged]
    · rw [registered, Fallible.finalState_bind finished]
    · rcases Fallible.bind_eq_result_error.mp stopped with fails | ⟨db, next, -, fails⟩
      · exact ordinary reason last fails
      · rcases ForestM.writeAll_cases refusals (lockWrites update.mismatchedPrivateAccounts) _ next
          with ⟨-, done⟩ | ⟨-, other, given, done⟩
        · rw [done] at fails
          cases fails
        · rw [done] at fails
          cases fails
          exact given
  · refine ⟨⟨⟨accepted, undone⟩, rfl⟩, ?_, Or.inr ⟨pending, id, last,
      Fallible.bind_eq_result_error.mpr (Or.inl panics)⟩⟩
    rw [Fallible.finalState_bind finished, unstaged]

/-- What a sync update leaves behind: the store as it was, the settled forest with the replaced
roots, or a poisoned lock. -/
theorem applyStateSync_cases (refusals : Refusals) (update : SyncStoreUpdate)
    (store : Store Database) :
    let settled := store.forest.settle update.discardedStates update.committedAccounts
    let outcome := applyStateSync refusals update store
    (¬SettlesRoots refusals store update ∧ ∃ reason,
        (reason.IsOrdinary ∨ reason = .lockPoisoned) ∧ outcome = .error reason store) ∨
      (SettlesRoots refusals store update ∧
        (Fallible.finalState outcome).forest.pendingOldRoots = settled.pendingOldRoots ∧
        (settled.Settled (syncReplaced refusals store update) ∧
            settled.registerAll (syncReplaced refusals store update) =
              .ok (Fallible.finalState outcome).forest ∧
            (Fallible.finalState outcome).forestPoisoned = store.forestPoisoned ∧
            (∀ reason after, outcome = .error reason after →
              reason.IsOrdinary ∧ after.tables = store.tables) ∨
          ¬settled.Settled (syncReplaced refusals store update) ∧
            ∃ id last, outcome = .error (.stagedChangesPending id) last ∧
              last.forestPoisoned = true)) := by
  have opened : applyStateSync refusals update store =
      StoreM.inTransaction refusals (syncBody refusals update store.forestPoisoned) store :=
    Fallible.get_bind _ _
  have split : ForestM.Accepts refusals (syncStatements update) ↔
      refusals .begin = none ∧ ForestM.Accepts refusals ((syncWrites update).map Prod.fst) ∧
        ForestM.Accepts refusals ((undoWrites update.discardedStates).map Prod.fst) := by
    unfold syncStatements ForestM.Accepts
    rw [List.cons_append, List.forall_mem_cons, List.forall_mem_append]
  dsimp only
  unfold SettlesRoots
  rw [opened, split]
  rcases begun : refusals .begin with _ | refused
  swap
  · exact Or.inl ⟨fun both => (by cases both.1.1), refused.val, Or.inl refused.property,
      StoreM.inTransaction_of_refused begun _ store⟩
  have forest := StoreM.inTransaction_forest begun (syncBody refusals update store.forestPoisoned)
    store
  rw [forest]
  rcases syncBody_cases refusals update store.forestPoisoned store.tables store.forest with
    ⟨refuses, reason, stopped, lock⟩ | ⟨reaches, unstaged, outcome⟩
  · refine Or.inl ⟨fun both => refuses ⟨both.1.2, both.2⟩, reason,
      lock.imp_right And.left, ?_⟩
    rw [StoreM.inTransaction_of_error begun stopped,
      StoreM.failed_of_lock (lock.imp_right And.right)]
  refine Or.inr ⟨⟨⟨rfl, reaches.1⟩, reaches.2⟩, unstaged, ?_⟩
  rcases outcome with ⟨settled, registered, ordinary⟩ | ⟨pending, id, last, stopped⟩
  · exact Or.inl ⟨settled, registered, StoreM.inTransaction_lock begun ordinary,
      fun reason after stopped => ⟨StoreM.inTransaction_throws ordinary stopped,
        StoreM.tables_of_inTransaction_eq_error stopped⟩⟩
  · exact Or.inr ⟨pending, id, _, StoreM.inTransaction_of_error begun stopped, Bool.or_true _⟩

theorem applyStateSync_unchanged_iff {update : SyncStoreUpdate}
    (well : store.forest.WellCounted)
    (failed : applyStateSync refusals update store = .error reason after) :
    store.Unchanged after ↔ FailsClean refusals store (.applyStateSync update) := by
  have early : FailsClean refusals store (.applyStateSync update) ↔
      ¬SettlesRoots refusals store update ∨
        (store.forest.settle update.discardedStates update.committedAccounts).Settled
            (syncReplaced refusals store update) ∧
          store.forest.KeepsRoots update.discardedStates update.committedAccounts
            (syncReplaced refusals store update) := by
    unfold FailsClean SettlesRoots
    rw [not_and_or, Bool.not_eq_false, or_assoc]
  rw [early]
  have cases_ := applyStateSync_cases refusals update store
  dsimp only at cases_
  rw [failed] at cases_
  rcases cases_ with ⟨refuses, other, -, same⟩ | ⟨reaches, -, outcome⟩
  · cases same
    exact iff_of_true (.refl store) (Or.inl refuses)
  rcases outcome with ⟨settled, registered, lock, errors⟩ | ⟨pending, id, last, panics, poisoned⟩
  · have kept := AccountSmtForest.sameRegistration_settled_iff well registered
    constructor
    · exact fun unchanged => Or.inr ⟨settled, kept.mp unchanged.registration⟩
    · rintro (refuses | ⟨-, keeps⟩)
      · exact absurd reaches refuses
      · exact ⟨(errors reason after rfl).2, kept.mpr keeps, lock⟩
  · cases panics
    refine iff_of_false (fun unchanged => ?_) ?_
    · rw [unchanged.lock, reaches.2] at poisoned
      cases poisoned
    · rintro (refuses | ⟨settled, -⟩)
      · exact refuses reaches
      · exact pending settled

/-- The part of an account update that is rolled back. -/
def accountBody (refusals : Refusals) (account : Account) (tables : StoreTables Database) :
    ForestM (StoreTables Database) := do
  let accounts ← tables.accounts.replaceAccountState refusals account
  return { tables with accounts := accounts }

omit [NoteLibrary] in
theorem accountBody_cases (refusals : Refusals) (account : Account)
    (tables : StoreTables Database) (forest : AccountSmtForest) :
    (forest.pendingOldRoots[account.id]? = none ∧
        forest.insertAndRegisterAccountState account =
          .ok (Fallible.finalState (accountBody refusals account tables forest)) ∧
        ∀ reason last, accountBody refusals account tables forest = .error reason last →
          reason.IsOrdinary) ∨
      (forest.pendingOldRoots[account.id]? ≠ none ∧
        accountBody refusals account tables forest =
          .error (.stagedChangesPending account.id) forest) := by
  unfold accountBody Database.replaceAccountState
  rw [bind_assoc]
  rcases forest.update_register_cases account with
    ⟨absent, next, registered, -, ran⟩ | ⟨pending, panics⟩
  · rw [Fallible.bind_of_result_ok ran, registered]
    refine Or.inl ⟨absent, ?_, fun reason last stopped => ?_⟩
    · rcases tables.accounts.replaceAccountTables refusals account with reason | db
      · rfl
      · rfl
    · rcases Fallible.bind_eq_result_error.mp stopped with fails | ⟨db, other, -, fails⟩
      · exact ForestM.liftExcept_throws
          (Database.replaceAccountTables_failsWith refusals tables.accounts account) _ _ _ fails
      · cases fails
  · exact Or.inr ⟨pending, Fallible.bind_eq_result_error.mpr (Or.inl panics)⟩

/-- An account update gets so far that it replaces roots. -/
def ReplacesRoots (refusals : Refusals) (store : Store Database) (account : Account) : Prop :=
  ForestM.Accepts refusals [.readHeader, .begin] ∧
    store.tables.accounts.latestAccountHeaders[account.id]? ≠ none ∧ store.forestPoisoned = false

omit [NoteLibrary] in
/-- What an account update leaves behind: the store as it was, the replaced roots, or a poisoned
lock. -/
theorem updateAccount_cases (refusals : Refusals) (account : Account) (store : Store Database) :
    let outcome := updateAccount refusals account store
    (¬ReplacesRoots refusals store account ∧ ∃ reason,
        (reason.IsOrdinary ∨ reason = .lockPoisoned) ∧ outcome = .error reason store) ∨
      (ReplacesRoots refusals store account ∧
        (store.forest.pendingOldRoots[account.id]? = none ∧
            store.forest.insertAndRegisterAccountState account =
              .ok (Fallible.finalState outcome).forest ∧
            (Fallible.finalState outcome).forestPoisoned = store.forestPoisoned ∧
            (∀ reason after, outcome = .error reason after →
              reason.IsOrdinary ∧ after.tables = store.tables) ∨
          store.forest.pendingOldRoots[account.id]? ≠ none ∧
            outcome = .error (.stagedChangesPending account.id)
              { store with forestPoisoned := true })) := by
  dsimp only
  unfold ReplacesRoots ForestM.Accepts updateAccount
  simp only [List.forall_mem_cons, List.not_mem_nil, false_implies, implies_true, and_true]
  rcases header : refusals .readHeader with _ | refused
  swap
  · exact Or.inl ⟨fun reaches => (by cases reaches.1.1), refused.val, Or.inl refused.property,
      Fallible.bind_eq_result_error.mpr (Or.inl (StoreM.read_of_refused header store))⟩
  rw [Fallible.bind_of_result_ok (StoreM.read_of_accepted header store), Fallible.get_bind]
  by_cases missing : store.tables.accounts.latestAccountHeaders[account.id]? = none
  · rw [if_pos missing]
    exact Or.inl ⟨fun reaches => reaches.2.1 missing, .accountDataNotFound account.id, Or.inl rfl,
      rfl⟩
  rw [if_neg missing]
  rcases poisoned : store.forestPoisoned with _ | _
  swap
  · exact Or.inl ⟨fun reaches => (by cases reaches.2.2), _, Or.inr rfl,
      Fallible.bind_eq_result_error.mpr (Or.inl (StoreM.lockForest_of_poisoned poisoned))⟩
  rw [Fallible.bind_of_result_ok (StoreM.lockForest_of_free poisoned)]
  rcases begun : refusals .begin with _ | refused
  swap
  · exact Or.inl ⟨fun reaches => (by cases reaches.1.2), refused.val, Or.inl refused.property,
      StoreM.inTransaction_of_refused begun _ store⟩
  refine Or.inr ⟨⟨⟨rfl, rfl⟩, missing, rfl⟩, ?_⟩
  have forest := StoreM.inTransaction_forest begun (accountBody refusals account) store
  rcases accountBody_cases refusals account store.tables store.forest with
    ⟨absent, registered, ordinary⟩ | ⟨pending, panics⟩
  · refine Or.inl ⟨absent, registered.trans (congrArg Except.ok forest.symm), ?_, ?_⟩
    · exact (StoreM.inTransaction_lock begun ordinary).trans poisoned
    · exact fun reason after stopped => ⟨StoreM.inTransaction_throws ordinary stopped,
        StoreM.tables_of_inTransaction_eq_error stopped⟩
  · refine Or.inr ⟨pending, (StoreM.inTransaction_of_error begun panics).trans ?_⟩
    exact congrArg (EStateM.Result.error _) (congrArg (Store.mk _ _) (Bool.or_true _))

theorem updateAccount_unchanged_iff {account : Account} (well : store.forest.WellCounted)
    (failed : updateAccount refusals account store = .error reason after) :
    store.Unchanged after ↔ FailsClean refusals store (.updateAccount account) := by
  have cases_ := updateAccount_cases refusals account store
  dsimp only at cases_
  rw [failed] at cases_
  unfold FailsClean
  rcases cases_ with ⟨refuses, other, -, same⟩ | ⟨reaches, outcome⟩
  · cases same
    refine iff_of_true (.refl store) ?_
    unfold ReplacesRoots at refuses
    rw [not_and_or, not_and_or, not_not, Bool.not_eq_false] at refuses
    rcases refuses with refuses | missing | poisoned
    · exact Or.inl refuses
    · exact Or.inr (Or.inl missing)
    · exact Or.inr (Or.inr (Or.inl poisoned))
  rcases outcome with ⟨absent, registered, lock, errors⟩ | ⟨pending, panics⟩
  · have kept := AccountSmtForest.insertAndRegister_sameRegistration_iff well registered
    constructor
    · exact fun unchanged => Or.inr (Or.inr (Or.inr ⟨absent, kept.mp unchanged.registration⟩))
    · rintro (refuses | missing | poisoned | ⟨-, same⟩)
      · exact absurd reaches.1 refuses
      · exact absurd missing reaches.2.1
      · rw [reaches.2.2] at poisoned
        cases poisoned
      · exact ⟨(errors reason after rfl).2, kept.mpr same, lock⟩
  · cases panics
    refine iff_of_false (fun unchanged => ?_) ?_
    · cases unchanged.lock.trans reaches.2.2
    · rintro (refuses | missing | poisoned | ⟨absent, -⟩)
      · exact refuses reaches.1
      · exact reaches.2.1 missing
      · rw [reaches.2.2] at poisoned
        cases poisoned
      · exact pending absent

/-- A failed update of the SQLite store leaves it as it was exactly when it fails before the forest
is touched, or does nothing to the forest. -/
theorem unchanged_iff_failsClean (well : store.forest.WellCounted) (call : UpdateCall)
    (failed : perform refusals call store = .error reason after) :
    store.Unchanged after ↔ FailsClean refusals store call := by
  cases call with
  | applyTransaction update => exact applyTransaction_unchanged_iff failed
  | applyStateSync update => exact applyStateSync_unchanged_iff well failed
  | updateAccount account => exact updateAccount_unchanged_iff well failed

/-- Every update, failed or not, keeps the counts of the forest right. -/
theorem perform_wellCounted (refusals : Refusals) (call : UpdateCall) :
    Fallible.Preserves (fun store : Store Database => store.forest.WellCounted)
      (perform refusals call) := by
  have replaced : ∀ (db : Database) (account : Account),
      Fallible.Preserves AccountSmtForest.WellCounted
        (db.replaceAccountState refusals account) := by
    intro db account
    refine (AccountSmtForest.update_register_wellCounted account).bind fun _ => ?_
    exact ForestM.liftExcept_preserves _ _
  cases call with
  | applyTransaction update =>
    show Fallible.Preserves _ (applyTransaction refusals update)
    refine (StoreM.read_preserves refusals _).bind fun _ => ?_
    refine (StoreM.read_preserves refusals _).bind fun _ => ?_
    refine Fallible.Preserves.bind (fun _ well => well) fun store => ?_
    refine StoreM.inTransaction_preserves fun tables => ?_
    refine (ForestM.liftExcept_preserves _ _).bind fun _ => ?_
    refine (ForestM.lock_preserves _).bind fun _ => ?_
    refine Fallible.Preserves.bind (fun forest well => ?_) fun _ => ForestM.writeAll_preserves _ _ _
    rcases Database.applyTransactionDelta_ends refusals tables.accounts
      update.executedTransaction forest forest (.refl forest) with
      ⟨reason, last, outcome, same⟩ | ⟨result, _, outcome, grown, roots, rfl, same⟩
    · show (Fallible.finalState (tables.accounts.applyTransactionDelta _ _ _)).WellCounted
      rw [outcome]
      exact well.congr same
    · show (Fallible.finalState (tables.accounts.applyTransactionDelta _ _ _)).WellCounted
      rw [outcome]
      exact (well.congr same).stageRoots _ roots
  | applyStateSync update =>
    show Fallible.Preserves _ (applyStateSync refusals update)
    unfold applyStateSync
    refine Fallible.Preserves.bind (fun _ well => well) fun store => ?_
    refine StoreM.inTransaction_preserves fun tables => ?_
    refine (ForestM.writeAll_preserves _ _ _).bind fun tables => ?_
    refine (ForestM.lock_preserves _).bind fun _ => ?_
    refine Fallible.Preserves.bind ?_ fun _ => ForestM.writeAll_preserves _ _ _
    refine (ForestM.writeAll_preserves _ _ _).bind fun db => ?_
    refine (ForestM.update_preserves _ ?_).bind fun _ => ?_
    · rintro forest _ _ ⟨⟩ well
      exact well.discardStates update.discardedStates
    refine (ForestM.update_preserves _ ?_).bind fun _ => ?_
    · rintro forest _ _ ⟨⟩ well
      exact well.commitAccounts update.committedAccounts
    exact Fallible.Preserves.foldlM replaced _ _
  | updateAccount account =>
    refine (StoreM.read_preserves refusals _).bind fun _ => ?_
    refine Fallible.Preserves.bind (fun _ well => well) fun store => ?_
    split
    · exact fun _ well => well
    · refine StoreM.lockForest_preserves.bind fun _ => ?_
      refine StoreM.inTransaction_preserves fun tables => ?_
      exact (replaced _ _).bind fun _ => Fallible.Preserves.pure _ _

end SqliteStore

end Library

end MidenClient
