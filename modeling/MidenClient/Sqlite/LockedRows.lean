/-
This file follows the lock of an account through the operations of the SQLite store
(`sqlite-store/src/account/accounts.rs`, `sqlite-store/src/sync.rs`).

An unexpected commitment marks the latest row of the account and all of its historical rows, so a
state that is restored later is marked as well. The mark is lost with the account: undoing a state
without a row that it replaced deletes every row of the account.
-/

import MidenClient.Sqlite.Locking
import MidenClient.Store.AccountCalls

namespace MidenClient

open Std (ExtTreeMap)

section Library

variable [ProtocolLibrary]

namespace Database

/-! ### Marked rows -/

/-- The account is locked, and so are all states it can fall back to. -/
structure Marked (db : Database) (accountId : AccountId) : Prop where
  latest : db.IsLocked accountId
  historical : ∀ row ∈ db.historyOf accountId, row.locked = true

variable {db next : Database} {accountId : AccountId} {mismatched : AccountId × Word}

omit [ProtocolLibrary] in
theorem Marked.congr (marked : db.Marked accountId) (same : next.SameHeaders db accountId) :
    next.Marked accountId := by
  obtain ⟨row, found, locked⟩ := marked.latest
  refine ⟨⟨row, same.1.trans found, locked⟩, ?_⟩
  rw [same.2]
  exact marked.historical

theorem mem_historyOf_lock (unexpected : db.Unexpected mismatched) {row : HistoricalHeaderRow} :
    row ∈ (db.lockAccountOnUnexpectedCommitment mismatched).historyOf accountId ↔
      ∃ old ∈ db.historyOf accountId,
        row = if accountId = mismatched.1 then { old with locked := true } else old := by
  rw [lock_of_unexpected unexpected, historyOf, historyOf, List.mem_filter, List.mem_map]
  constructor
  · rintro ⟨⟨old, member, rfl⟩, ofAccount⟩
    have id : old.header.id = accountId := by
      have kept := of_decide_eq_true ofAccount
      split at kept
      · exact kept
      · exact kept
    exact ⟨old, List.mem_filter.mpr ⟨member, decide_eq_true id⟩, by rw [id]⟩
  · rintro ⟨old, member, rfl⟩
    obtain ⟨listed, ofAccount⟩ := List.mem_filter.mp member
    have id := of_decide_eq_true ofAccount
    refine ⟨⟨old, listed, by rw [id]⟩, decide_eq_true ?_⟩
    split
    · exact id
    · exact id

/-- Locking keeps the marks of historical rows. -/
theorem lock_historical (mismatched : AccountId × Word)
    (historical : ∀ row ∈ db.historyOf accountId, row.locked = true) :
    ∀ row ∈ (db.lockAccountOnUnexpectedCommitment mismatched).historyOf accountId,
      row.locked = true := by
  by_cases unexpected : db.Unexpected mismatched
  · intro row member
    obtain ⟨old, listed, rfl⟩ := (mem_historyOf_lock unexpected).mp member
    split
    · rfl
    · exact historical old listed
  · rw [lock_of_expected unexpected]
    exact historical

theorem foldl_lock_historical (mismatched : List (AccountId × Word)) {db : Database}
    (historical : ∀ row ∈ db.historyOf accountId, row.locked = true) :
    ∀ row ∈ (mismatched.foldl lockAccountOnUnexpectedCommitment db).historyOf accountId,
      row.locked = true := by
  induction mismatched generalizing db with
  | nil => exact historical
  | cons report rest inductionHypothesis =>
    exact inductionHypothesis (lock_historical report historical)

/-- An unexpected report marks all historical rows of its account. -/
theorem foldl_lock_marks {mismatched : List (AccountId × Word)} {digest : Word} {db : Database}
    (reported : (accountId, digest) ∈ mismatched) (unexpected : db.Unexpected (accountId, digest)) :
    ∀ row ∈ (mismatched.foldl lockAccountOnUnexpectedCommitment db).historyOf accountId,
      row.locked = true := by
  induction mismatched generalizing db with
  | nil => cases reported
  | cons report rest inductionHypothesis =>
    rw [List.foldl_cons]
    rcases List.mem_cons.mp reported with rfl | later
    · refine foldl_lock_historical rest fun row member => ?_
      obtain ⟨old, -, rfl⟩ := (mem_historyOf_lock unexpected).mp member
      rw [if_pos rfl]
    · exact inductionHypothesis later
        ((lock_unexpected db report (accountId, digest)).mpr unexpected)

theorem foldl_lock_unexpected (mismatched : List (AccountId × Word)) (db : Database)
    (report : AccountId × Word) :
    (mismatched.foldl lockAccountOnUnexpectedCommitment db).Unexpected report ↔
      db.Unexpected report := by
  induction mismatched generalizing db with
  | nil => exact Iff.rfl
  | cons first rest inductionHypothesis =>
    rw [List.foldl_cons, inductionHypothesis, lock_unexpected]

theorem foldl_lock_marked (mismatched : List (AccountId × Word)) (marked : db.Marked accountId) :
    (mismatched.foldl lockAccountOnUnexpectedCommitment db).Marked accountId :=
  ⟨(foldl_lock_isLocked mismatched db accountId).mpr (Or.inl marked.latest),
    foldl_lock_historical mismatched marked.historical⟩

theorem lock_keyed (keyed : db.HeadersKeyed) (mismatched : AccountId × Word) :
    (db.lockAccountOnUnexpectedCommitment mismatched).HeadersKeyed := by
  by_cases unexpected : db.Unexpected mismatched
  · rw [lock_of_unexpected unexpected]
    intro id row found
    replace found : (db.latestAccountHeaders.modify mismatched.1 fun row =>
      { row with locked := true })[id]? = some row := found
    rw [ExtTreeMap.getElem?_modify] at found
    split at found
    · rename_i same
      obtain ⟨old, stored, rfl⟩ := Option.map_eq_some_iff.mp found
      exact (keyed _ old stored).trans (Std.compare_eq_iff_eq.mp same)
    · exact keyed id row found
  · rwa [lock_of_expected unexpected]

theorem foldl_lock_keyed (mismatched : List (AccountId × Word)) {db : Database}
    (keyed : db.HeadersKeyed) :
    (mismatched.foldl lockAccountOnUnexpectedCommitment db).HeadersKeyed := by
  induction mismatched generalizing db with
  | nil => exact keyed
  | cons report rest inductionHypothesis => exact inductionHypothesis (lock_keyed keyed report)

/-! ### Account updates -/

theorem applyAccountUpdates_keyed (collisionFree : CollisionFree) (keyed : db.HeadersKeyed)
    {update : AccountSyncUpdate} {forest last : AccountSmtForest}
    (updated : db.applyAccountUpdates update forest = .ok next last) : next.HeadersKeyed := by
  obtain ⟨undone, first, discarded, afterUndo⟩ := Fallible.bind_eq_result_ok.mp updated
  obtain ⟨_, second, committed, remaining⟩ := Fallible.bind_eq_result_ok.mp afterUndo
  cases ForestM.update_eq_ok.mp discarded
  cases ForestM.update_eq_ok.mp committed
  refine Fallible.foldlM_result_invariant HeadersKeyed updateAccountState
    update.updatedPublicAccounts ?_ _ next _ last
    (undoAccountState_headers collisionFree keyed forest update.discardedStates 0).1 remaining
  intro account member current start result final currentKeyed stepped
  exact (updateAccountState_headers collisionFree currentKeyed stepped).1

/-- Updating the other accounts keeps the marks, unless it deletes the account. -/
theorem applyAccountUpdates_marked (collisionFree : CollisionFree) (keyed : db.HeadersKeyed)
    {update : AccountSyncUpdate} {forest last : AccountSmtForest}
    (updated : db.applyAccountUpdates update forest = .ok next last)
    (notUpdated : ∀ account ∈ update.updatedPublicAccounts, account.id ≠ accountId)
    (notDeleted : ¬db.Deletes update.discardedStates accountId) (marked : db.Marked accountId) :
    next.Marked accountId := by
  obtain ⟨-, latest, history⟩ := applyAccountUpdates_headers collisionFree keyed updated
    fun account member same => notUpdated account member same.symm
  refine ⟨?_, fun row member => ?_⟩
  · unfold IsLocked
    rw [latest]
    unfold headerAfter
    cases earliest : (db.undoneNonces update.discardedStates accountId).getLast? with
    | none => exact marked.latest
    | some minNonce =>
      have replaced : db.replacedAt accountId minNonce ≠ [] :=
        fun none_ => notDeleted ⟨minNonce, earliest, none_⟩
      obtain ⟨row, last⟩ : ∃ row, (db.replacedAt accountId minNonce).getLast? = some row :=
        Option.isSome_iff_exists.mp (List.getLast?_isSome.mpr replaced)
      refine ⟨row.toHeaderRow, congrArg (Option.map _) last, marked.historical row ?_⟩
      have listed := List.mem_of_getLast? last
      rw [replacedAt_eq] at listed
      exact List.mem_of_mem_filter listed
  · rw [history] at member
    exact marked.historical row (List.mem_of_mem_filter member)

omit [ProtocolLibrary] in
theorem pruneAccountHistory_marked (foreignCodes : Finset Word) (prunedId : AccountId)
    (upToNonce : ℕ) (marked : db.Marked accountId) :
    (db.pruneAccountHistory foreignCodes prunedId upToNonce).Marked accountId := by
  refine ⟨marked.latest, fun row member => marked.historical row ?_⟩
  obtain ⟨kept, ofAccount⟩ := List.mem_filter.mp member
  exact List.mem_filter.mpr ⟨List.mem_of_mem_filter kept, ofAccount⟩

/-! ### Statements that can be refused -/

variable {refusals : Refusals} {forest last : AccountSmtForest}

/-- An update that no statement refused is the one without statements. -/
theorem replaceAccountState_eq_ok {account : Account}
    (replaced : db.replaceAccountState refusals account forest = .ok next last) :
    db.updateAccountState account forest = .ok next last := by
  obtain ⟨_, middle, registered, written⟩ := Fallible.bind_eq_result_ok.mp replaced
  obtain ⟨tables, rfl⟩ := ForestM.liftExcept_eq_ok.mp written
  obtain ⟨_, accepted, headed⟩ := Fallible.bind_eq_ok.mp tables
  exact Fallible.bind_eq_result_ok.mpr
    ⟨_, _, registered, ForestM.liftExcept_eq_ok.mpr ⟨headed, rfl⟩⟩

theorem foldlM_replaceAccountState_eq_ok {accounts : List Account} {db : Database}
    {forest : AccountSmtForest}
    (replaced : accounts.foldlM (replaceAccountState refusals) db forest = .ok next last) :
    accounts.foldlM updateAccountState db forest = .ok next last := by
  induction accounts generalizing db forest with
  | nil => exact replaced
  | cons account rest inductionHypothesis =>
    rw [List.foldlM_cons] at replaced ⊢
    obtain ⟨middle, grown, first, others⟩ := Fallible.bind_eq_result_ok.mp replaced
    exact Fallible.bind_eq_result_ok.mpr
      ⟨middle, grown, replaceAccountState_eq_ok first, inductionHypothesis others⟩

/-- The headers after a transaction are those after its final header is written. -/
theorem applyTransactionDelta_eq_ok {transaction : ExecutedTransaction}
    (applied : db.applyTransactionDelta refusals transaction forest = .ok next last) :
    ∃ headed, db.insertAccountHeader transaction.finalAccount none
        (some transaction.initialAccount) = .ok headed ∧
      next.latestAccountHeaders = headed.latestAccountHeaders ∧
      next.historicalAccountHeaders = headed.historicalAccountHeaders := by
  obtain ⟨prepared, middle, first, staged⟩ := Fallible.bind_eq_result_ok.mp applied
  cases ForestM.update_eq_ok.mp staged
  obtain ⟨_, forest, -, rest⟩ := Fallible.bind_eq_result_ok.mp first
  obtain ⟨headed, forest, inserted, rest⟩ := Fallible.bind_eq_result_ok.mp rest
  obtain ⟨changes, forest, -, rest⟩ := Fallible.bind_eq_result_ok.mp rest
  obtain ⟨_, forest, -, rest⟩ := Fallible.bind_eq_result_ok.mp rest
  obtain ⟨newVaultRoot, forest, -, rest⟩ := Fallible.bind_eq_result_ok.mp rest
  refine ⟨headed, (ForestM.liftExcept_eq_ok.mp inserted).1, ?_⟩
  split at rest
  · obtain ⟨registered, forest, -, rest⟩ := Fallible.bind_eq_result_ok.mp rest
    obtain ⟨slots, forest, -, rest⟩ := Fallible.bind_eq_result_ok.mp rest
    obtain ⟨_, forest, -, rest⟩ := Fallible.bind_eq_result_ok.mp rest
    cases rest
    rw [writeStorageDelta_frame]
    exact ⟨rfl, rfl⟩
  · cases rest

theorem applyTransactionDelta_headers (collisionFree : CollisionFree) (keyed : db.HeadersKeyed)
    {transaction : ExecutedTransaction}
    (applied : db.applyTransactionDelta refusals transaction forest = .ok next last) :
    next.HeadersKeyed ∧ ∀ id, id ≠ transaction.finalAccount.id → next.SameHeaders db id := by
  obtain ⟨headed, inserted, latest, historical⟩ := applyTransactionDelta_eq_ok applied
  obtain ⟨headedKeyed, same⟩ := insertAccountHeader_ofAccount collisionFree db keyed
    (fun old given => Option.some.inj given ▸ transaction.sameAccount.symm) inserted
  refine ⟨by rwa [HeadersKeyed, latest], fun id other => ⟨?_, ?_⟩⟩
  · rw [latest]
    exact (same id other).1
  · rw [historyOf, historical]
    exact (same id other).2

end Database

namespace SqliteStore

variable [NoteLibrary] {refusals : Refusals} {store after : Store Database}
  {accountId : AccountId}

/-- The account part of a sync. -/
def accountSyncUpdate (update : SyncStoreUpdate) : AccountSyncUpdate where
  discardedStates := update.discardedStates
  committedAccounts := update.committedAccounts
  updatedPublicAccounts := update.updatedPublicAccounts
  mismatchedPrivateAccounts := update.mismatchedPrivateAccounts

omit [NoteLibrary] in
theorem lockWrites_accounts (mismatched : List (AccountId × Word)) (tables : StoreTables Database) :
    ((lockWrites mismatched).foldl (fun tables write => write.2 tables) tables).accounts =
      mismatched.foldl Database.lockAccountOnUnexpectedCommitment tables.accounts := by
  induction mismatched generalizing tables with
  | nil => rfl
  | cons report rest inductionHypothesis => exact inductionHypothesis _

omit [NoteLibrary] in
theorem undoAccountState_eq (db : Database) (forest : AccountSmtForest)
    (discardedStates : List (AccountId × Word)) :
    db.undoAccountState forest discardedStates =
      ((undoWrites discardedStates).foldl (fun db write => write.2 db) db,
        forest.discardStates discardedStates) := by
  unfold Database.undoAccountState undoWrites
  cases discardedStates with
  | nil => rfl
  | cons state rest => rfl

omit [NoteLibrary] in
/-- The account part of a sync that no statement refused is the one without statements. -/
theorem applyAccountUpdates_eq_ok {update : SyncStoreUpdate} {db next : Database}
    {forest last : AccountSmtForest}
    (updated : applyAccountUpdates refusals update db forest = .ok next last) :
    db.applyAccountUpdates (accountSyncUpdate update) forest = .ok next last := by
  obtain ⟨undone, first, written, rest⟩ := Fallible.bind_eq_result_ok.mp updated
  obtain ⟨rfl, rfl⟩ := ForestM.writeAll_eq_ok written
  obtain ⟨_, second, discarded, rest⟩ := Fallible.bind_eq_result_ok.mp rest
  cases ForestM.update_eq_ok.mp discarded
  obtain ⟨_, third, committed, rest⟩ := Fallible.bind_eq_result_ok.mp rest
  cases ForestM.update_eq_ok.mp committed
  refine Fallible.bind_eq_result_ok.mpr ⟨_, _, ForestM.update_eq_ok.mpr ?_,
    Fallible.bind_eq_result_ok.mpr ⟨_, _, ForestM.update_eq_ok.mpr rfl,
      Database.foldlM_replaceAccountState_eq_ok rest⟩⟩
  unfold accountSyncUpdate
  rw [undoAccountState_eq]

/-- The account tables after a sync are those of its account part. -/
theorem applyStateSync_eq_ok {update : SyncStoreUpdate}
    (synced : applyStateSync refusals update store = .ok () after) :
    ∃ updated last, store.tables.accounts.applyAccountUpdates (accountSyncUpdate update)
        store.forest = .ok updated last ∧
      after.tables.accounts = update.mismatchedPrivateAccounts.foldl
        Database.lockAccountOnUnexpectedCommitment updated := by
  unfold applyStateSync at synced
  rw [Fallible.get_bind] at synced
  obtain ⟨tables, first, written, rest⟩ :=
    Fallible.bind_eq_result_ok.mp (StoreM.inTransaction_eq_ok synced)
  obtain ⟨rfl, rfl⟩ := ForestM.writeAll_eq_ok written
  obtain ⟨_, _, taken, rest⟩ := Fallible.bind_eq_result_ok.mp rest
  obtain ⟨-, rfl⟩ := ForestM.lock_eq_ok taken
  obtain ⟨accounts, second, updated, locked⟩ := Fallible.bind_eq_result_ok.mp rest
  rw [syncWrites_accounts] at updated
  refine ⟨accounts, second, applyAccountUpdates_eq_ok updated, ?_⟩
  rw [(ForestM.writeAll_eq_ok locked).1, lockWrites_accounts]

/-- A refused sync leaves the account tables as they are. -/
theorem applyStateSync_eq_error {update : SyncStoreUpdate} {reason : StoreError}
    (failed : applyStateSync refusals update store = .error reason after) :
    after.tables = store.tables := by
  unfold applyStateSync at failed
  rw [Fallible.get_bind] at failed
  exact StoreM.tables_of_inTransaction_eq_error failed

/-! ### Operations on one account -/

/-- The operation leaves the headers of all other accounts alone. -/
def OnlyTouches (touched : AccountId) (operation : StoreM Database Unit) : Prop :=
  ∀ store : Store Database, store.tables.accounts.HeadersKeyed →
    (Fallible.finalState (operation store)).tables.accounts.HeadersKeyed ∧
      ∀ id, id ≠ touched → (Fallible.finalState (operation store)).tables.accounts.SameHeaders
        store.tables.accounts id

omit [ProtocolLibrary] [NoteLibrary] in
theorem onlyTouches_of_same {touched : AccountId} {operation : StoreM Database Unit}
    (same : ∀ store, (Fallible.finalState (operation store)).tables.accounts =
      store.tables.accounts) : OnlyTouches touched operation := by
  intro store keyed
  rw [same]
  exact ⟨keyed, fun _ _ => ⟨rfl, rfl⟩⟩

omit [ProtocolLibrary] [NoteLibrary] in
/-- A transaction does what its body does, when that succeeds. -/
theorem onlyTouches_inTransaction {touched : AccountId} {refusals : Refusals}
    {body : StoreTables Database → ForestM (StoreTables Database)}
    (touches : ∀ tables forest result last, body tables forest = .ok result last →
      tables.accounts.HeadersKeyed → result.accounts.HeadersKeyed ∧
        ∀ id, id ≠ touched → result.accounts.SameHeaders tables.accounts id) :
    OnlyTouches touched (StoreM.inTransaction refusals body) := by
  intro store keyed
  rcases StoreM.inTransaction_tables refusals body store with ⟨tables, last, done, same⟩ | same
  · rw [same]
    exact touches store.tables store.forest tables last done keyed
  · rw [same]
    exact ⟨keyed, fun _ _ => ⟨rfl, rfl⟩⟩

omit [ProtocolLibrary] [NoteLibrary] in
/-- What comes after an operation does not matter when it leaves the tables alone. -/
theorem OnlyTouches.bind_of_keeps {touched : AccountId} {first : StoreM Database Unit}
    {rest : Unit → StoreM Database Unit} (touches : OnlyTouches touched first)
    (keeps : ∀ value store, (Fallible.finalState (rest value store)).tables = store.tables) :
    OnlyTouches touched (first >>= rest) := by
  intro store keyed
  rw [Fallible.view_finalState_bind Store.tables keeps]
  exact touches store keyed

omit [ProtocolLibrary] [NoteLibrary] in
theorem OnlyTouches.after_read {touched : AccountId} {refusals : Refusals} {place : Statement}
    {rest : Unit → StoreM Database Unit} (touches : ∀ value, OnlyTouches touched (rest value)) :
    OnlyTouches touched (StoreM.read refusals place >>= rest) := by
  intro store keyed
  cases answer : refusals place with
  | none =>
    rw [Fallible.bind_of_result_ok (StoreM.read_of_accepted answer store)]
    exact touches () store keyed
  | some reason =>
    rw [Fallible.bind_eq_result_error.mpr (Or.inl (StoreM.read_of_refused answer store))]
    exact ⟨keyed, fun _ _ => ⟨rfl, rfl⟩⟩

omit [ProtocolLibrary] [NoteLibrary] in
theorem OnlyTouches.after_get {touched : AccountId} {rest : Store Database → StoreM Database Unit}
    (touches : ∀ value, OnlyTouches touched (rest value)) : OnlyTouches touched (get >>= rest) :=
  fun store keyed => touches store store keyed

omit [ProtocolLibrary] [NoteLibrary] in
theorem OnlyTouches.after_lock {touched : AccountId} {rest : Unit → StoreM Database Unit}
    (touches : ∀ value, OnlyTouches touched (rest value)) :
    OnlyTouches touched (StoreM.lockForest >>= rest) := by
  intro store keyed
  cases poisoned : store.forestPoisoned with
  | false =>
    rw [Fallible.bind_of_result_ok (StoreM.lockForest_of_free poisoned)]
    exact touches () store keyed
  | true =>
    rw [Fallible.bind_eq_result_error.mpr (Or.inl (StoreM.lockForest_of_poisoned poisoned))]
    exact ⟨keyed, fun _ _ => ⟨rfl, rfl⟩⟩

omit [NoteLibrary] in
theorem onlyTouches_insertAccount (collisionFree : CollisionFree) (account : Account)
    (tag : NoteTagRecord) : OnlyTouches account.id (insertAccount refusals account tag) := by
  refine OnlyTouches.bind_of_keeps (onlyTouches_inTransaction ?_) fun _ store => ?_
  · intro tables forest result last done keyed
    obtain ⟨_, first, accepted, rest⟩ := Fallible.bind_eq_result_ok.mp done
    obtain ⟨accounts, second, stored, rest⟩ := Fallible.bind_eq_result_ok.mp rest
    obtain ⟨rfl, -⟩ := ForestM.writeAll_eq_ok rest
    obtain ⟨content, latest, historical, inserted⟩ :=
      Database.insertAccountTables_eq_ok (ForestM.liftExcept_eq_ok.mp stored).1
    obtain ⟨insertedKeyed, same⟩ := Database.insertAccountHeader_ofAccount collisionFree content
      (by rwa [Database.HeadersKeyed, latest]) (fun _ absent => by cases absent) inserted
    refine ⟨insertedKeyed, fun id other => ⟨?_, ?_⟩⟩
    · exact ((same id other).1).trans (by rw [latest])
    · refine ((same id other).2).trans ?_
      rw [Database.historyOf, historical, Database.historyOf]
  · exact StoreM.withForest_preserves_tables (· = store.tables) _ store rfl

theorem onlyTouches_applyTransaction (collisionFree : CollisionFree)
    (update : TransactionStoreUpdate) :
    OnlyTouches update.executedTransaction.finalAccount.id (applyTransaction refusals update) := by
  refine .after_read fun _ => .after_read fun _ => .after_get fun store =>
    onlyTouches_inTransaction ?_
  intro tables forest result last done keyed
  obtain ⟨_, first, accepted, rest⟩ := Fallible.bind_eq_result_ok.mp done
  obtain ⟨_, _, taken, rest⟩ := Fallible.bind_eq_result_ok.mp rest
  obtain ⟨accounts, second, applied, rest⟩ := Fallible.bind_eq_result_ok.mp rest
  obtain ⟨rfl, -⟩ := ForestM.writeAll_eq_ok rest
  rw [transactionWrites_accounts]
  exact Database.applyTransactionDelta_headers collisionFree keyed applied

omit [NoteLibrary] in
theorem onlyTouches_updateAccount (collisionFree : CollisionFree) (account : Account) :
    OnlyTouches account.id (updateAccount refusals account) := by
  refine .after_read fun _ => .after_get fun store => ?_
  split
  · exact onlyTouches_of_same fun _ => rfl
  · refine .after_lock fun _ => onlyTouches_inTransaction ?_
    intro tables forest result last done keyed
    obtain ⟨accounts, middle, replaced, ended⟩ := Fallible.bind_eq_result_ok.mp done
    cases ended
    exact Database.updateAccountState_headers collisionFree keyed
      (Database.replaceAccountState_eq_ok replaced)

section AnyAccount

variable {invariant : Database → Prop}

omit [NoteLibrary] [ProtocolLibrary]

theorem addNoteTag_preserves (record : NoteTagRecord) :
    Fallible.Preserves (fun store => invariant store.tables.accounts)
      (addNoteTag refusals record) := by
  refine Fallible.Preserves.bind (StoreM.read_preserves_tables
    (fun tables => invariant tables.accounts) refusals _) fun _ => ?_
  refine Fallible.Preserves.bind (Fallible.Preserves.get _) fun store => ?_
  split
  · exact Fallible.Preserves.pure _ _
  · exact StoreM.write_preserves_tables (fun tables => invariant tables.accounts) refusals _
      fun _ holds => holds

theorem pruneAccountHistory_preserves {foreignCodes : Finset Word} {prunedId : AccountId}
    {upToNonce : ℕ} (keeps : ∀ db, invariant db →
      invariant (db.pruneAccountHistory foreignCodes prunedId upToNonce)) :
    Fallible.Preserves (fun store => invariant store.tables.accounts)
      (pruneAccountHistory refusals foreignCodes prunedId upToNonce) := by
  intro store holds
  show invariant (Fallible.finalState (StoreM.inTransaction refusals _ store)).tables.accounts
  rcases StoreM.inTransaction_tables refusals _ store with ⟨tables, last, done, same⟩ | same
  · rw [same, (ForestM.writeAll_eq_ok done).1]
    exact keeps store.tables.accounts holds
  · rwa [same]

end AnyAccount

/-! ### A sync -/

/-- The account is stored, and everything about it is marked. -/
structure Held (accountId : AccountId) (db : Database) : Prop where
  keyed : db.HeadersKeyed
  marked : db.Marked accountId

omit [NoteLibrary] [ProtocolLibrary] in
theorem OnlyTouches.held {touched : AccountId} {operation : StoreM Database Unit}
    (touches : OnlyTouches touched operation) (away : accountId ≠ touched) :
    Fallible.Preserves (fun store => Held accountId store.tables.accounts) operation := by
  intro store held
  obtain ⟨keyed, same⟩ := touches store held.keyed
  exact ⟨keyed, held.marked.congr (same accountId away)⟩

/-- A performed sync neither deletes the account nor replaces its state. -/
def KeepsAccount (refusals : Refusals) (update : SyncStoreUpdate) (store : Store Database)
    (accountId : AccountId) : Prop :=
  ∀ after, applyStateSync refusals update store = .ok () after →
    ¬store.tables.accounts.Deletes update.discardedStates accountId ∧
      ∀ account ∈ update.updatedPublicAccounts, account.id ≠ accountId

theorem applyStateSync_keyed (collisionFree : CollisionFree) (update : SyncStoreUpdate) :
    Fallible.Preserves (fun store => store.tables.accounts.HeadersKeyed)
      (applyStateSync refusals update) := by
  intro store keyed
  cases outcome : applyStateSync refusals update store with
  | error reason after =>
    show after.tables.accounts.HeadersKeyed
    rwa [applyStateSync_eq_error outcome]
  | ok _ after =>
    obtain ⟨updated, last, applied, same⟩ := applyStateSync_eq_ok outcome
    show after.tables.accounts.HeadersKeyed
    rw [same]
    exact Database.foldl_lock_keyed update.mismatchedPrivateAccounts
      (Database.applyAccountUpdates_keyed collisionFree keyed applied)

theorem applyStateSync_held (collisionFree : CollisionFree) {update : SyncStoreUpdate}
    (held : Held accountId store.tables.accounts)
    (keeps : KeepsAccount refusals update store accountId) :
    Held accountId
      (Fallible.finalState (applyStateSync refusals update store)).tables.accounts := by
  refine ⟨applyStateSync_keyed collisionFree update store held.keyed, ?_⟩
  cases outcome : applyStateSync refusals update store with
  | error reason after =>
    show after.tables.accounts.Marked accountId
    rw [applyStateSync_eq_error outcome]
    exact held.marked
  | ok _ after =>
    obtain ⟨notDeleted, notUpdated⟩ := keeps after outcome
    obtain ⟨updated, last, applied, same⟩ := applyStateSync_eq_ok outcome
    show after.tables.accounts.Marked accountId
    rw [same]
    exact Database.foldl_lock_marked update.mismatchedPrivateAccounts
      (Database.applyAccountUpdates_marked collisionFree held.keyed applied notUpdated notDeleted
        held.marked)

/-- The sync was performed, and it locked the account for a reported digest. -/
def Locks (refusals : Refusals) (update : SyncStoreUpdate) (store : Store Database)
    (accountId : AccountId) : Prop :=
  ∃ after digest, applyStateSync refusals update store = .ok () after ∧
    after.tables.accounts.IsLocked accountId ∧
    (accountId, digest) ∈ update.mismatchedPrivateAccounts ∧
    after.tables.accounts.Unexpected (accountId, digest)

/-- A sync that locks an account marks all its rows. -/
theorem applyStateSync_marks (collisionFree : CollisionFree) {update : SyncStoreUpdate}
    (keyed : store.tables.accounts.HeadersKeyed)
    (locks : Locks refusals update store accountId) :
    Held accountId
      (Fallible.finalState (applyStateSync refusals update store)).tables.accounts := by
  refine ⟨applyStateSync_keyed collisionFree update store keyed, ?_⟩
  obtain ⟨after, digest, synced, locked, reported, unexpected⟩ := locks
  obtain ⟨updated, last, applied, same⟩ := applyStateSync_eq_ok synced
  rw [synced]
  refine ⟨locked, ?_⟩
  show ∀ row ∈ after.tables.accounts.historyOf accountId, _
  rw [same] at unexpected ⊢
  exact Database.foldl_lock_marks reported
    ((Database.foldl_lock_unexpected update.mismatchedPrivateAccounts updated _).mp unexpected)

end SqliteStore

end Library

end MidenClient
