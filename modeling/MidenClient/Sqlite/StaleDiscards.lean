/-
This file follows the discard of a local transaction whose account was replaced from the
network in the meantime (`undo_account_state` in `sqlite-store/src/account/accounts.rs`).

The final state of the transaction is then a historical state. Undoing looks it up there
all the same, and writes what its nonce had replaced over the latest state, although that
state no longer rests on the transaction. The account keeps the state from the network
only when the discarded state is not stored any more.
-/

import MidenClient.Sqlite.AccountContent
import MidenClient.Sqlite.StoreRun

namespace MidenClient

open Std (ExtTreeMap)

namespace Database

/-- The latest state of an account is the same. -/
structure SameLatest (first second : Database) (accountId : AccountId) : Prop where
  header : first.latestAccountHeaders[accountId]? = second.latestAccountHeaders[accountId]?
  slots : ∀ key, first.accountStorage.current accountId key =
    second.accountStorage.current accountId key
  entries : ∀ key, first.storageMapEntries.current accountId key =
    second.storageMapEntries.current accountId key
  assets : ∀ key, first.accountAssets.current accountId key =
    second.accountAssets.current accountId key

theorem SameLatest.refl (db : Database) (accountId : AccountId) : db.SameLatest db accountId :=
  ⟨rfl, fun _ => rfl, fun _ => rfl, fun _ => rfl⟩

theorem SameLatest.trans {first second third : Database} {accountId : AccountId}
    (before : first.SameLatest second accountId) (after : second.SameLatest third accountId) :
    first.SameLatest third accountId where
  header := before.header.trans after.header
  slots key := (before.slots key).trans (after.slots key)
  entries key := (before.entries key).trans (after.entries key)
  assets key := (before.assets key).trans (after.assets key)

section Library

variable [ProtocolLibrary]

/-! ### Undoing other accounts -/

theorem restoreHeader_content (db : Database) {accountId id : AccountId}
    (different : id ≠ accountId) (minNonce : ℕ) :
    (∀ key, (db.restoreHeader accountId minNonce).accountStorage.current id key =
        db.accountStorage.current id key) ∧
      (∀ key, (db.restoreHeader accountId minNonce).storageMapEntries.current id key =
        db.storageMapEntries.current id key) ∧
      ∀ key, (db.restoreHeader accountId minNonce).accountAssets.current id key =
        db.accountAssets.current id key := by
  unfold restoreHeader
  split
  · refine ⟨fun key => ?_, fun key => ?_, fun key => ?_⟩
    all_goals
      refine (HistoryTable.current_clear _ _ _ _).trans ?_
      rw [if_neg different]
  · rw [foldl_replaceLatestHeader]
    exact ⟨fun _ => rfl, fun _ => rfl, fun _ => rfl⟩

/-- Undoing nonces of another account leaves the latest state of an account alone. -/
theorem undoAccountNonces_sameLatest (collisionFree : CollisionFree) {db : Database}
    (keyed : db.HeadersKeyed) {accountId id : AccountId} (different : id ≠ accountId)
    (nonces : List ℕ) (some_ : nonces ≠ []) :
    (db.undoAccountNonces accountId nonces).SameLatest db id := by
  obtain ⟨latest, -⟩ := undoAccountNonces_headers collisionFree keyed accountId nonces some_ id
  rw [if_neg (Ne.symm different)] at latest
  obtain ⟨minNonce, last⟩ : ∃ minNonce, nonces.getLast? = some minNonce :=
    Option.isSome_iff_exists.mp (List.getLast?_isSome.mpr some_)
  let restored := nonces.foldl (fun db nonce => db.restoreOldValuesForNonce accountId nonce) db
  have undone : db.undoAccountNonces accountId nonces =
      (restored.restoreHeader accountId minNonce).deleteHistorical accountId nonces := by
    rw [undoAccountNonces, last]
  obtain ⟨slots, entries, assets⟩ := restored.restoreHeader_content different minNonce
  have values : restored = _ := foldl_restore nonces db accountId
  rw [undone]
  refine ⟨undone ▸ latest, fun key => (slots key).trans ?_, fun key => (entries key).trans ?_,
    fun key => (assets key).trans ?_⟩
  all_goals
    rw [values]
    exact HistoryTable.current_foldl_restore_other _ different _ _ key

/-- Undoing states none of which is stored for an account leaves its latest state alone. -/
theorem undoStates_sameLatest (collisionFree : CollisionFree) {db : Database}
    (keyed : db.HeadersKeyed) (states : List (AccountId × Word)) {id : AccountId}
    (nothing : db.undoneNonces states id = []) : (db.undoStates states).SameLatest db id := by
  obtain ⟨accounts, -, listed, folded⟩ := db.undoStates_eq_foldl states
  have others : ∀ account ∈ accounts, id ≠ account ∧ db.undoneNonces states account ≠ [] := by
    intro account member
    have some_ := (listed account).mp member
    refine ⟨?_, some_⟩
    rintro rfl
    exact some_ nothing
  have general : (accounts.foldl (fun current account => current.undoAccountNonces account
      (db.undoneNonces states account)) db).HeadersKeyed ∧
      (accounts.foldl (fun current account => current.undoAccountNonces account
        (db.undoneNonces states account)) db).SameLatest db id := by
    refine List.foldlRecOn (motive := fun current : Database =>
      current.HeadersKeyed ∧ current.SameLatest db id) accounts _ ⟨keyed, .refl db id⟩ ?_
    rintro current ⟨currentKeyed, same⟩ account member
    obtain ⟨different, some_⟩ := others account member
    exact ⟨undoAccountNonces_keyed collisionFree currentKeyed account _ some_,
      (undoAccountNonces_sameLatest collisionFree currentKeyed different _ some_).trans same⟩
  rw [folded]
  exact general.2

/-! ### Nonces of stored states -/

/-- Latest headers are stored under their ids, and no archived header has a higher nonce than the
one at which it was replaced. -/
structure NoncesOrdered (db : Database) : Prop where
  keyed : db.HeadersKeyed
  replaced : ∀ row ∈ db.historicalAccountHeaders, row.header.nonce ≤ row.replacedAtNonce

/-- No stored state of the account has a higher nonce than this one. -/
structure NoneAbove (db : Database) (account : Account) : Prop where
  latest : ∀ row, db.latestAccountHeaders[account.id]? = some row →
    row.header.nonce ≤ account.nonce
  historical : ∀ row ∈ db.historyOf account.id, row.header.nonce ≤ account.nonce

/-- The operation replaces no state by one with a lower nonce, and a synchronization brings at
most one state of every account. -/
def NeverLowers (db : Database) : StoreOperation → Prop
  | .applyTransaction transaction =>
    transaction.initialAccount.nonce ≤ transaction.finalAccount.nonce
  | .updateAccount account => db.NoneAbove account
  | .applyStateSync update => (update.updatedPublicAccounts.map Account.id).Nodup ∧
    ∀ account ∈ update.updatedPublicAccounts, db.NoneAbove account
  | .insertAccount _ => True
  | .pruneAccountHistory _ _ _ => True
  | .reopen => True

instance (db : Database) (account : Account) : Decidable (db.NoneAbove account) :=
  decidable_of_iff ((∀ row ∈ db.latestAccountHeaders[account.id]?,
      row.header.nonce ≤ account.nonce) ∧
    ∀ row ∈ db.historyOf account.id, row.header.nonce ≤ account.nonce)
    ⟨fun below => ⟨below.1, below.2⟩, fun below => ⟨below.latest, below.historical⟩⟩

instance (db : Database) : (operation : StoreOperation) → Decidable (db.NeverLowers operation)
  | .applyTransaction transaction =>
    inferInstanceAs (Decidable (transaction.initialAccount.nonce ≤ transaction.finalAccount.nonce))
  | .updateAccount account => inferInstanceAs (Decidable (db.NoneAbove account))
  | .applyStateSync update =>
    inferInstanceAs (Decidable ((update.updatedPublicAccounts.map Account.id).Nodup ∧
      ∀ account ∈ update.updatedPublicAccounts, db.NoneAbove account))
  | .insertAccount _ => inferInstanceAs (Decidable True)
  | .pruneAccountHistory _ _ _ => inferInstanceAs (Decidable True)
  | .reopen => inferInstanceAs (Decidable True)

/-- Performs an operation if it lowers no nonce. -/
def performRising (db : Database) (operation : StoreOperation) : ForestM Database :=
  if db.NeverLowers operation then db.perform operation else throw .databaseError

/-- The stores that are reached by such operations. -/
inductive RisingRun : Database → AccountSmtForest → Prop where
  | start : RisingRun Database.empty AccountSmtForest.new
  | step {db next : Database} {forest last : AccountSmtForest} {operation : StoreOperation}
      (run : RisingRun db forest) (rises : db.NeverLowers operation)
      (performed : db.perform operation forest = .ok next last) : RisingRun next last

variable {db next : Database} {forest last : AccountSmtForest}

omit [ProtocolLibrary] in
theorem NoncesOrdered.congr (ordered : db.NoncesOrdered)
    (latest : next.latestAccountHeaders = db.latestAccountHeaders)
    (historical : next.historicalAccountHeaders = db.historicalAccountHeaders) :
    next.NoncesOrdered where
  keyed := by
    rw [HeadersKeyed, latest]
    exact ordered.keyed
  replaced := by
    rw [historical]
    exact ordered.replaced

theorem NoncesOrdered.insertAccountHeader (collisionFree : CollisionFree)
    (ordered : db.NoncesOrdered) {header : AccountHeader} {seed : Option Word}
    {oldHeader : Option AccountHeader} (rises : ∀ old ∈ oldHeader, old.nonce ≤ header.nonce)
    (inserted : db.insertAccountHeader header seed oldHeader = .ok next) : next.NoncesOrdered := by
  cases oldHeader with
  | none =>
    obtain ⟨-, rfl⟩ := (db.insertAccountHeader_none_eq_ok_iff next header seed).mp inserted
    exact ⟨db.replaceLatestHeader_keyed _ collisionFree ordered.keyed, ordered.replaced⟩
  | some old =>
    obtain ⟨-, -, -, rfl⟩ := (db.insertAccountHeader_some_eq_ok_iff next header old seed).mp
      inserted
    refine ⟨replaceLatestHeader_keyed _ _ collisionFree ordered.keyed, fun row member => ?_⟩
    rcases List.mem_append.mp member with kept | new
    · exact ordered.replaced row (List.mem_of_mem_filter kept)
    · rw [List.mem_singleton.mp new]
      exact rises old rfl

/-- Undoing keeps the order, and the restored states are states that were stored. -/
theorem NoncesOrdered.undoAccountState (collisionFree : CollisionFree) (ordered : db.NoncesOrdered)
    (forest : AccountSmtForest) (states : List (AccountId × Word)) :
    (db.undoAccountState forest states).1.NoncesOrdered ∧
      ∀ account, db.NoneAbove account →
        (db.undoAccountState forest states).1.NoneAbove account := by
  have headers := fun id => undoAccountState_headers collisionFree ordered.keyed forest states id
  refine ⟨⟨(headers 0).1, fun row member => ?_⟩, fun account below => ⟨fun row stored => ?_, ?_⟩⟩
  · have listed : row ∈ (db.undoAccountState forest states).1.historyOf row.header.id :=
      List.mem_filter.mpr ⟨member, decide_eq_true rfl⟩
    rw [(headers row.header.id).2.2] at listed
    exact ordered.replaced row (List.mem_of_mem_filter (List.mem_of_mem_filter listed))
  · rw [(headers account.id).2.1, headerAfter] at stored
    split at stored
    · exact below.latest row stored
    · obtain ⟨old, final, rfl⟩ := Option.map_eq_some_iff.mp stored
      rw [replacedAt_eq] at final
      exact below.historical old (List.mem_of_mem_filter (List.mem_of_getLast? final))
  · intro row member
    rw [(headers account.id).2.2] at member
    exact below.historical row (List.mem_of_mem_filter member)

theorem NoncesOrdered.updateAccountState (collisionFree : CollisionFree)
    (ordered : db.NoncesOrdered) {account : Account} (below : db.NoneAbove account)
    (updated : db.updateAccountState account forest = .ok next last) : next.NoncesOrdered := by
  have frame := db.replaceContent_frame account
  have content : (db.replaceContent account).NoncesOrdered :=
    ordered.congr (by rw [frame]) (by rw [frame])
  refine content.insertAccountHeader collisionFree ?_ (updateAccountState_eq_ok updated).2
  intro old stored
  obtain ⟨row, found, rfl⟩ := Option.map_eq_some_iff.mp stored
  exact below.latest row found

theorem NoneAbove.updateAccountState (collisionFree : CollisionFree) (keyed : db.HeadersKeyed)
    {account other : Account} (below : db.NoneAbove other) (different : other.id ≠ account.id)
    (updated : db.updateAccountState account forest = .ok next last) : next.NoneAbove other := by
  obtain ⟨latest, historical⟩ :=
    (updateAccountState_headers collisionFree keyed updated).2 other.id different
  refine ⟨fun row stored => below.latest row (latest ▸ stored), fun row member => ?_⟩
  rw [historical] at member
  exact below.historical row member

theorem NoncesOrdered.foldlM_updateAccountState (collisionFree : CollisionFree)
    (accounts : List Account) (distinct : (accounts.map Account.id).Nodup)
    (ordered : db.NoncesOrdered) (below : ∀ account ∈ accounts, db.NoneAbove account)
    (updated : accounts.foldlM Database.updateAccountState db forest = .ok next last) :
    next.NoncesOrdered := by
  induction accounts generalizing db forest with
  | nil =>
    cases updated
    exact ordered
  | cons account rest inductionHypothesis =>
    rw [List.map_cons, List.nodup_cons] at distinct
    rw [List.foldlM_cons] at updated
    obtain ⟨middle, middleForest, stepped, remaining⟩ := Fallible.bind_eq_result_ok.mp updated
    refine inductionHypothesis distinct.2 (ordered.updateAccountState collisionFree
      (below account List.mem_cons_self) stepped) (fun other member => ?_) remaining
    refine (below other (List.mem_cons_of_mem _ member)).updateAccountState collisionFree
      ordered.keyed (fun same => ?_) stepped
    exact distinct.1 (same ▸ List.mem_map_of_mem member)

theorem NoncesOrdered.lock (ordered : db.NoncesOrdered) (mismatched : AccountId × Word) :
    (db.lockAccountOnUnexpectedCommitment mismatched).NoncesOrdered := by
  unfold lockAccountOnUnexpectedCommitment
  split
  · exact ordered
  · refine ⟨fun id row stored => ?_, fun row member => ?_⟩
    · rw [ExtTreeMap.getElem?_modify] at stored
      split at stored
      · obtain ⟨old, found, rfl⟩ := Option.map_eq_some_iff.mp stored
        rename_i same
        rw [← Std.compare_eq_iff_eq.mp same]
        exact ordered.keyed _ old found
      · exact ordered.keyed id row stored
    · obtain ⟨old, listed, rfl⟩ := List.mem_map.mp member
      have below := ordered.replaced old listed
      split
      · exact below
      · exact below

/-- Every operation that lowers no nonce keeps the order. -/
theorem NoncesOrdered.perform (collisionFree : CollisionFree) (ordered : db.NoncesOrdered)
    {operation : StoreOperation} (rises : db.NeverLowers operation)
    (performed : db.perform operation forest = .ok next last) : next.NoncesOrdered := by
  cases operation with
  | insertAccount account =>
    obtain ⟨content, latest, historical, inserted⟩ :=
      insertAccountTables_eq_ok (insertAccount_eq_ok performed).1
    exact (ordered.congr latest historical).insertAccountHeader collisionFree
      (fun _ absent => (by cases absent)) inserted
  | applyTransaction transaction =>
    obtain ⟨registered, grown, tables, -⟩ := applyAccountDelta_eq_ok performed
    obtain ⟨headed, inserted, afterHeader⟩ := Fallible.bind_eq_ok.mp tables
    obtain ⟨changes, computed, written⟩ := Fallible.bind_eq_ok.mp afterHeader
    have headedOrdered : headed.NoncesOrdered := by
      refine ordered.insertAccountHeader collisionFree ?_ inserted
      rintro old ⟨⟩
      exact rises
    cases written
    rw [writeStorageDelta_frame]
    exact headedOrdered.congr rfl rfl
  | applyStateSync update =>
    obtain ⟨replaced, middle, updated, locked⟩ := Fallible.bind_eq_result_ok.mp performed
    cases locked
    obtain ⟨undone, first, discarded, afterUndo⟩ := Fallible.bind_eq_result_ok.mp updated
    obtain ⟨_, second, committed, remaining⟩ := Fallible.bind_eq_result_ok.mp afterUndo
    cases ForestM.update_eq_ok.mp discarded
    cases ForestM.update_eq_ok.mp committed
    obtain ⟨undoneOrdered, undoneBelow⟩ :=
      ordered.undoAccountState collisionFree forest update.discardedStates
    have replacedOrdered := undoneOrdered.foldlM_updateAccountState collisionFree
      update.updatedPublicAccounts rises.1
      (fun account member => undoneBelow account (rises.2 account member)) remaining
    refine List.foldlRecOn (motive := NoncesOrdered) update.mismatchedPrivateAccounts _
      replacedOrdered ?_
    exact fun current currentOrdered mismatched _ => currentOrdered.lock mismatched
  | updateAccount account =>
    exact ordered.updateAccountState collisionFree rises (updateAccount_eq_ok performed)
  | pruneAccountHistory foreignCodes accountId upToNonce =>
    cases performed
    exact ⟨ordered.keyed, fun row member => ordered.replaced row (List.mem_of_mem_filter member)⟩
  | reopen =>
    rw [(reopen_eq_ok performed).2]
    exact ordered

theorem RisingRun.noncesOrdered (collisionFree : CollisionFree) (run : RisingRun db forest) :
    db.NoncesOrdered := by
  induction run with
  | start =>
    exact ⟨fun id row stored => (by cases stored), fun row member => (by cases member)⟩
  | step _ rises performed ordered => exact ordered.perform collisionFree rises performed

/-- Evaluating operations that lower no nonce gives a run. -/
theorem RisingRun.foldlM (run : RisingRun db forest) (operations : List StoreOperation)
    (performed : operations.foldlM performRising db forest = .ok next last) :
    RisingRun next last := by
  induction operations generalizing db forest with
  | nil =>
    cases performed
    exact run
  | cons operation rest inductionHypothesis =>
    rw [List.foldlM_cons] at performed
    obtain ⟨middle, middleForest, stepped, remaining⟩ := Fallible.bind_eq_result_ok.mp performed
    unfold performRising at stepped
    split at stepped
    · rename_i rises
      exact inductionHypothesis (run.step rises stepped) remaining
    · cases stepped

/-! ### Discarding stale states -/

theorem HoldsState.congr {account : Account} (holds : db.HoldsState account)
    (same : next.SameLatest db account.id) : next.HoldsState account where
  header := by
    rw [same.header]
    exact holds.header
  slots slotName := (same.slots slotName).trans (holds.slots slotName)
  entries slotName key := (same.entries _).trans (holds.entries slotName key)
  assets key := (same.assets key).trans (holds.assets key)

/-- The states are final states of discarded transactions, and those of the account are older
than the account. -/
def StaleFor (states : List (AccountId × Word)) (account : Account) : Prop :=
  ∀ state ∈ states, ∃ header : AccountHeader, header.id = state.1 ∧
    header.toCommitment = state.2 ∧ (state.1 = account.id → header.nonce < account.nonce)

/-- Nonces of an account are undone exactly when a discarded state is one of its historical
states, and they are all older than the account. -/
theorem mem_undoneNonces_of_stale (collisionFree : CollisionFree) (keyed : db.HeadersKeyed)
    {network : Account} (holds : db.HoldsState network) {states : List (AccountId × Word)}
    (stale : StaleFor states network) (nonce : ℕ) :
    nonce ∈ db.undoneNonces states network.id ↔
      ∃ row ∈ db.historyOf network.id, row.header.toCommitment ∈ states.map Prod.snd ∧
        row.header.nonce = nonce := by
  unfold undoneNonces
  rw [mem_descending, List.mem_map]
  constructor
  · rintro ⟨state, member, rfl⟩
    obtain ⟨resolved, ofAccount⟩ := List.mem_filter.mp member
    rcases (mem_resolveStates_iff _ _ _).mp resolved with
      ⟨id, row, stored, discarded, rfl⟩ | ⟨row, listed, discarded, rfl⟩
    · -- the latest header is newer than every discarded state
      obtain ⟨discard, given, same⟩ := List.mem_map.mp discarded
      obtain ⟨header, ofId, commitment, older⟩ := stale discard given
      have equal : header = row.header := collisionFree (commitment.trans same)
      have isNetwork : row.header.id = network.id := of_decide_eq_true ofAccount
      have below := older (by rw [← ofId, equal, isNetwork])
      have latest := holds.header
      rw [← isNetwork, keyed id row stored, stored] at latest
      rw [equal, Option.some.inj latest] at below
      exact absurd below (lt_irrefl _)
    · exact ⟨row, List.mem_filter.mpr ⟨listed, ofAccount⟩, discarded, rfl⟩
  · rintro ⟨row, member, discarded, rfl⟩
    obtain ⟨listed, ofAccount⟩ := List.mem_filter.mp member
    refine ⟨(row.header.id, row.header.nonce), List.mem_filter.mpr ⟨?_, ofAccount⟩, rfl⟩
    exact (mem_resolveStates_iff _ _ _).mpr (Or.inr ⟨row, listed, discarded, rfl⟩)

/-- An account that holds a state from the network keeps it through the discard of older states
exactly when none of them is among its historical states any more. -/
theorem undoAccountState_holdsState_iff (collisionFree : CollisionFree)
    (run : RisingRun db forest) {network : Account} (holds : db.HoldsState network)
    {states : List (AccountId × Word)} (stale : StaleFor states network) :
    (db.undoAccountState forest states).1.HoldsState network ↔
      ∀ state ∈ states, ∀ row ∈ db.historyOf network.id, row.header.toCommitment ≠ state.2 := by
  have ordered := run.noncesOrdered collisionFree
  have nonces := mem_undoneNonces_of_stale collisionFree ordered.keyed holds stale
  constructor
  · intro kept state given row member same
    have latest := (undoAccountState_headers collisionFree ordered.keyed forest states
      network.id).2.1
    have header := kept.header
    have some_ : db.undoneNonces states network.id ≠ [] :=
      List.ne_nil_of_mem ((nonces row.header.nonce).mpr
        ⟨row, member, List.mem_map.mpr ⟨state, given, same.symm⟩, rfl⟩)
    obtain ⟨minNonce, last⟩ : ∃ minNonce, (db.undoneNonces states network.id).getLast? =
        some minNonce := Option.isSome_iff_exists.mp (List.getLast?_isSome.mpr some_)
    -- the header that the earliest undone nonce replaced is older than the network state
    rw [latest, headerAfter, last] at header
    obtain ⟨restored, final, equal⟩ := Option.map_eq_some_iff.mp header
    obtain ⟨old, oldest, rfl⟩ := Option.map_eq_some_iff.mp final
    have replaced := List.mem_filter.mp (List.mem_of_getLast? oldest)
    have below : old.header.nonce ≤ minNonce :=
      (ordered.replaced old replaced.1).trans (of_decide_eq_true replaced.2).2.le
    obtain ⟨undone, undoneMember, discarded, isMin⟩ :=
      (nonces minNonce).mp (List.mem_of_getLast? last)
    obtain ⟨discard, given, commitment⟩ := List.mem_map.mp discarded
    obtain ⟨header, ofId, committed, older⟩ := stale discard given
    have sameHeader : header = undone.header := collisionFree (committed.trans commitment)
    have ofAccount : undone.header.id = network.id :=
      of_decide_eq_true (List.mem_filter.mp undoneMember).2
    have newer := older (by rw [← ofId, sameHeader, ofAccount])
    rw [sameHeader, isMin] at newer
    have sameNonce : old.header.nonce = network.nonce := congrArg AccountHeader.nonce equal
    omega
  · intro absent
    refine holds.congr ?_
    have nothing : db.undoneNonces states network.id = [] := by
      refine List.eq_nil_iff_forall_not_mem.mpr fun nonce listed => ?_
      obtain ⟨row, member, discarded, -⟩ := (nonces nonce).mp listed
      obtain ⟨state, given, same⟩ := List.mem_map.mp discarded
      exact absent state given row member same.symm
    unfold Database.undoAccountState
    split
    · exact .refl db network.id
    · exact undoStates_sameLatest collisionFree ordered.keyed states nothing

end Library

end Database

/-! ### A discard after an update -/

namespace Sample

open Database

/-- The header after the account was funded. -/
def onceFunded : AccountHeader :=
  (setEntry 24 ((∅ : ExtTreeMap AccountId ℤ).insert 9 5)).finalAccount

/-- A second transaction, which adds to the asset. -/
def fundAgain : ExecutedTransaction where
  initialAccount := onceFunded
  finalAccount := { onceFunded with nonce := 3, vaultRoot := 75 }
  accountDelta := { AccountDelta.empty with
    fungible := (∅ : ExtTreeMap AccountId ℤ).insert 9 3 }
  sameAccount := rfl

/-- The state that another device brought the account to. -/
def rivalAccount : Account :=
  { mapAccount with nonce := 4 }

/-- Two transactions, of which only the first is committed. -/
def fundTwice : List StoreOperation :=
  [.insertAccount mapAccount,
    .applyTransaction (setEntry 24 ((∅ : ExtTreeMap AccountId ℤ).insert 9 5)),
    .applyTransaction fundAgain,
    .applyStateSync ⟨[], [7], [], []⟩]

/-- The final state of the second transaction. -/
def discardedState : AccountId × Word :=
  (7, fundAgain.finalAccount.toCommitment)

theorem staleFor_rivalAccount : StaleFor [discardedState] rivalAccount := by
  intro state given
  obtain rfl := List.mem_singleton.mp given
  exact ⟨fundAgain.finalAccount, rfl, rfl, fun _ => by decide⟩

/-- The account is replaced from the network while the second transaction is pending. -/
theorem fundTwice_replaced (test : Database → Bool)
    (passes : Fallible.succeedsWith ((fundTwice ++
      [StoreOperation.updateAccount rivalAccount]).foldlM performRising Database.empty
        AccountSmtForest.new) (fun db _ => test db) = true) :
    ∃ db forest, RisingRun db forest ∧ db.HoldsState rivalAccount ∧ test db = true := by
  obtain ⟨db, forest, performed, passed⟩ := Fallible.exists_of_succeedsWith passes
  refine ⟨db, forest, RisingRun.start.foldlM _ performed, ?_, passed⟩
  rw [List.foldlM_append] at performed
  obtain ⟨middle, middleForest, -, replaced⟩ := Fallible.bind_eq_result_ok.mp performed
  rw [List.foldlM_cons] at replaced
  obtain ⟨_, _, updated, finished⟩ := Fallible.bind_eq_result_ok.mp replaced
  cases finished
  unfold performRising at updated
  split at updated
  · refine updateAccountState_holdsState (fun key asset stored => ?_) (updateAccount_eq_ok updated)
    cases stored
  · cases updated

/-- Once the history is pruned, the discard leaves the state from the network alone. -/
theorem undoAccountState_holdsState_pruned :
    ∃ db forest, RisingRun db forest ∧ db.HoldsState rivalAccount ∧
      (db.undoAccountState forest [discardedState]).1.HoldsState rivalAccount := by
  obtain ⟨db, forest, run, holds, pruned⟩ := fundTwice_replaced
    (fun db => ((db.pruneAccountHistory ∅ 7 4).historyOf 7).all fun row =>
      row.header.toCommitment ≠ discardedState.2) (by decide +kernel)
  have prunedHolds : (db.pruneAccountHistory ∅ 7 4).HoldsState rivalAccount :=
    holds.congr ⟨rfl, fun _ => rfl, fun _ => rfl, fun _ => rfl⟩
  have prunedRun : RisingRun (db.pruneAccountHistory ∅ 7 4) forest :=
    run.step (show db.NeverLowers (.pruneAccountHistory ∅ 7 4) from trivial) rfl
  refine ⟨_, forest, prunedRun, prunedHolds, ?_⟩
  refine (undoAccountState_holdsState_iff collisionFree prunedRun prunedHolds
    staleFor_rivalAccount).mpr fun state given row member => ?_
  obtain rfl := List.mem_singleton.mp given
  exact of_decide_eq_true (List.all_eq_true.mp pruned row member)

/-- The discard of the second transaction takes the account back to the first one. -/
theorem undoAccountState_loses_networkState :
    ∃ db forest, RisingRun db forest ∧ db.HoldsState rivalAccount ∧
      StaleFor [discardedState] rivalAccount ∧
      (db.undoAccountState forest [discardedState]).1.latestAccountHeaders[rivalAccount.id]?.map
        HeaderRow.header = some onceFunded ∧
      ¬(db.undoAccountState forest [discardedState]).1.HoldsState rivalAccount := by
  obtain ⟨db, forest, run, holds, undone⟩ := fundTwice_replaced
    (fun db => (db.undoStates [discardedState]).latestAccountHeaders[
      rivalAccount.id]?.map HeaderRow.header = some onceFunded) (by decide +kernel)
  have header := of_decide_eq_true undone
  refine ⟨db, forest, run, holds, staleFor_rivalAccount, header, fun kept => ?_⟩
  have same : onceFunded = rivalAccount.toHeader :=
    Option.some.inj (header.symm.trans kept.header)
  exact absurd (congrArg AccountHeader.nonce same) (by decide)

end Sample

end MidenClient
