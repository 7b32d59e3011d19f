/-
This file says when replacing the roots of an account panics
(`AccountSmtForest::replace_roots` in `rust-client/src/store/smt_forest.rs`).

Every transaction that gets so far as to stage its roots pushes the old roots of its account
on a stack, and leaves them there when a later statement or the commit is refused. A
synchronization pops one entry for every discarded transaction, and clears the stack with a
committed one; opening the store forgets all stacks. Replacing the roots of an account from
the network asserts that there is no stack, but no caller waits until the local transactions
of the account are settled.
-/

import MidenClient.Store.AccountCalls

namespace MidenClient

open Std (ExtTreeMap)

section Library

variable [ProtocolLibrary]

/-! ### What is pending after an operation on the forest -/

/-- The unsettled transactions of an account after a synchronization, which discards some of them
or commits. -/
def SyncStoreUpdate.unsettledAfter (update : SyncStoreUpdate) (accountId : AccountId)
    (count : ℕ) : ℕ :=
  if accountId ∈ update.committedAccounts then 0
  else count - update.discardedStates.countP fun state => state.1 = accountId

omit [ProtocolLibrary] in
theorem AccountSmtForest.HasPending.settle {forest : AccountSmtForest} {accountId : AccountId}
    {count : ℕ} (pending : forest.HasPending accountId count) (update : SyncStoreUpdate) :
    (forest.settle update.discardedStates update.committedAccounts).HasPending accountId
      (update.unsettledAfter accountId count) :=
  (pending.discardStates update.discardedStates).commitAccounts update.committedAccounts

namespace Database

variable {db next : Database} {forest last : AccountSmtForest}

/-- Roots are staged only for an account that is registered. -/
theorem applyTransactionDelta_registered {refusals : Refusals} {transaction : ExecutedTransaction}
    (applied : db.applyTransactionDelta refusals transaction forest = .ok next last) :
    forest.getRoots transaction.finalAccount.id ≠ none := by
  obtain ⟨prepared, _, prepares, -⟩ := Fallible.bind_eq_result_ok.mp applied
  obtain ⟨_, first, started, written⟩ := Fallible.bind_eq_result_ok.mp prepares
  obtain ⟨_, second, headed, changing⟩ := Fallible.bind_eq_result_ok.mp written
  obtain ⟨_, third, changed, storing⟩ := Fallible.bind_eq_result_ok.mp changing
  obtain ⟨_, fourth, stored, updating⟩ := Fallible.bind_eq_result_ok.mp storing
  obtain ⟨_, grown, updated, rest⟩ := Fallible.bind_eq_result_ok.mp updating
  have unread : fourth = forest :=
    (ForestM.liftExcept_eq_ok.mp stored).2.trans <| (ForestM.liftExcept_eq_ok.mp changed).2.trans <|
      (ForestM.liftExcept_eq_ok.mp headed).2.trans (ForestM.liftExcept_eq_ok.mp started).2
  rw [unread] at updated
  have same := AccountSmtForest.updateAssetNodes_sameRegistration
    (ForestM.update_eq_ok.mp updated) (.refl _)
  split at rest
  swap
  · cases rest
  obtain ⟨registered, _, found, -⟩ := Fallible.bind_eq_result_ok.mp rest
  have listed := (ForestM.registeredRoots_eq_ok found).1
  rw [AccountSmtForest.getRoots, same.accountRoots] at listed
  rw [AccountSmtForest.getRoots, transaction.sameAccount]
  exact fun absent => Option.some_ne_none _ (listed.symm.trans absent)

/-- A store can always be opened, and nothing is pending then. -/
theorem initializeForest_unstaged (db : Database) :
    ∃ opened, db.initializeForest = .ok opened ∧
      ∀ accountId : AccountId, opened.HasPending accountId 0 := by
  have general : ∀ (rows : List HeaderRow) (start : AccountSmtForest),
      (∀ accountId : AccountId, start.HasPending accountId 0) →
      ∃ opened, rows.foldlM (fun forest row =>
        forest.insertAndRegisterAccountState (db.storedAccount row)) start = .ok opened ∧
        ∀ accountId : AccountId, opened.HasPending accountId 0 := by
    intro rows
    induction rows with
    | nil => exact fun start unstaged => ⟨start, rfl, unstaged⟩
    | cons row rest inductionHypothesis =>
      intro start unstaged
      rcases start.update_register_cases (db.storedAccount row) with
        ⟨-, next, registered, kept, -⟩ | ⟨pending, -⟩
      · obtain ⟨opened, ran, none_⟩ :=
          inductionHypothesis next fun accountId => (unstaged accountId).congr kept
        exact ⟨opened, Fallible.bind_eq_ok.mpr ⟨next, registered, ran⟩, none_⟩
      · exact absurd ((unstaged _).eq_none_iff.mpr rfl) pending
  exact general _ _ AccountSmtForest.hasPending_new

end Database

/-! ### Runs -/

namespace SqliteStore

/-- A call that changes the accounts of the store, or closes and opens it. -/
inductive StoreCall where
  | insertAccount (account : Account) (tag : NoteTagRecord)
  | update (call : UpdateCall)
  | pruneAccountHistory (foreignCodes : Finset Word) (accountId : AccountId) (upToNonce : ℕ)
  | reopen

variable [NoteLibrary]

/-- Opens the store with a forest that is built from the tables. -/
def reopen : StoreM Database Unit := fun store =>
  match store.tables.accounts.initializeForest with
  | .ok forest => .ok () { store with forest := forest, forestPoisoned := false }
  | .error reason => .error reason store

def StoreCall.run (refusals : Refusals) : StoreCall → StoreM Database Unit
  | .insertAccount account tag => SqliteStore.insertAccount refusals account tag
  | .update call => perform refusals call
  | .pruneAccountHistory foreignCodes accountId upToNonce =>
    SqliteStore.pruneAccountHistory refusals foreignCodes accountId upToNonce
  | .reopen => SqliteStore.reopen

/-- The store after a call, failed or not. -/
def callOn (store : Store Database) (operation : Refusals × StoreCall) : Store Database :=
  Fallible.finalState (operation.2.run operation.1 store)

/-- The store after calls on one that was never used. -/
def storeAfter (operations : List (Refusals × StoreCall)) : Store Database :=
  operations.foldl callOn AccountStore.new

/-- The unsettled transactions of an account after a call. -/
def unsettledAfter (accountId : AccountId) (store : Store Database) (count : ℕ)
    (refusals : Refusals) : StoreCall → ℕ
  | .update (.applyTransaction update) =>
    if StagesRoots refusals store update ∧
        update.executedTransaction.finalAccount.id = accountId then count + 1
    else count
  | .update (.applyStateSync update) =>
    if SettlesRoots refusals store update then update.unsettledAfter accountId count else count
  | .update (.updateAccount _) => count
  | .insertAccount _ _ => count
  | .pruneAccountHistory _ _ _ => count
  | .reopen => 0

/-- The transactions of an account that got so far as to stage roots since the store was opened, and
were neither discarded since nor followed by the commit of one of the account. -/
def unsettled (accountId : AccountId) (operations : List (Refusals × StoreCall)) : ℕ :=
  (operations.foldl (fun (state : Store Database × ℕ) operation =>
    (callOn state.1 operation, unsettledAfter accountId state.1 state.2 operation.1 operation.2))
      (AccountStore.new, 0)).2

variable {store : Store Database} {accountId : AccountId} {count : ℕ}

omit [NoteLibrary] in
theorem insertAccount_hasPending (refusals : Refusals) (account : Account) (tag : NoteTagRecord) :
    Fallible.Preserves (fun store : Store Database => store.forest.HasPending accountId count)
      (insertAccount refusals account tag) := by
  let invariant := fun forest : AccountSmtForest => forest.HasPending accountId count
  refine Fallible.Preserves.bind
    (@StoreM.inTransaction_preserves _ invariant refusals _ fun tables => ?_)
      fun _ => @StoreM.withForest_preserves _ invariant _ _ fun tables forest pending => ?_
  · refine (ForestM.liftExcept_preserves _ _).bind fun _ => ?_
    exact (ForestM.liftExcept_preserves _ _).bind fun _ => ForestM.writeAll_preserves _ _ _
  · rcases forest.update_register_cases account with ⟨-, next, -, kept, ran⟩ | ⟨-, panics⟩
    · rw [ran]
      exact pending.congr kept
    · rw [panics]
      exact pending

omit [ProtocolLibrary] [NoteLibrary] in
theorem pruneAccountHistory_hasPending (refusals : Refusals) (foreignCodes : Finset Word)
    (id : AccountId) (upToNonce : ℕ) :
    Fallible.Preserves (fun store : Store Database => store.forest.HasPending accountId count)
      (pruneAccountHistory refusals foreignCodes id upToNonce) :=
  @StoreM.inTransaction_preserves _ (fun forest => forest.HasPending accountId count) _ _
    fun tables => ForestM.writeAll_preserves refusals _ tables

/-- One call changes the number of pending entries as it changes the number of unsettled
transactions. -/
theorem callOn_hasPending (pending : store.forest.HasPending accountId count)
    (refusals : Refusals) (call : StoreCall) :
    (callOn store (refusals, call)).forest.HasPending accountId
      (unsettledAfter accountId store count refusals call) := by
  cases call with
  | insertAccount account tag => exact insertAccount_hasPending refusals account tag store pending
  | update call =>
    cases call with
    | applyTransaction update =>
      rw [unsettledAfter]
      rcases applyTransaction_cases refusals update store with
        ⟨stages, grown, roots, forest, same⟩ | ⟨clean, stopped, last, fails, unchanged⟩
      · rw [show (callOn store (refusals, .update (.applyTransaction update))).forest = _
          from forest]
        have registered : grown.getRoots update.executedTransaction.finalAccount.id ≠ none := by
          obtain ⟨-, -, db, last, applied⟩ := stages
          rw [AccountSmtForest.getRoots, same.accountRoots]
          exact Database.applyTransactionDelta_registered applied
        have pushed := (pending.congr same.pendingOldRoots).stageRoots registered roots
        simpa only [stages, true_and] using pushed
      · rw [if_neg fun both => clean both.1]
        refine pending.congr ?_
        show (Fallible.finalState (applyTransaction refusals update store)).forest.pendingOldRoots =
          _
        rw [fails]
        exact unchanged.registration.pendingOldRoots
    | applyStateSync update =>
      rw [unsettledAfter]
      rcases applyStateSync_cases refusals update store with
        ⟨refuses, reason, -, fails⟩ | ⟨reaches, unstaged, -⟩
      · rw [if_neg refuses]
        show (Fallible.finalState (applyStateSync refusals update store)).forest.HasPending _ _
        rw [fails]
        exact pending
      · rw [if_pos reaches]
        exact (pending.settle update).congr unstaged
    | updateAccount account =>
      show (Fallible.finalState (updateAccount refusals account store)).forest.HasPending _ _
      rcases updateAccount_cases refusals account store with
        ⟨-, reason, -, fails⟩ | ⟨-, ⟨-, registered, -, -⟩ | ⟨-, panics⟩⟩
      · rw [fails]
        exact pending
      · obtain ⟨-, kept, -⟩ := AccountSmtForest.insertAndRegisterAccountState_eq_ok registered
        exact pending.congr kept
      · rw [panics]
        exact pending
  | pruneAccountHistory foreignCodes id upToNonce =>
    exact pruneAccountHistory_hasPending refusals foreignCodes id upToNonce store pending
  | reopen =>
    obtain ⟨opened, initialized, unstaged⟩ := store.tables.accounts.initializeForest_unstaged
    show (Fallible.finalState (SqliteStore.reopen store)).forest.HasPending _ _
    unfold SqliteStore.reopen
    rw [initialized]
    exact unstaged accountId

/-- After every run the stack of an account has one entry for every unsettled transaction of it. -/
theorem storeAfter_hasPending (operations : List (Refusals × StoreCall)) (accountId : AccountId) :
    (storeAfter operations).forest.HasPending accountId (unsettled accountId operations) := by
  have general : ∀ (operations : List (Refusals × StoreCall)) (store : Store Database) (count : ℕ),
      store.forest.HasPending accountId count →
      (operations.foldl callOn store).forest.HasPending accountId
        (operations.foldl (fun (state : Store Database × ℕ) operation =>
          (callOn state.1 operation,
            unsettledAfter accountId state.1 state.2 operation.1 operation.2))
              (store, count)).2 := by
    intro operations
    induction operations with
    | nil => exact fun store count pending => pending
    | cons operation rest inductionHypothesis =>
      intro store count pending
      exact inductionHypothesis _ _ (callOn_hasPending pending _ _)
  exact general operations _ 0 (AccountSmtForest.hasPending_new accountId)

/-- After every run, updating an account panics exactly when it gets so far as to replace the roots
and a transaction of the account is unsettled. A synchronization panics exactly when it gets to the
forest and has to replace the roots of an account with transactions that it does not settle. -/
theorem replaceRoots_panics_iff (operations : List (Refusals × StoreCall)) (refusals : Refusals) :
    (∀ account : Account,
      (∃ last, updateAccount refusals account (storeAfter operations) =
          .error (.stagedChangesPending account.id) last) ↔
        ReplacesRoots refusals (storeAfter operations) account ∧
          0 < unsettled account.id operations) ∧
    ∀ update : SyncStoreUpdate,
      (∃ id last, applyStateSync refusals update (storeAfter operations) =
          .error (.stagedChangesPending id) last) ↔
        SettlesRoots refusals (storeAfter operations) update ∧
          ∃ account ∈ syncReplaced refusals (storeAfter operations) update,
            0 < update.unsettledAfter account.id (unsettled account.id operations) := by
  have ordinary : ∀ {reason : StoreError}, reason.IsOrdinary ∨ reason = .lockPoisoned →
      ∀ id, reason ≠ .stagedChangesPending id := by
    rintro reason (ordinary | rfl) id same
    · rw [same] at ordinary
      cases ordinary
    · cases same
  constructor
  · intro account
    have pending := (storeAfter_hasPending operations account.id).eq_none_iff
    rcases updateAccount_cases refusals account (storeAfter operations) with
      ⟨refuses, reason, other, fails⟩ | ⟨reaches, ⟨absent, -, -, errors⟩ | ⟨stacked, panics⟩⟩
    · refine iff_of_false ?_ fun both => refuses both.1
      rintro ⟨last, panics⟩
      cases fails.symm.trans panics
      exact ordinary other _ rfl
    · refine iff_of_false ?_ fun both => both.2.ne' (pending.mp absent)
      rintro ⟨last, panics⟩
      exact ordinary (Or.inl (errors _ _ panics).1) _ rfl
    · exact iff_of_true ⟨_, panics⟩
        ⟨reaches, Nat.pos_of_ne_zero fun none_ => stacked (pending.mpr none_)⟩
  · intro update
    have settled : ((storeAfter operations).forest.settle update.discardedStates
        update.committedAccounts).Settled (syncReplaced refusals (storeAfter operations) update) ↔
          ¬∃ account ∈ syncReplaced refusals (storeAfter operations) update,
            0 < update.unsettledAfter account.id (unsettled account.id operations) := by
      unfold AccountSmtForest.Settled
      push Not
      refine forall₂_congr fun account _ => ?_
      rw [((storeAfter_hasPending operations account.id).settle update).eq_none_iff]
      exact Nat.le_zero.symm
    rcases applyStateSync_cases refusals update (storeAfter operations) with
      ⟨refuses, reason, other, fails⟩ |
        ⟨reaches, -, ⟨unstaged, -, -, errors⟩ | ⟨stacked, id, last, panics, -⟩⟩
    · refine iff_of_false ?_ fun both => refuses both.1
      rintro ⟨id, last, panics⟩
      cases fails.symm.trans panics
      exact ordinary other _ rfl
    · refine iff_of_false ?_ fun both => settled.mp unstaged both.2
      rintro ⟨id, last, panics⟩
      exact ordinary (Or.inl (errors _ _ panics).1) _ rfl
    · exact iff_of_true ⟨id, last, panics⟩
        ⟨reaches, not_not.mp fun none_ => stacked (settled.mpr none_)⟩

end SqliteStore

end Library

/-! ### An update before a transaction is settled -/

namespace Sample

open SqliteStore

/-- The account is inserted and funded, with the given answers of the database to the second
update. -/
def fundInserted (refusals : Refusals) : List (Refusals × StoreCall) :=
  [(fun _ => none, .insertAccount mapAccount ⟨7, .account 7⟩),
    (refusals, .update (.applyTransaction fundUpdate))]

/-- A synchronization that commits the funding. -/
def commitFund : SyncStoreUpdate :=
  { sameAccountSync with
    transactionUpdates := .new [{ fundUpdate.record with status := .committed 5 0 }]
    updatedPublicAccounts := [] }

/-- The account as the network has it after transactions of another device. -/
def networkAccount : Account :=
  { mapAccount with nonce := 3 }

def networkSync : SyncStoreUpdate :=
  { sameAccountSync with updatedPublicAccounts := [networkAccount] }

/-- After the transaction was committed the roots are replaced without a panic. -/
theorem replaceRoots_committed :
    ReplacesRoots (fun _ => none) (storeAfter (fundInserted (fun _ => none) ++
        [(fun _ => none, .update (.applyStateSync commitFund))])) networkAccount ∧
      ¬∃ last, updateAccount (fun _ => none) networkAccount
        (storeAfter (fundInserted (fun _ => none) ++
          [(fun _ => none, .update (.applyStateSync commitFund))])) =
        .error (.stagedChangesPending networkAccount.id) last := by
  refine ⟨⟨fun _ _ => rfl, by decide +kernel, by decide +kernel⟩, fun panics => ?_⟩
  have pending := (((replaceRoots_panics_iff _ _).1 networkAccount).mp panics).2
  exact absurd pending (by decide +kernel)

/-- An update from the network while the transaction is pending panics, and so does a
synchronization that brings this update. So does an update after a transaction that was never
applied, because its commit was refused. -/
theorem replaceRoots_panics_pending :
    (∃ last, updateAccount (fun _ => none) networkAccount
        (storeAfter (fundInserted fun _ => none)) =
      .error (.stagedChangesPending networkAccount.id) last) ∧
    (∃ last, applyStateSync (fun _ => none) networkSync
        (storeAfter (fundInserted fun _ => none)) =
      .error (.stagedChangesPending networkAccount.id) last) ∧
    ∃ last, updateAccount (fun _ => none) networkAccount
        (storeAfter (fundInserted refuseCommit)) =
      .error (.stagedChangesPending networkAccount.id) last :=
  ⟨Fallible.exists_of_failsWith (by decide +kernel),
    Fallible.exists_of_failsWith (by decide +kernel),
    Fallible.exists_of_failsWith (by decide +kernel)⟩

end Sample

end MidenClient
