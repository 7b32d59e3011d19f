/-
This file follows the root lists of all accounts through the transactions of a run
(`apply_transaction` in `sqlite-store/src/transaction.rs`).

A transaction that fails before it stages roots leaves the lists as they were. One that is
committed stages a list for its final state, which is right exactly when the search for the
old map roots hits neither the vault root nor the entry of another map for good.
-/

import MidenClient.Store.Atomicity

namespace MidenClient

open Std (ExtTreeMap)

section Library

variable [ProtocolLibrary]

namespace Database

variable {db next : Database} {forest last : AccountSmtForest} {refusals : Refusals}
  {transaction : ExecutedTransaction}

/-- A transaction that no statement refused is the one without statements. -/
theorem applyTransaction_of_delta
    (applied : db.applyTransactionDelta refusals transaction forest = .ok next last) :
    db.applyTransaction transaction forest = .ok next last := by
  obtain ⟨prepared, _, prepares, staged⟩ := Fallible.bind_eq_result_ok.mp applied
  obtain ⟨_, first, started, written⟩ := Fallible.bind_eq_result_ok.mp prepares
  obtain ⟨headed, second, inserted, changing⟩ := Fallible.bind_eq_result_ok.mp written
  obtain ⟨changes, third, changed, storing⟩ := Fallible.bind_eq_result_ok.mp changing
  obtain ⟨_, fourth, stored, updating⟩ := Fallible.bind_eq_result_ok.mp storing
  obtain ⟨newVaultRoot, fifth, updated, rest⟩ := Fallible.bind_eq_result_ok.mp updating
  have started := (ForestM.liftExcept_eq_ok.mp started).2
  have stored := (ForestM.liftExcept_eq_ok.mp stored).2
  subst started stored
  split at rest
  swap
  · cases rest
  rename_i same
  obtain ⟨registered, sixth, found, computing⟩ := Fallible.bind_eq_result_ok.mp rest
  obtain ⟨slots, seventh, computed, writing⟩ := Fallible.bind_eq_result_ok.mp computing
  obtain ⟨_, eighth, wrote, ended⟩ := Fallible.bind_eq_result_ok.mp writing
  have unchanged := (ForestM.liftExcept_eq_ok.mp wrote).2
  subst unchanged
  cases ended
  have vaulted : headed.applyAccountVaultDelta transaction.initialAccount transaction.finalAccount
      (db.getAccountFungibleAssetsForDelta transaction.finalAccount.id transaction.accountDelta)
      transaction.accountDelta second = .ok (headed.persistVaultDelta transaction.finalAccount.id
        transaction.finalAccount.nonce changes.removedVaultKeys changes.assets) fifth := by
    refine Fallible.bind_eq_result_ok.mpr ⟨changes, _, changed, ?_⟩
    refine Fallible.bind_eq_result_ok.mpr ⟨newVaultRoot, fifth, updated, ?_⟩
    rw [if_pos same]
    rfl
  refine Fallible.bind_eq_result_ok.mpr ⟨headed, _, inserted, ?_⟩
  refine Fallible.bind_eq_result_ok.mpr ⟨_, fifth, vaulted, ?_⟩
  refine Fallible.bind_eq_result_ok.mpr ⟨registered, _, found, ?_⟩
  exact Fallible.bind_eq_result_ok.mpr ⟨slots, _, computed, staged⟩

omit [ProtocolLibrary] in
/-- Whether the lists are right depends on the registered roots only. -/
theorem AllRootsCorrect.congr (correct : db.AllRootsCorrect forest)
    (same : last.accountRoots = forest.accountRoots) : db.AllRootsCorrect last := by
  intro accountId stored
  obtain ⟨row, rest, found, listed, inStep⟩ := correct accountId stored
  exact ⟨row, rest, found, by rwa [AccountSmtForest.getRoots, same], inStep⟩

end Database

namespace SqliteStore

variable [NoteLibrary] {refusals : Refusals} {start store : Store Database}
  {update : TransactionStoreUpdate}

/-- The statements of a transaction update after its roots are staged. -/
def statementsAfterStaging (update : TransactionStoreUpdate) : List Statement :=
  (transactionWrites update).map Prod.fst ++ [.commit]

/-- A transaction that stages roots, and that no later statement refuses, is applied. -/
theorem applyTransaction_of_accepted (stages : StagesRoots refusals store update)
    (accepted : ForestM.Accepts refusals (statementsAfterStaging update)) :
    ∃ next last after, store.tables.accounts.applyTransaction update.executedTransaction
        store.forest = .ok next last ∧
      applyTransaction refusals update store = .ok () after ∧
      after.tables.accounts = next ∧ after.forest = last := by
  obtain ⟨places, free, next, last, applied⟩ := stages
  simp only [ForestM.Accepts, List.forall_mem_cons, List.not_mem_nil, false_implies,
    implies_true, and_true] at places
  obtain ⟨assets, roots, begun, recorded⟩ := places
  obtain ⟨writes, commits⟩ := List.forall_mem_append.mp accepted
  obtain ⟨tables, written, same⟩ : ∃ tables, ForestM.writeAll refusals (transactionWrites update)
      { upsertTransactionRecord update.record update.script store.tables with accounts := next }
      last = .ok tables last ∧ tables.accounts = next :=
    ⟨_, ForestM.writeAll_of_accepts writes _ last, transactionWrites_accounts update _⟩
  have body : transactionBody refusals update store.forestPoisoned store.tables store.forest =
      .ok tables last := by
    unfold transactionBody
    rw [Fallible.bind_of_result_ok (ForestM.statement_of_accepted recorded store.forest), free,
      Fallible.bind_of_result_ok (ForestM.lock_of_free store.forest)]
    exact (Fallible.bind_of_result_ok applied _).trans written
  refine ⟨next, last, { store with tables := tables, forest := last },
    Database.applyTransaction_of_delta applied, ?_, same, rfl⟩
  unfold applyTransaction
  rw [Fallible.bind_of_result_ok (StoreM.read_of_accepted assets store),
    Fallible.bind_of_result_ok (StoreM.read_of_accepted roots store), Fallible.get_bind]
  refine (StoreM.inTransaction_of_ok begun body).trans ?_
  rw [commits .commit List.mem_cons_self]

/-- A call that leaves all lists right: it fails before it stages roots, or it is committed and its
search for the old map roots takes the entry of nothing else for good. -/
def KeepsLists (refusals : Refusals) (store : Store Database) (update : TransactionStoreUpdate) :
    Prop :=
  ¬StagesRoots refusals store update ∨
    ForestM.Accepts refusals (statementsAfterStaging update) ∧
      update.executedTransaction.KeepsVaultEntry store.tables.accounts ∧
      update.executedTransaction.KeepsEmptyRoots store.tables.accounts

/-- A run of transactions of any accounts, each of which was executed on the stored account and
leaves all lists right. Calls can fail. -/
inductive TransactionRun (start : Store Database) : Store Database → Prop
  | start : TransactionRun start start
  | step {store : Store Database} (run : TransactionRun start store) (refusals : Refusals)
      (update : TransactionStoreUpdate)
      (executed : update.executedTransaction.ExecutedOn store.tables.accounts)
      (keeps : KeepsLists refusals store update) :
      TransactionRun start (Fallible.finalState (applyTransaction refusals update store))

theorem allRootsCorrect_call (correct : store.tables.accounts.AllRootsCorrect store.forest)
    (executed : update.executedTransaction.ExecutedOn store.tables.accounts)
    (keeps : KeepsLists refusals store update) :
    let after := Fallible.finalState (applyTransaction refusals update store)
    after.tables.accounts.AllRootsCorrect after.forest := by
  dsimp only
  by_cases stages : StagesRoots refusals store update
  · obtain ⟨accepted, keepsVault, keepsEmpty⟩ := keeps.resolve_left (not_not.mpr stages)
    obtain ⟨next, last, after, applied, ran, rfl, rfl⟩ :=
      applyTransaction_of_accepted stages accepted
    rw [ran]
    exact Database.allRootsCorrect_step correct executed keepsVault keepsEmpty applied
  · rcases applyTransaction_cases refusals update store with
      ⟨staged, -⟩ | ⟨-, reason, after, failed, unchanged⟩
    · exact absurd staged stages
    · rw [failed]
      show after.tables.accounts.AllRootsCorrect after.forest
      rw [unchanged.tables]
      exact correct.congr unchanged.registration.accountRoots

/-- After any run of transactions that each leave all lists right, they are right; and the next
transaction stages a list that is right for its final state exactly when it keeps the vault root in
front and the empty roots in the list. -/
theorem run_correctRoots (correct : start.tables.accounts.AllRootsCorrect start.forest)
    (run : TransactionRun start store) :
    store.tables.accounts.AllRootsCorrect store.forest ∧
    ∀ (refusals : Refusals) (transaction : ExecutedTransaction) (next : Database)
      (last : AccountSmtForest), transaction.ExecutedOn store.tables.accounts →
      store.tables.accounts.applyTransactionDelta refusals transaction store.forest =
        .ok next last →
      (next.CorrectRoots last transaction.finalAccount.id ↔
        transaction.KeepsVaultEntry store.tables.accounts ∧
          transaction.KeepsEmptyRoots store.tables.accounts) := by
  have reached : store.tables.accounts.AllRootsCorrect store.forest := by
    induction run with
    | start => exact correct
    | step _ refusals update executed keeps inductionHypothesis =>
      exact allRootsCorrect_call inductionHypothesis executed keeps
  refine ⟨reached, fun refusals transaction next last executed applied => ?_⟩
  exact Database.correctRoots_applied_iff (reached _ (Database.executedOn_present executed))
    executed
    (Database.applyTransaction_of_delta applied)

end SqliteStore

end Library

/-! ### An entry that is taken -/

namespace Sample

open Database

/-- No transaction can begin. -/
def refuseBegin : Refusals :=
  refusing [.begin]

/-- The store after a funding that could not begin, and one that was committed. -/
def fundedStore : Store Database :=
  Fallible.finalState (SqliteStore.applyTransaction (fun _ => none) fundUpdate
    (Fallible.finalState (SqliteStore.applyTransaction refuseBegin fundUpdate
      (opened mapInserted mapRegistered))))

/-- A vault that is funded while the map gets its first entry stays in front. -/
theorem run_correctRoots_funded :
    SqliteStore.TransactionRun (opened mapInserted mapRegistered) fundedStore ∧
      fundedStore.forest.getRoots 7 = some [24, 12] ∧
      fundedStore.tables.accounts.AllRootsCorrect fundedStore.forest := by
  have executed : fundUpdate.executedTransaction.ExecutedOn mapInserted :=
    executedOn_mapInserted rfl rfl
  have refused : ¬SqliteStore.StagesRoots refuseBegin (opened mapInserted mapRegistered)
      fundUpdate := fun stages => by cases stages.1 .begin (by decide)
  have run : SqliteStore.TransactionRun (opened mapInserted mapRegistered) fundedStore := by
    refine .step (.step .start refuseBegin fundUpdate executed (Or.inl refused)) _ fundUpdate
      executed (Or.inr ⟨fun _ _ => rfl, ?_, ?_⟩)
    · show frontAfter _ _ _ = _
      decide +kernel
    · show EmptyRoots.lost _ = 0
      decide +kernel
  exact ⟨run, by decide +kernel,
    (SqliteStore.run_correctRoots (by exact mapInserted_allRootsCorrect) run).1⟩

/-- A transaction that funds the vault and adds a second map. -/
def addMap : ExecutedTransaction :=
  { setEntry 24 ((∅ : ExtTreeMap AccountId ℤ).insert 9 5) with
    accountDelta := { mapDelta ((∅ : ExtTreeMap AccountId ℤ).insert 9 5) with
      storage := (∅ : ExtTreeMap StorageSlotName StorageSlotDelta).insert 4
        (.map ((∅ : ExtTreeMap StorageMapKey Word).insert 5 6)) } }

/-- An empty vault has the root of an empty map, so the first entry of the map replaces it. And a
map that is added next to an empty one takes its entry. -/
theorem not_correctRoots_sharedRoot :
    mapInserted.CorrectRoots mapRegistered 7 ∧
      ((setEntry 0 ∅).ExecutedOn mapInserted ∧
        ∃ next last, mapInserted.applyTransaction (setEntry 0 ∅) mapRegistered = .ok next last ∧
          last.getRoots 7 = some [12, 0] ∧ ¬next.CorrectRoots last 7) ∧
      addMap.ExecutedOn mapInserted ∧
        ∃ next last, mapInserted.applyTransaction addMap mapRegistered = .ok next last ∧
          last.getRoots 7 = some [24, 12] ∧ ¬next.CorrectRoots last 7 := by
  have correct : mapInserted.CorrectRoots mapRegistered 7 := by
    refine mapInserted_allRootsCorrect 7 ?_
    rw [mapInserted_latest]
    exact Option.some_ne_none _
  have entrySet : (setEntry 0 ∅).ExecutedOn mapInserted := executedOn_mapInserted rfl rfl
  have mapAdded : addMap.ExecutedOn mapInserted := executedOn_mapInserted rfl rfl
  obtain ⟨first, firstLast, setFirst, firstRoots⟩ := Fallible.exists_of_succeedsWith
    (show Fallible.succeedsWith (mapInserted.applyTransaction (setEntry 0 ∅) mapRegistered)
      (fun _ last => last.getRoots 7 = some [12, 0]) = true by decide +kernel)
  obtain ⟨second, secondLast, added, secondRoots⟩ := Fallible.exists_of_succeedsWith
    (show Fallible.succeedsWith (mapInserted.applyTransaction addMap mapRegistered)
      (fun _ last => last.getRoots 7 = some [24, 12]) = true by decide +kernel)
  refine ⟨correct, ⟨entrySet, first, firstLast, setFirst, of_decide_eq_true firstRoots, ?_⟩,
    mapAdded, second, secondLast, added, of_decide_eq_true secondRoots, ?_⟩
  · intro after
    have keeps : frontAfter _ _ _ = _ :=
      ((correctRoots_applied_iff correct entrySet setFirst).mp after).1
    exact absurd keeps (by decide +kernel)
  · intro after
    have keeps : EmptyRoots.lost _ = 0 :=
      ((correctRoots_applied_iff correct mapAdded added).mp after).2
    exact absurd keeps (by decide +kernel)

end Sample

end MidenClient
