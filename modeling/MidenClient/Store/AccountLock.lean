/-
This file says when a locked account stays locked
(`rust-client/src/account/mod.rs`, `rust-client/src/transaction/mod.rs` and the two stores).

No header is written with a lock. The lock survives because the client hands no transaction of a
locked account to the store, and because a lock also marks the states that a rollback restores.
What is left are the ways to lose the account itself, and the states that the network sends.
-/

import MidenClient.Account.AddressTags
import MidenClient.Idxdb.LockedRows
import MidenClient.Sqlite.LockedRows

namespace MidenClient

open Std (ExtTreeMap)

namespace AccountCallM

variable {Accounts : Type} {invariant : Store Accounts → Prop}

theorem finalState_store (operation : StoreM Accounts Unit) (start : Store Accounts) :
    Fallible.finalState (AccountCallM.store operation start) =
      Fallible.finalState (operation start) := by
  unfold AccountCallM.store
  cases operation start with
  | ok _ after => rfl
  | error reason after => rfl

theorem store_preserves {operation : StoreM Accounts Unit}
    (keeps : Fallible.Preserves invariant operation) :
    Fallible.Preserves invariant (AccountCallM.store operation) := by
  intro start holds
  show invariant (Fallible.finalState (AccountCallM.store operation start))
  rw [finalState_store]
  exact keeps start holds

theorem check_preserves (checked : Except AddressError Unit) :
    Fallible.Preserves invariant (AccountCallM.check checked) := by
  intro store holds
  unfold AccountCallM.check
  cases checked with
  | ok _ => exact holds
  | error reason => exact holds

end AccountCallM

namespace AccountStore

variable {Accounts : Type} [AccountStore Accounts]

/-- The latest header of the account is marked locked. -/
def IsLocked (store : Store Accounts) (accountId : AccountId) : Prop :=
  ∃ row, (latestAccountHeaders store.tables.accounts)[accountId]? = some row ∧ row.locked = true

/-- The operation keeps an invariant of the account tables. -/
def Keeps (invariant : Accounts → Prop) (operation : StoreM Accounts Unit) : Prop :=
  Fallible.Preserves (fun store => invariant store.tables.accounts) operation

/-- An invariant of the account tables that the store keeps, as long as the client writes only
accounts that it may write and its syncs are safe. The other accounts are locked. -/
structure KeptByStore (invariant : Accounts → Prop) (may : AccountId → Prop)
    (safe : Refusals → SyncStoreUpdate → Store Accounts → Prop) : Prop where
  blocked : ∀ (store : Store Accounts) (id : AccountId), invariant store.tables.accounts →
    ¬may id → IsLocked store id
  addNoteTag : ∀ refusals record, Keeps invariant (addNoteTag refusals record)
  insertAccount : ∀ refusals account tag, may account.id →
    Keeps invariant (insertAccount refusals account tag)
  applyTransaction : ∀ refusals (transaction : TransactionStoreUpdate),
    (∀ account, transaction.fullState = some account →
      account.id = transaction.executedTransaction.finalAccount.id) →
    may transaction.executedTransaction.finalAccount.id →
      Keeps invariant (update refusals (.applyTransaction transaction))
  updateAccount : ∀ refusals account, may account.id →
    Keeps invariant (update refusals (.updateAccount account))
  applyStateSync : ∀ refusals synced store, safe refusals synced store →
    invariant store.tables.accounts → invariant (Fallible.finalState
      (update refusals (.applyStateSync synced) store)).tables.accounts
  pruneAccountHistory : ∀ refusals foreignCodes accountId upToNonce,
    Keeps invariant (pruneAccountHistory refusals foreignCodes accountId upToNonce)

/-- A call replaces no account that may not be written, and its sync is safe. -/
def Harmless (may : AccountId → Prop)
    (safe : Refusals → SyncStoreUpdate → Store Accounts → Prop) (store : Store Accounts)
    (operation : Refusals × AccountCall) : Prop :=
  match operation.2 with
  | .addAccount _ account overwrite => overwrite = true → may account.id
  | .applyStateSync synced => safe operation.1 synced store
  | _ => True

variable [AddressLibrary] [ProtocolLibrary] {invariant : Accounts → Prop} {may : AccountId → Prop}
  {safe : Refusals → SyncStoreUpdate → Store Accounts → Prop}

/-! ### One call -/

omit [AccountStore Accounts] [AddressLibrary] [ProtocolLibrary] in
theorem read_keeps (refusals : Refusals) (place : Statement) :
    Keeps invariant (StoreM.read refusals place) :=
  StoreM.read_preserves_tables (fun tables => invariant tables.accounts) refusals place

omit [ProtocolLibrary] in
theorem addNewAccount_keeps (kept : KeptByStore invariant may safe) (refusals : Refusals)
    (node : AddressNode) {account : Account} (mayWrite : may account.id) :
    Fallible.Preserves (fun store : Store Accounts => invariant store.tables.accounts)
      (addNewAccount refusals node account) := by
  refine (Fallible.Preserves.get _).bind fun _ => ?_
  refine (AccountCallM.check_preserves _).bind fun _ => ?_
  refine (Fallible.Preserves.get _).bind fun _ => ?_
  refine (AccountCallM.check_preserves _).bind fun _ => ?_
  refine (AccountCallM.store_preserves (kept.addNoteTag refusals _)).bind fun _ => ?_
  exact AccountCallM.store_preserves (kept.insertAccount refusals account _ mayWrite)

/-- An account that may not be written is tracked, so it is not added again. -/
theorem addAccount_keeps (kept : KeptByStore invariant may safe) (refusals : Refusals)
    (node : AddressNode) {account : Account} {overwrite : Bool}
    (mayOverwrite : overwrite = true → may account.id) :
    Fallible.Preserves (fun store : Store Accounts => invariant store.tables.accounts)
      (addAccount refusals node account overwrite) := by
  refine (AccountCallM.check_preserves _).bind fun _ => ?_
  refine (AccountCallM.store_preserves (read_keeps refusals _)).bind fun _ => ?_
  intro store holds
  rw [Fallible.get_bind]
  by_cases mayWrite : may account.id
  · cases (latestAccountHeaders store.tables.accounts)[account.id]? with
    | none => exact addNewAccount_keeps kept refusals node mayWrite store holds
    | some row =>
      exact ((AccountCallM.check_preserves _).bind fun _ => AccountCallM.store_preserves
        (kept.updateAccount refusals account mayWrite)) store holds
  · obtain ⟨row, found, -⟩ := kept.blocked store account.id holds mayWrite
    rw [found]
    cases overwrite with
    | true => exact absurd (mayOverwrite rfl) mayWrite
    | false => exact holds

omit [AddressLibrary] [ProtocolLibrary] in
/-- A locked account refuses transactions, and nothing is written. -/
theorem applyTransactionUpdate_of_isLocked {store : Store Accounts} {refusals : Refusals}
    {transaction : TransactionStoreUpdate}
    (locked : IsLocked store transaction.executedTransaction.finalAccount.id) :
    ∃ error, applyTransactionUpdate refusals transaction store = .error error store ∧
      (refusals .readHeader = none →
        error = .accountLocked transaction.executedTransaction.finalAccount.id) := by
  obtain ⟨row, found, isLocked⟩ := locked
  cases answer : refusals .readHeader with
  | some reason =>
    have refused : AccountCallM.store (StoreM.read refusals .readHeader) store =
        .error (.storeError reason) store := by
      unfold AccountCallM.store
      rw [StoreM.read_of_refused answer]
    exact ⟨_, Fallible.bind_eq_result_error.mpr (Or.inl refused), fun none_ => by cases none_⟩
  | none =>
    have read : AccountCallM.store (StoreM.read refusals .readHeader) store = .ok () store := by
      unfold AccountCallM.store
      rw [StoreM.read_of_accepted answer]
    refine ⟨_, ?_, fun _ => rfl⟩
    unfold applyTransactionUpdate
    rw [Fallible.bind_of_result_ok read, Fallible.get_bind, found]
    dsimp only
    rw [if_pos isLocked]
    rfl

omit [AddressLibrary] [ProtocolLibrary] in
theorem applyTransactionUpdate_keeps (kept : KeptByStore invariant may safe) (refusals : Refusals)
    {transaction : TransactionStoreUpdate}
    (ofAccount : ∀ account, transaction.fullState = some account →
      account.id = transaction.executedTransaction.finalAccount.id) :
    Fallible.Preserves (fun store : Store Accounts => invariant store.tables.accounts)
      (applyTransactionUpdate refusals transaction) := by
  by_cases mayWrite : may transaction.executedTransaction.finalAccount.id
  · refine (AccountCallM.store_preserves (read_keeps refusals _)).bind fun _ => ?_
    refine (Fallible.Preserves.get _).bind fun store => ?_
    split
    · exact fun _ holds => holds
    · split
      · exact fun _ holds => holds
      · exact AccountCallM.store_preserves (kept.applyTransaction refusals transaction ofAccount
          mayWrite)
  · intro store holds
    obtain ⟨error, refused, -⟩ :=
      @applyTransactionUpdate_of_isLocked _ _ store refusals _ (kept.blocked store _ holds mayWrite)
    rw [refused]
    exact holds

/-- A harmless call keeps the invariant, whether it fails or not. -/
theorem KeptByStore.after_perform (kept : KeptByStore invariant may safe) (store : Store Accounts)
    (operation : Refusals × AccountCall) (holds : invariant store.tables.accounts)
    (harmless : Harmless may safe store operation) :
    invariant (AccountStore.perform store operation).tables.accounts := by
  obtain ⟨refusals, call⟩ := operation
  cases call with
  | addAccount node account overwrite =>
    exact addAccount_keeps kept refusals node harmless store holds
  | applyTransaction transaction ofAccount =>
    exact applyTransactionUpdate_keeps kept refusals ofAccount store holds
  | applyStateSync synced =>
    show invariant (Fallible.finalState (AccountCallM.store _ store)).tables.accounts
    rw [AccountCallM.finalState_store]
    exact kept.applyStateSync refusals synced store harmless holds
  | pruneAccountHistory foreignCodes accountId upToNonce =>
    exact AccountCallM.store_preserves
      (kept.pruneAccountHistory refusals foreignCodes accountId upToNonce) store holds
  | reopen forest => exact holds

end AccountStore

section Library

variable [NoteLibrary] [ProtocolLibrary]

/-! ### Both stores -/

open AccountStore

namespace SqliteStore

/-- The headers stay keyed, whatever is written. -/
theorem keptByStore_keyed (collisionFree : CollisionFree) :
    KeptByStore Database.HeadersKeyed (fun _ => True) fun _ _ _ => True where
  blocked _ _ _ mayNot := absurd trivial mayNot
  addNoteTag _ record := addNoteTag_preserves record
  insertAccount _ account tag _ store keyed :=
    (onlyTouches_insertAccount collisionFree account tag store keyed).1
  applyTransaction _ transaction _ _ store keyed :=
    (onlyTouches_applyTransaction collisionFree transaction store keyed).1
  updateAccount _ account _ store keyed :=
    (onlyTouches_updateAccount collisionFree account store keyed).1
  applyStateSync _ synced store _ keyed :=
    applyStateSync_keyed collisionFree synced store keyed
  pruneAccountHistory _ _ _ _ :=
    pruneAccountHistory_preserves fun _ keyed => keyed

/-- A locked account is held by what is written of other accounts. -/
theorem keptByStore_held (collisionFree : CollisionFree) (accountId : AccountId) :
    KeptByStore (Held accountId) (· ≠ accountId) fun refusals synced store =>
      KeepsAccount refusals synced store accountId where
  blocked store id held isAccount := by
    rw [not_not.mp isAccount]
    exact held.marked.latest
  addNoteTag _ record := addNoteTag_preserves record
  insertAccount _ account tag away :=
    (onlyTouches_insertAccount collisionFree account tag).held away.symm
  applyTransaction _ transaction _ away :=
    (onlyTouches_applyTransaction collisionFree transaction).held away.symm
  updateAccount _ account away :=
    (onlyTouches_updateAccount collisionFree account).held away.symm
  applyStateSync _ _ _ keeps held :=
    applyStateSync_held collisionFree held keeps
  pruneAccountHistory _ foreignCodes prunedId upToNonce :=
    pruneAccountHistory_preserves fun db held => ⟨held.keyed,
      Database.pruneAccountHistory_marked foreignCodes prunedId upToNonce held.marked⟩

end SqliteStore

namespace IdxdbStore

theorem keptByStore_keyed :
    KeptByStore IdxdbDatabase.HeadersKeyed (fun _ => True) fun _ _ _ => True where
  blocked _ _ _ mayNot := absurd trivial mayNot
  addNoteTag _ record := keepsAccounts_addNoteTag record
  insertAccount _ account _ _ :=
    keepsAccounts_insertAccount (IdxdbDatabase.keptBy_headersKeyed account.id)
  applyTransaction _ transaction ofAccount _ :=
    keepsAccounts_applyTransaction ofAccount (IdxdbDatabase.keptBy_headersKeyed _)
  updateAccount _ account _ :=
    keepsAccounts_updateAccount (IdxdbDatabase.keptBy_headersKeyed account.id)
  applyStateSync _ synced store _ keyed := applyStateSync_keyed synced store keyed
  pruneAccountHistory _ foreignCodes accountId upToNonce := by
    refine keepsAccounts_write _ fun tables keyed => ?_
    show (tables.accounts.pruneAccountHistory foreignCodes accountId upToNonce).HeadersKeyed
    rw [IdxdbDatabase.HeadersKeyed, (IdxdbDatabase.pruneAccountHistory_headers _ _ _ _).1]
    exact keyed

theorem keptByStore_held (accountId : AccountId) :
    KeptByStore (IdxdbDatabase.Held accountId) (· ≠ accountId) fun refusals synced store =>
      KeepsAccount refusals synced store accountId where
  blocked store id held isAccount := by
    rw [not_not.mp isAccount]
    exact held.marked.isLocked held.stored
  addNoteTag _ record := keepsAccounts_addNoteTag record
  insertAccount _ account _ away :=
    keepsAccounts_insertAccount (IdxdbDatabase.keptBy_held away.symm)
  applyTransaction _ transaction ofAccount away :=
    keepsAccounts_applyTransaction ofAccount (IdxdbDatabase.keptBy_held away.symm)
  updateAccount _ account away :=
    keepsAccounts_updateAccount (IdxdbDatabase.keptBy_held away.symm)
  applyStateSync _ _ _ keeps held := applyStateSync_held held keeps
  pruneAccountHistory _ foreignCodes prunedId upToNonce :=
    keepsAccounts_write _ fun tables held =>
      held.pruneAccountHistory foreignCodes prunedId upToNonce

end IdxdbStore

/-! ### Runs -/

namespace AccountStore

variable {Accounts : Type} [AccountStore Accounts] [AddressLibrary]

/-- The account is locked, and its transactions are refused before anything is written. -/
def RefusesTransactions (store : Store Accounts) (accountId : AccountId) : Prop :=
  IsLocked store accountId ∧ ∀ refusals transaction ofAccount,
    transaction.executedTransaction.finalAccount.id = accountId →
      ∃ error, call refusals (.applyTransaction transaction ofAccount) store = .error error store ∧
        (refusals .readHeader = none → error = .accountLocked accountId)

omit [NoteLibrary] in
/-- What holds after the sync that locks an account, and of no account that may be written, holds
after every harmless call. -/
theorem KeptByStore.refusesTransactions {invariant : Accounts → Prop} {accountId : AccountId}
    {safe : Refusals → SyncStoreUpdate → Store Accounts → Prop}
    (kept : KeptByStore invariant (· ≠ accountId) safe) {start : Store Accounts}
    (holds : invariant start.tables.accounts) {later reached : List (Refusals × AccountCall)}
    (harmless : Run.Conforms perform (Harmless (· ≠ accountId) safe) start later)
    (prefixed : reached <+: later) :
    RefusesTransactions (reached.foldl perform start) accountId := by
  have held : invariant (reached.foldl perform start).tables.accounts :=
    Run.prefix_invariant (fun store operation => kept.after_perform store operation) holds harmless
      prefixed
  have locked := kept.blocked _ accountId held (not_not.mpr rfl)
  refine ⟨locked, fun refusals transaction ofAccount own => ?_⟩
  subst own
  exact applyTransactionUpdate_of_isLocked locked

omit [NoteLibrary] in
/-- What a store keeps whatever is written holds after every run. -/
theorem KeptByStore.foldl {invariant : Accounts → Prop}
    (kept : KeptByStore invariant (fun _ => True) fun _ _ _ => True) {start : Store Accounts}
    (holds : invariant start.tables.accounts) (calls : List (Refusals × AccountCall)) :
    invariant (calls.foldl perform start).tables.accounts := by
  induction calls generalizing start with
  | nil => exact holds
  | cons operation rest inductionHypothesis =>
    refine inductionHypothesis (kept.after_perform start operation holds ?_)
    unfold Harmless
    split
    · exact fun _ => trivial
    · trivial
    · trivial

end AccountStore

/-- In both stores a locked account stays locked, and its transactions are refused, as long as no
performed sync deletes it or brings a state of it from the network. -/
theorem locked_until_replaced [AddressLibrary] (collisionFree : CollisionFree)
    (accountId : AccountId) :
    (∀ (earlier later reached : List (Refusals × AccountCall)) (refusals : Refusals)
        (synced : SyncStoreUpdate), reached <+: later →
      let start : Store Database := earlier.foldl perform AccountStore.new
      let locked := perform start (refusals, .applyStateSync synced)
      SqliteStore.Locks refusals synced start accountId →
      Run.Conforms perform (Harmless (· ≠ accountId) fun refusals synced store =>
        SqliteStore.KeepsAccount refusals synced store accountId) locked later →
        RefusesTransactions (reached.foldl perform locked) accountId) ∧
    ∀ (earlier later reached : List (Refusals × AccountCall)) (refusals : Refusals)
        (synced : SyncStoreUpdate), reached <+: later →
      let start : Store IdxdbDatabase := earlier.foldl perform AccountStore.new
      let locked := perform start (refusals, .applyStateSync synced)
      IdxdbStore.LocksInFull refusals synced start.tables.accounts accountId →
      IsLocked locked accountId →
      Run.Conforms perform (Harmless (· ≠ accountId) fun refusals synced store =>
        IdxdbStore.KeepsAccount refusals synced store accountId) locked later →
        RefusesTransactions (reached.foldl perform locked) accountId := by
  constructor
  · intro earlier later reached refusals synced prefixed start locked locks conforms
    have keyed : start.tables.accounts.HeadersKeyed :=
      (SqliteStore.keptByStore_keyed collisionFree).foldl
        (fun _ _ absent => by cases (ExtTreeMap.getElem?_empty.symm.trans absent)) earlier
    refine (SqliteStore.keptByStore_held collisionFree accountId).refusesTransactions ?_ conforms
      prefixed
    show SqliteStore.Held accountId (Fallible.finalState
      (AccountCallM.store (SqliteStore.applyStateSync refusals synced) start)).tables.accounts
    rw [AccountCallM.finalState_store]
    exact SqliteStore.applyStateSync_marks collisionFree keyed locks
  · intro earlier later reached refusals synced prefixed start locked full isLocked conforms
    have keyed : start.tables.accounts.HeadersKeyed :=
      IdxdbStore.keptByStore_keyed.foldl
        (fun _ _ absent => by cases (ExtTreeMap.getElem?_empty.symm.trans absent)) earlier
    refine (IdxdbStore.keptByStore_held accountId).refusesTransactions ?_ conforms prefixed
    have final : locked = Fallible.finalState
        (IdxdbStore.applyStateSync refusals synced start) :=
      AccountCallM.finalState_store (IdxdbStore.applyStateSync refusals synced) start
    unfold IsLocked at isLocked
    rw [final] at isLocked ⊢
    exact IdxdbStore.applyStateSync_marks keyed full isLocked

end Library

/-! ### An account that is lost with its history -/

namespace Sample

open AccountStore

def accept : Refusals := fun _ => none

/-- The transaction that funds the account. -/
def fundRecord (status : TransactionStatus) : TransactionRecord :=
  ⟨1, ⟨7, newAccount.toHeader.toCommitment, fundedHeader.toCommitment, [], 0, 0, 0, 0⟩, status⟩

def pendingUpdate : TransactionStoreUpdate where
  fullState := none
  executedTransaction := ⟨newAccount.toHeader, fundedHeader, fund.delta, rfl⟩
  record := fundRecord .pending
  script := none
  noteUpdates := ⟨∅, ∅, ∅, ∅, ∅⟩
  newTags := []

/-- The account is added, and funded by a transaction that stays pending. -/
def pendingFund : List (Refusals × AccountCall) :=
  [(accept, .addAccount addressNode newAccount false),
    (accept, .applyTransaction pendingUpdate fun _ none_ => by cases none_)]

/-- A sync that only reports settled transactions and unexpected commitments. -/
def reportSync (settled : List TransactionRecord) (mismatched : List (AccountId × Word)) :
    SyncStoreUpdate where
  blockNum := 1
  noteUpdates := ⟨∅, ∅, ∅, ∅, ∅⟩
  transactionUpdates := .new settled
  blockHeaders := []
  newAuthenticationNodes := []
  updatedPublicAccounts := []
  mismatchedPrivateAccounts := mismatched

def lockSync : SyncStoreUpdate :=
  reportSync [] [(7, 5)]

def discardSync : SyncStoreUpdate :=
  reportSync [fundRecord (.discarded .expired)] []

/-- The sync finds an account that it locks, and no historical state with the digest. -/
theorem locks_of_succeeds {start : Store Database}
    (succeeds : Fallible.succeedsWith (SqliteStore.applyStateSync accept lockSync start)
      (fun _ after => (after.tables.accounts.latestAccountHeaders[7]?).any HeaderRow.locked &&
        (after.tables.accounts.historyOf 7).all fun row => row.header.toCommitment ≠ 5) = true) :
    SqliteStore.Locks accept lockSync start 7 := by
  obtain ⟨_, after, synced, test⟩ := Fallible.exists_of_succeedsWith succeeds
  obtain ⟨locked, unexpected⟩ := Bool.and_eq_true_iff.mp test
  refine ⟨after, 5, synced, ?_, List.mem_singleton_self _, fun row member => ?_⟩
  · exact (Option.any_eq_true _ _).mp locked
  · exact of_decide_eq_true (List.all_eq_true.mp unexpected row member)

/-- The lock survives the rollback of the pending transaction, in both stores. -/
theorem locked_until_replaced_discarded :
    RefusesTransactions ([(accept, .applyStateSync discardSync)].foldl perform
      (perform (pendingFund.foldl perform (AccountStore.new : Store Database))
        (accept, .applyStateSync lockSync))) 7 ∧
    RefusesTransactions ([(accept, .applyStateSync discardSync)].foldl perform
      (perform (pendingFund.foldl perform (AccountStore.new : Store IdxdbDatabase))
        (accept, .applyStateSync lockSync))) 7 := by
  obtain ⟨sqlite, idxdb⟩ := locked_until_replaced collisionFree 7
  constructor
  · refine sqlite pendingFund [(accept, .applyStateSync discardSync)]
      [(accept, .applyStateSync discardSync)] accept lockSync List.prefix_rfl ?_
      ⟨fun after _ => ⟨?_, fun _ member => by cases member⟩, trivial⟩
    · exact locks_of_succeeds (by decide +kernel)
    · rintro ⟨minNonce, earliest, gone⟩
      rw [show (Database.undoneNonces _ _ _).getLast? = some 2 by decide +kernel] at earliest
      cases earliest
      exact absurd (List.isEmpty_iff.mpr gone) (by decide +kernel)
  · refine idxdb pendingFund [(accept, .applyStateSync discardSync)]
      [(accept, .applyStateSync discardSync)] accept lockSync List.prefix_rfl ?_ ?_
      ⟨⟨fun _ => ?_, fun _ _ _ member => by cases member⟩, trivial⟩
    · exact ⟨by decide +kernel, by decide +kernel⟩
    · exact (Option.any_eq_true _ _).mp (by decide +kernel)
    · rintro ⟨minNonce, earliest, gone⟩
      rw [show (Database.descending (IdxdbDatabase.undoneNonces _ _ _)).getLast? = some 2 by
        decide +kernel] at earliest
      cases earliest
      exact absurd (Option.isNone_iff_eq_none.mpr gone) (by decide +kernel)

/-- The history is pruned while the transaction is pending, and the account is locked and added
once more after the transaction is discarded. -/
theorem not_locked_until_overwritten :
    ¬∀ (earlier later : List (Refusals × AccountCall)) (refusals : Refusals)
      (synced : SyncStoreUpdate) (accountId : AccountId),
      let start : Store Database := earlier.foldl perform AccountStore.new
      SqliteStore.Locks refusals synced start accountId →
      (∀ operation ∈ later, ∀ node account,
        operation.2 = .addAccount node account true → account.id ≠ accountId) →
      IsLocked (later.foldl perform (perform start (refusals, .applyStateSync synced)))
        accountId := by
  intro always
  have locked := always (pendingFund ++ [(accept, .pruneAccountHistory ∅ 7 2)])
    [(accept, .applyStateSync discardSync), (accept, .addAccount addressNode newAccount false)]
    accept lockSync 7 ?_ ?_
  · have found : ((latestAccountHeaders (_ : Store Database).tables.accounts)[7]?).any
      HeaderRow.locked = true := (Option.any_eq_true _ _).mpr locked
    exact absurd found (by decide +kernel)
  · exact locks_of_succeeds (by decide +kernel)
  · intro operation member node account overwrites
    simp only [List.mem_cons, List.not_mem_nil, or_false] at member
    rcases member with rfl | rfl
    · cases overwrites
    · cases overwrites

end Sample

end MidenClient
