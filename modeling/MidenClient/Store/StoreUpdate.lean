/-
This file models what the updates of both stores have in common: the tables they write,
the statements at which the database can refuse them, and the memory that lies beside the
tables (`rust-client/src/store/mod.rs`).

An update that fails leaves the tables as the last committed transaction left them. The
forest of account trees is no part of any transaction: it stays as it is at the failure. A
panic while the forest is locked for writing leaves a lock that nobody can take any more.
-/

import MidenClient.Sqlite.Accounts
import MidenClient.Sqlite.StagedRoots
import MidenClient.Store.PendingRoots
import MidenClient.Sync.StateSync

namespace MidenClient

open Std (ExtTreeMap)

/-! ### Tables -/

/-- A row of the block headers. -/
structure BlockHeaderRow where
  header : BlockHeader
  partialBlockchainPeaks : List Word
  hasClientNotes : Bool
  deriving DecidableEq, Repr

/-- The tables of a store, for given account tables. -/
structure StoreTables (Accounts : Type) where
  accounts : Accounts
  /-- Notes, tags and transactions, and the height of the last sync. -/
  client : ClientStore
  /-- The scripts of transactions by their roots. -/
  transactionScripts : ExtTreeMap Word (List ℕ)
  blockHeaders : ExtTreeMap BlockNumber BlockHeaderRow
  partialBlockchainNodes : ExtTreeMap ℕ Word

/-- An open store: its tables, and the forest in memory with its lock. -/
structure Store (Accounts : Type) where
  tables : StoreTables Accounts
  forest : AccountSmtForest
  /-- A panic has ended an operation that held the lock for writing. Natively the lock is poisoned,
  in the browser it is never released. -/
  forestPoisoned : Bool

/-- Nothing of the tables, the registered roots, the stacks, the counts and the lock is
different. -/
structure Store.Unchanged {Accounts : Type} (before after : Store Accounts) : Prop where
  tables : after.tables = before.tables
  registration : after.forest.SameRegistration before.forest
  lock : after.forestPoisoned = before.forestPoisoned

theorem Store.Unchanged.refl {Accounts : Type} (store : Store Accounts) : store.Unchanged store :=
  ⟨rfl, .refl store.forest, rfl⟩

/-! ### Updates -/

/-- What a submitted transaction brings. -/
structure TransactionStoreUpdate where
  /-- The account that the delta holds, when it is a full state. -/
  fullState : Option Account
  executedTransaction : ExecutedTransaction
  record : TransactionRecord
  /-- The root and the bytes of the transaction script. -/
  script : Option (Word × List ℕ)
  noteUpdates : NoteUpdateTracker
  newTags : List NoteTagRecord

/-- What a sync brings. -/
structure SyncStoreUpdate extends StateSyncUpdate where
  blockHeaders : List (BlockHeader × Bool × List Word)
  newAuthenticationNodes : List (ℕ × Word)
  updatedPublicAccounts : List Account
  mismatchedPrivateAccounts : List (AccountId × Word)

namespace SyncStoreUpdate

/-- The accounts and final states of the discarded transactions. -/
def discardedStates (update : SyncStoreUpdate) : List (AccountId × Word) :=
  update.transactionUpdates.discardedTransactions.map fun record =>
    (record.details.accountId, record.details.finalAccountState)

/-- The accounts of the committed transactions. -/
def committedAccounts (update : SyncStoreUpdate) : List AccountId :=
  update.transactionUpdates.committedTransactions.map fun record => record.details.accountId

end SyncStoreUpdate

/-- A call that updates several entities. -/
inductive UpdateCall where
  | applyTransaction (update : TransactionStoreUpdate)
  | applyStateSync (update : SyncStoreUpdate)
  | updateAccount (account : Account)

/-! ### Statements -/

/-- The places at which an update turns to the database. -/
inductive Statement where
  | begin
  | commit
  | readHeader
  | readAssets
  | readMapRoots
  | readTags
  | readHistory (accountId : AccountId)
  | transactionScript (id : TransactionId)
  | transactionRecord (id : TransactionId)
  | accountCode (commitment : Word)
  | accountHeader (id : AccountId)
  | accountVault (id : AccountId)
  | accountStorage (id : AccountId)
  | storageMapEntries (id : AccountId)
  | accountAddress (id : AccountId)
  | accountState (id : AccountId)
  | pruneHistory (id : AccountId)
  | noteUpdates
  | inputNote (id : NoteId)
  | outputNote (id : NoteId)
  | addTag (record : NoteTagRecord)
  | removeTag (record : NoteTagRecord)
  | syncHeight
  | blockHeader (blockNum : BlockNumber)
  | blockchainNodes
  | undoStates
  | lockLatest (id : AccountId)
  | lockHistorical (id : AccountId)
  | syncUpdate
  deriving DecidableEq, Repr

/-- The statements the database refuses, and why. A refusal is an error and no panic. -/
abbrev Refusals := Statement → Option {reason : StoreError // reason.isPanic = false}

/-- The database answers a statement. -/
def Refusals.answer (refusals : Refusals) (statement : Statement) : Except StoreError Unit :=
  match refusals statement with
  | none => .ok ()
  | some reason => .error reason.val

/-- A statement in an operation on the forest, which a refusal leaves as it is. -/
def ForestM.statement (refusals : Refusals) (statement : Statement) : ForestM Unit :=
  liftExcept (refusals.answer statement)

/-- Takes the lock of the forest. -/
def ForestM.lock (poisoned : Bool) : ForestM Unit :=
  if poisoned then throw .lockPoisoned else pure ()

/-- Writes inside an open transaction, one statement after the other. -/
def ForestM.writeAll {Tables : Type} (refusals : Refusals)
    (writes : List (Statement × (Tables → Tables))) (tables : Tables) : ForestM Tables :=
  writes.foldlM (fun tables write => do
    ForestM.statement refusals write.1
    return write.2 tables) tables

/-- An operation on an open store; a failure keeps what was committed and the forest. -/
abbrev StoreM (Accounts : Type) := EStateM StoreError (Store Accounts)

namespace StoreM

variable {Accounts α : Type}

/-- A statement that only reads. -/
def read (refusals : Refusals) (statement : Statement) : StoreM Accounts Unit := fun store =>
  match refusals.answer statement with
  | .ok _ => .ok () store
  | .error reason => .error reason store

/-- A write in a transaction of its own. -/
def write (refusals : Refusals) (statement : Statement)
    (change : StoreTables Accounts → StoreTables Accounts) : StoreM Accounts Unit := fun store =>
  match refusals.answer statement with
  | .ok _ => .ok () { store with tables := change store.tables }
  | .error reason => .error reason store

/-- Takes the lock of the forest. -/
def lockForest : StoreM Accounts Unit := fun store =>
  if store.forestPoisoned then .error .lockPoisoned store else .ok () store

/-- The store with another forest, after an operation has failed that may have held the lock. -/
def failed (reason : StoreError) (forest : AccountSmtForest) (store : Store Accounts) :
    Store Accounts :=
  { store with forest := forest, forestPoisoned := store.forestPoisoned || reason.isPanic }

/-- An operation on the locked forest, which can read the tables. -/
def withForest (operation : StoreTables Accounts → ForestM α) : StoreM Accounts α := fun store =>
  if store.forestPoisoned then .error .lockPoisoned store
  else
    match operation store.tables store.forest with
    | .ok value forest => .ok value { store with forest := forest }
    | .error reason forest => .error reason (failed reason forest store)

/-- Several writes in one transaction, between which the forest can be changed. When one of them
fails the writes are rolled back. -/
def inTransaction (refusals : Refusals)
    (body : StoreTables Accounts → ForestM (StoreTables Accounts)) : StoreM Accounts Unit :=
  fun store =>
    let run : ForestM (StoreTables Accounts) := do
      ForestM.statement refusals .begin
      let tables ← body store.tables
      ForestM.statement refusals .commit
      return tables
    match run store.forest with
    | .ok tables forest => .ok () { store with tables := tables, forest := forest }
    | .error reason forest => .error reason (failed reason forest store)

/-- Writes one after the other, each in a transaction of its own. -/
def writeEach (refusals : Refusals)
    (writes : List (Statement × (StoreTables Accounts → StoreTables Accounts))) :
    StoreM Accounts Unit :=
  writes.forM fun change => write refusals change.1 change.2

end StoreM

/-- Writes that each leave a view of the tables alone do so together. -/
theorem foldl_write_view {Tables δ : Type} (view : Tables → δ)
    {writes : List (Statement × (Tables → Tables))}
    (each : ∀ write ∈ writes, ∀ tables, view (write.2 tables) = view tables) (tables : Tables) :
    view (writes.foldl (fun tables write => write.2 tables) tables) = view tables := by
  induction writes generalizing tables with
  | nil => rfl
  | cons write rest inductionHypothesis =>
    rw [List.foldl_cons, inductionHypothesis fun other member =>
      each other (List.mem_cons_of_mem write member)]
    exact each write List.mem_cons_self tables

/-- Writes that change nothing change nothing together. -/
theorem foldl_write_fixed {Tables : Type} {writes : List (Statement × (Tables → Tables))}
    {tables : Tables} (fixed : ∀ write ∈ writes, write.2 tables = tables) :
    writes.foldl (fun tables write => write.2 tables) tables = tables := by
  induction writes with
  | nil => rfl
  | cons write rest inductionHypothesis =>
    rw [List.foldl_cons, fixed write List.mem_cons_self]
    exact inductionHypothesis fun other member => fixed other (List.mem_cons_of_mem write member)

/-- When every write changes nothing or lowers a measure, all of them together lower it, unless none
of them changes anything. -/
theorem foldl_write_lowers {Tables : Type} (measure : Tables → ℕ)
    {writes : List (Statement × (Tables → Tables))}
    (lowers : ∀ write ∈ writes, ∀ tables,
      write.2 tables = tables ∨ measure (write.2 tables) < measure tables) (tables : Tables) :
    measure (writes.foldl (fun tables write => write.2 tables) tables) ≤ measure tables ∧
      (measure tables ≤ measure (writes.foldl (fun tables write => write.2 tables) tables) →
        ∀ write ∈ writes, write.2 tables = tables) := by
  induction writes generalizing tables with
  | nil => exact ⟨Nat.le_refl _, fun _ _ member => (by cases member)⟩
  | cons write rest inductionHypothesis =>
    obtain ⟨below, kept⟩ := inductionHypothesis
      (fun other member => lowers other (List.mem_cons_of_mem write member)) (write.2 tables)
    rw [List.foldl_cons]
    rcases lowers write List.mem_cons_self tables with same | less
    · rw [same] at below kept ⊢
      exact ⟨below, fun above => List.forall_mem_cons.mpr ⟨same, kept above⟩⟩
    · exact ⟨below.trans less.le, fun above => absurd (above.trans below) (Nat.not_le.mpr less)⟩

/-! ### Computations that do not panic -/

/-- The error is no panic. -/
def StoreError.IsOrdinary (reason : StoreError) : Prop :=
  reason.isPanic = false

namespace ForestM

theorem liftExcept_throws {α : Type} {condition : StoreError → Prop}
    {computation : Except StoreError α} (fails : Fallible.FailsWith condition computation) :
    Fallible.Throws condition (liftExcept computation) := by
  intro forest reason last failed
  unfold liftExcept at failed
  split at failed
  · cases failed
  · cases failed
    exact fails _ rfl

theorem update_throws {α : Type} {condition : StoreError → Prop}
    {operation : AccountSmtForest → Except StoreError (AccountSmtForest × α)}
    (fails : ∀ forest, Fallible.FailsWith condition (operation forest)) :
    Fallible.Throws condition (update operation) := by
  intro forest reason last failed
  unfold update at failed
  split at failed
  · cases failed
  · rename_i stopped
    cases failed
    exact fails forest _ stopped

theorem statement_throws (refusals : Refusals) (place : Statement) :
    Fallible.Throws StoreError.IsOrdinary (statement refusals place) := by
  refine liftExcept_throws fun reason refused => ?_
  unfold Refusals.answer at refused
  split at refused
  · cases refused
  · rename_i given _
    cases refused
    exact given.property

theorem registeredRoots_throws (id : AccountId) :
    Fallible.Throws StoreError.IsOrdinary (registeredRoots id) := by
  refine update_throws fun forest => ?_
  split
  · exact Fallible.FailsWith.ok _ _
  · exact Fallible.FailsWith.error rfl

end ForestM

section Forest

variable [ProtocolLibrary]

theorem Database.insertAccountHeader_error {db : Database} {header : AccountHeader}
    {seed : Option Word} {oldHeader : Option AccountHeader} {reason : StoreError}
    (failed : db.insertAccountHeader header seed oldHeader = .error reason) :
    reason = .databaseError := by
  simp only [insertAccountHeader, bind, Except.bind, pure, Except.pure, throw, throwThe,
    MonadExceptOf.throw] at failed
  cases oldHeader with
  | none =>
    dsimp only at failed
    split at failed
    · cases failed
      rfl
    · cases failed
  | some old =>
    dsimp only at failed
    split at failed
    · cases failed
      rfl
    · split at failed
      · cases failed
        rfl
      · split at failed
        · cases failed
          rfl
        · cases failed

theorem Database.insertAccountHeader_failsWith (db : Database) (newHeader : AccountHeader)
    (accountSeed : Option Word) (oldHeader : Option AccountHeader) :
    Fallible.FailsWith StoreError.IsOrdinary
      (db.insertAccountHeader newHeader accountSeed oldHeader) := by
  intro reason failed
  rw [insertAccountHeader_error failed]
  rfl

theorem AccountSmtForest.batchInsert_failsWith (forest : AccountSmtForest) (root : Word)
    (entries : List (Word × Word)) :
    Fallible.FailsWith StoreError.IsOrdinary (forest.batchInsert root entries) := by
  unfold batchInsert
  split
  · exact Fallible.FailsWith.error rfl
  · exact Fallible.FailsWith.ok _ _

theorem AccountSmtForest.updateAssetNodes_failsWith (forest : AccountSmtForest) (root : Word)
    (newAssets : List Asset) (removedVaultKeys : List AssetVaultKey) :
    Fallible.FailsWith StoreError.IsOrdinary
      (forest.updateAssetNodes root newAssets removedVaultKeys) := by
  unfold updateAssetNodes
  dsimp only
  split
  · exact Fallible.FailsWith.ok _ _
  · exact forest.batchInsert_failsWith root _

theorem AccountSmtForest.updateStorageMapNodes_failsWith (forest : AccountSmtForest) (root : Word)
    (entries : List (StorageMapKey × Word)) :
    Fallible.FailsWith StoreError.IsOrdinary (forest.updateStorageMapNodes root entries) := by
  unfold updateStorageMapNodes
  split
  · exact Fallible.FailsWith.ok _ _
  · exact forest.batchInsert_failsWith root _

theorem applyAccountStorageDelta_throws (oldMapRoots : ExtTreeMap StorageSlotName Word)
    (delta : AccountDelta) :
    Fallible.Throws StoreError.IsOrdinary (applyAccountStorageDelta oldMapRoots delta) := by
  refine Fallible.Throws.foldlM (fun slots slot => ?_) _ _
  refine (ForestM.update_throws fun forest => ?_).bind fun _ => Fallible.Throws.pure _ _
  exact forest.updateStorageMapNodes_failsWith _ _

theorem FungibleAsset.new_failsWith (faucetId : AccountId) (amount : ℕ) :
    Fallible.FailsWith StoreError.IsOrdinary (FungibleAsset.new faucetId amount) := by
  unfold FungibleAsset.new
  split
  · exact Fallible.FailsWith.error rfl
  · exact Fallible.FailsWith.ok _ _

theorem FungibleAsset.add_failsWith (asset other : FungibleAsset) :
    Fallible.FailsWith StoreError.IsOrdinary (asset.add other) := by
  unfold FungibleAsset.add
  split
  · exact Fallible.FailsWith.error rfl
  · exact FungibleAsset.new_failsWith _ _

omit [ProtocolLibrary] in
theorem FungibleAsset.sub_failsWith (asset other : FungibleAsset) :
    Fallible.FailsWith StoreError.IsOrdinary (asset.sub other) := by
  unfold FungibleAsset.sub
  split
  · exact Fallible.FailsWith.error rfl
  · split
    · exact Fallible.FailsWith.error rfl
    · exact Fallible.FailsWith.ok _ _

theorem VaultChanges.changedAsset_failsWith (stored : Option FungibleAsset)
    (deltaAsset : FungibleAsset) (change : ℤ) :
    Fallible.FailsWith StoreError.IsOrdinary (changedAsset stored deltaAsset change) := by
  unfold changedAsset
  split
  · split
    · exact FungibleAsset.add_failsWith _ _
    · exact FungibleAsset.sub_failsWith _ _
  · exact Fallible.FailsWith.ok _ _

theorem VaultChanges.ofDelta_failsWith
    (updatedFungibleAssets : ExtTreeMap AssetVaultKey FungibleAsset) (delta : AccountDelta) :
    Fallible.FailsWith StoreError.IsOrdinary
      (VaultChanges.ofDelta updatedFungibleAssets delta) := by
  refine (Fallible.FailsWith.foldlM (fun changes change => ?_) _ _).bind
    fun _ => Fallible.FailsWith.ok _ _
  refine (FungibleAsset.new_failsWith _ _).bind fun deltaAsset => ?_
  refine (changedAsset_failsWith _ _ _).bind fun asset => ?_
  split
  · exact Fallible.FailsWith.ok _ _
  · exact Fallible.FailsWith.ok _ _

end Forest

/-! ### What statements do -/

namespace ForestM

/-- All of the statements are accepted. -/
def Accepts (refusals : Refusals) (statements : List Statement) : Prop :=
  ∀ statement ∈ statements, refusals statement = none

instance (refusals : Refusals) (statements : List Statement) :
    Decidable (Accepts refusals statements) :=
  inferInstanceAs (Decidable (∀ statement ∈ statements, refusals statement = none))

theorem statement_of_accepted {refusals : Refusals} {place : Statement}
    (accepted : refusals place = none) (forest : AccountSmtForest) :
    statement refusals place forest = .ok () forest := by
  unfold statement Refusals.answer liftExcept
  rw [accepted]

theorem statement_of_refused {refusals : Refusals} {place : Statement}
    {reason : {reason : StoreError // reason.isPanic = false}}
    (refused : refusals place = some reason) (forest : AccountSmtForest) :
    statement refusals place forest = .error reason.val forest := by
  unfold statement Refusals.answer liftExcept
  rw [refused]

/-- Writes leave the forest alone, and succeed when all of their statements are accepted. -/
theorem writeAll_cases {Tables : Type} (refusals : Refusals)
    (writes : List (Statement × (Tables → Tables))) (tables : Tables)
    (forest : AccountSmtForest) :
    (Accepts refusals (writes.map Prod.fst) ∧
        writeAll refusals writes tables forest =
          .ok (writes.foldl (fun tables write => write.2 tables) tables) forest) ∨
      (¬Accepts refusals (writes.map Prod.fst) ∧ ∃ reason, reason.isPanic = false ∧
        writeAll refusals writes tables forest = .error reason forest) := by
  unfold writeAll Accepts
  induction writes generalizing tables with
  | nil => exact Or.inl ⟨fun _ member => (by cases member), rfl⟩
  | cons write rest inductionHypothesis =>
    rw [List.foldlM_cons, List.map_cons, List.forall_mem_cons]
    rcases answer : refusals write.1 with _ | reason
    · have ran := statement_of_accepted answer forest
      have first : (do
          ForestM.statement refusals write.1
          return write.2 tables : ForestM Tables) forest = .ok (write.2 tables) forest :=
        Fallible.bind_of_result_ok ran _
      rw [Fallible.bind_of_result_ok first]
      rcases inductionHypothesis (write.2 tables) with ⟨accepted, done⟩ | ⟨refused, failed⟩
      · exact Or.inl ⟨⟨rfl, accepted⟩, done⟩
      · exact Or.inr ⟨fun both => refused both.2, failed⟩
    · refine Or.inr ⟨fun both => (by cases both.1), reason.val, reason.property, ?_⟩
      refine Fallible.bind_eq_result_error.mpr (Or.inl ?_)
      exact Fallible.bind_eq_result_error.mpr (Or.inl (statement_of_refused answer forest))

theorem writeAll_of_accepts {Tables : Type} {refusals : Refusals}
    {writes : List (Statement × (Tables → Tables))}
    (accepted : Accepts refusals (writes.map Prod.fst)) (tables : Tables)
    (forest : AccountSmtForest) :
    writeAll refusals writes tables forest =
      .ok (writes.foldl (fun tables write => write.2 tables) tables) forest := by
  rcases writeAll_cases refusals writes tables forest with ⟨-, done⟩ | ⟨refuses, -⟩
  · exact done
  · exact absurd accepted refuses

theorem lock_of_free (forest : AccountSmtForest) : lock false forest = .ok () forest :=
  rfl

theorem lock_of_poisoned (forest : AccountSmtForest) :
    lock true forest = .error .lockPoisoned forest :=
  rfl

theorem lock_eq_ok {poisoned : Bool} {forest last : AccountSmtForest} {value : Unit}
    (taken : lock poisoned forest = .ok value last) : poisoned = false ∧ last = forest := by
  cases poisoned with
  | false =>
    cases taken
    exact ⟨rfl, rfl⟩
  | true => cases taken

theorem lock_preserves {invariant : AccountSmtForest → Prop} (poisoned : Bool) :
    Fallible.Preserves invariant (lock poisoned) := by
  cases poisoned with
  | false => exact fun _ holds => holds
  | true => exact fun _ holds => holds

theorem writeAll_eq_ok {Tables : Type} {refusals : Refusals}
    {writes : List (Statement × (Tables → Tables))} {tables result : Tables}
    {forest last : AccountSmtForest}
    (written : writeAll refusals writes tables forest = .ok result last) :
    result = writes.foldl (fun tables write => write.2 tables) tables ∧ last = forest := by
  rcases writeAll_cases refusals writes tables forest with ⟨-, done⟩ | ⟨-, reason, -, failed⟩
  · rw [done] at written
    cases written
    exact ⟨rfl, rfl⟩
  · rw [failed] at written
    cases written

theorem writeAll_finalState {Tables : Type} (refusals : Refusals)
    (writes : List (Statement × (Tables → Tables))) (tables : Tables)
    (forest : AccountSmtForest) :
    Fallible.finalState (writeAll refusals writes tables forest) = forest := by
  rcases writeAll_cases refusals writes tables forest with ⟨-, done⟩ | ⟨-, reason, -, failed⟩
  · rw [done]
    rfl
  · rw [failed]
    rfl

theorem writeAll_preserves {Tables : Type} {invariant : AccountSmtForest → Prop}
    (refusals : Refusals) (writes : List (Statement × (Tables → Tables))) (tables : Tables) :
    Fallible.Preserves invariant (writeAll refusals writes tables) := by
  intro forest holds
  rwa [writeAll_finalState]

end ForestM

namespace StoreM

variable {Accounts : Type}

theorem read_of_accepted {refusals : Refusals} {place : Statement}
    (accepted : refusals place = none) (store : Store Accounts) :
    read refusals place store = .ok () store := by
  unfold read Refusals.answer
  rw [accepted]

theorem read_of_refused {refusals : Refusals} {place : Statement}
    {reason : {reason : StoreError // reason.isPanic = false}}
    (refused : refusals place = some reason) (store : Store Accounts) :
    read refusals place store = .error reason.val store := by
  unfold read Refusals.answer
  rw [refused]

/-- A refused statement in front ends the operation with the store as it is. -/
theorem eq_of_read_refused {α : Type} {refusals : Refusals} {place : Statement}
    {refused : {reason : StoreError // reason.isPanic = false}} {reason : StoreError}
    (refuses : refusals place = some refused) {rest : Unit → StoreM Accounts α}
    {store after : Store Accounts}
    (failed : (read refusals place >>= rest) store = .error reason after) : after = store := by
  rw [Fallible.bind_eq_result_error.mpr (Or.inl (read_of_refused refuses store))] at failed
  cases failed
  rfl

theorem write_of_accepted {refusals : Refusals} {place : Statement}
    (accepted : refusals place = none) (change : StoreTables Accounts → StoreTables Accounts)
    (store : Store Accounts) :
    write refusals place change store = .ok () { store with tables := change store.tables } := by
  unfold write Refusals.answer
  rw [accepted]

theorem write_of_refused {refusals : Refusals} {place : Statement}
    {reason : {reason : StoreError // reason.isPanic = false}}
    (refused : refusals place = some reason)
    (change : StoreTables Accounts → StoreTables Accounts) (store : Store Accounts) :
    write refusals place change store = .error reason.val store := by
  unfold write Refusals.answer
  rw [refused]

theorem failed_of_ordinary {reason : StoreError} (ordinary : reason.IsOrdinary)
    (forest : AccountSmtForest) (store : Store Accounts) :
    failed reason forest store = { store with forest := forest } := by
  unfold failed
  rw [show reason.isPanic = false from ordinary, Bool.or_false]

theorem withForest_of_poisoned {store : Store Accounts} (poisoned : store.forestPoisoned = true)
    (operation : StoreTables Accounts → ForestM α) :
    withForest operation store = .error .lockPoisoned store := by
  unfold withForest
  rw [if_pos poisoned]

theorem withForest_of_ok {store : Store Accounts} (free : store.forestPoisoned = false)
    {operation : StoreTables Accounts → ForestM α} {value : α} {forest : AccountSmtForest}
    (ran : operation store.tables store.forest = .ok value forest) :
    withForest operation store = .ok value { store with forest := forest } := by
  unfold withForest
  rw [if_neg (by rw [free]; exact Bool.false_ne_true), ran]

theorem withForest_of_error {store : Store Accounts} (free : store.forestPoisoned = false)
    {operation : StoreTables Accounts → ForestM α} {reason : StoreError} {forest : AccountSmtForest}
    (stopped : operation store.tables store.forest = .error reason forest) :
    withForest operation store = .error reason (failed reason forest store) := by
  unfold withForest
  rw [if_neg (by rw [free]; exact Bool.false_ne_true), stopped]

theorem lockForest_of_free {store : Store Accounts} (free : store.forestPoisoned = false) :
    lockForest store = .ok () store := by
  unfold lockForest
  rw [if_neg (by rw [free]; exact Bool.false_ne_true)]

theorem lockForest_of_poisoned {store : Store Accounts} (poisoned : store.forestPoisoned = true) :
    lockForest store = .error .lockPoisoned store := by
  unfold lockForest
  rw [if_pos poisoned]

/-- A write does not touch the forest. -/
theorem write_forest (refusals : Refusals) (place : Statement)
    (change : StoreTables Accounts → StoreTables Accounts) (store : Store Accounts) :
    (Fallible.finalState (write refusals place change store)).forest = store.forest := by
  unfold write
  split
  · rfl
  · rfl

/-! ### What holds of the forest -/

variable {invariant : AccountSmtForest → Prop} {α : Type}

theorem read_preserves (refusals : Refusals) (place : Statement) :
    Fallible.Preserves (fun store : Store Accounts => invariant store.forest)
      (read refusals place) := by
  intro store holds
  unfold read
  split
  · exact holds
  · exact holds

theorem write_preserves (refusals : Refusals) (place : Statement)
    (change : StoreTables Accounts → StoreTables Accounts) :
    Fallible.Preserves (fun store : Store Accounts => invariant store.forest)
      (write refusals place change) := by
  intro store holds
  show invariant (Fallible.finalState (write refusals place change store)).forest
  rwa [write_forest]

theorem lockForest_preserves :
    Fallible.Preserves (fun store : Store Accounts => invariant store.forest) lockForest := by
  intro store holds
  unfold lockForest
  split
  · exact holds
  · exact holds

theorem withForest_preserves {operation : StoreTables Accounts → ForestM α}
    (keeps : ∀ tables, Fallible.Preserves invariant (operation tables)) :
    Fallible.Preserves (fun store : Store Accounts => invariant store.forest)
      (withForest operation) := by
  intro store holds
  have kept := keeps store.tables store.forest holds
  unfold withForest
  split
  · exact holds
  rcases outcome : operation store.tables store.forest with ⟨value, next⟩ | ⟨reason, next⟩
  · rw [outcome] at kept
    exact kept
  · rw [outcome] at kept
    exact kept

theorem inTransaction_preserves {refusals : Refusals}
    {body : StoreTables Accounts → ForestM (StoreTables Accounts)}
    (keeps : ∀ tables, Fallible.Preserves invariant (body tables)) :
    Fallible.Preserves (fun store : Store Accounts => invariant store.forest)
      (inTransaction refusals body) := by
  intro store holds
  have run : Fallible.Preserves invariant (do
      ForestM.statement refusals .begin
      let tables ← body store.tables
      ForestM.statement refusals .commit
      return tables : ForestM (StoreTables Accounts)) := by
    refine (ForestM.liftExcept_preserves _ _).bind fun _ => (keeps store.tables).bind fun _ => ?_
    exact (ForestM.liftExcept_preserves _ _).bind fun _ => Fallible.Preserves.pure _ _
  have kept := run store.forest holds
  unfold inTransaction
  dsimp only
  split
  · rename_i tables forest finished
    rw [finished] at kept
    exact kept
  · rename_i reason forest stopped
    rw [stopped] at kept
    exact kept

/-! ### What holds of the tables -/

section Tables

variable (invariant : StoreTables Accounts → Prop)

theorem read_preserves_tables (refusals : Refusals) (place : Statement) :
    Fallible.Preserves (fun store : Store Accounts => invariant store.tables)
      (read refusals place) := by
  intro store holds
  unfold read
  split
  · exact holds
  · exact holds

theorem write_preserves_tables (refusals : Refusals) (place : Statement)
    {change : StoreTables Accounts → StoreTables Accounts}
    (keeps : ∀ tables, invariant tables → invariant (change tables)) :
    Fallible.Preserves (fun store => invariant store.tables) (write refusals place change) := by
  intro store holds
  unfold write
  split
  · exact keeps store.tables holds
  · exact holds

theorem withForest_preserves_tables (operation : StoreTables Accounts → ForestM α) :
    Fallible.Preserves (fun store => invariant store.tables) (withForest operation) := by
  intro store holds
  unfold withForest
  split
  · exact holds
  split
  · exact holds
  · exact holds

theorem tables_of_withForest_eq_ok {operation : StoreTables Accounts → ForestM α}
    {store after : Store Accounts} {value : α}
    (done : withForest operation store = .ok value after) : after.tables = store.tables := by
  have kept := withForest_preserves_tables (· = store.tables) operation store rfl
  rwa [done] at kept

/-- A transaction changes the tables as its body does, or not at all. -/
theorem inTransaction_eq_ok {refusals : Refusals}
    {body : StoreTables Accounts → ForestM (StoreTables Accounts)} {store after : Store Accounts}
    (done : inTransaction refusals body store = .ok () after) :
    body store.tables store.forest = .ok after.tables after.forest := by
  unfold inTransaction at done
  dsimp only at done
  split at done
  · rename_i tables forest ran
    cases done
    obtain ⟨_, first, begun, ran⟩ := Fallible.bind_eq_result_ok.mp ran
    obtain ⟨-, rfl⟩ := ForestM.liftExcept_eq_ok.mp begun
    obtain ⟨result, second, finished, ran⟩ := Fallible.bind_eq_result_ok.mp ran
    obtain ⟨_, third, committed, ended⟩ := Fallible.bind_eq_result_ok.mp ran
    obtain ⟨-, rfl⟩ := ForestM.liftExcept_eq_ok.mp committed
    cases ended
    exact finished
  · cases done

/-- After a transaction the tables are what its body made of them, or what they were. -/
theorem inTransaction_tables (refusals : Refusals)
    (body : StoreTables Accounts → ForestM (StoreTables Accounts)) (store : Store Accounts) :
    (∃ tables last, body store.tables store.forest = .ok tables last ∧
        (Fallible.finalState (inTransaction refusals body store)).tables = tables) ∨
      (Fallible.finalState (inTransaction refusals body store)).tables = store.tables := by
  cases outcome : inTransaction refusals body store with
  | ok _ after => exact Or.inl ⟨_, _, inTransaction_eq_ok outcome, rfl⟩
  | error reason after =>
    unfold inTransaction at outcome
    dsimp only at outcome
    split at outcome
    · cases outcome
    · cases outcome
      exact Or.inr rfl

theorem writeEach_preserves_tables {refusals : Refusals}
    {writes : List (Statement × (StoreTables Accounts → StoreTables Accounts))}
    (keeps : ∀ change ∈ writes, ∀ tables, invariant tables → invariant (change.2 tables)) :
    Fallible.Preserves (fun store => invariant store.tables) (writeEach refusals writes) := by
  unfold writeEach
  induction writes with
  | nil => exact Fallible.Preserves.pure _ _
  | cons change rest inductionHypothesis =>
    refine Fallible.Preserves.bind (write_preserves_tables invariant refusals change.1
      (keeps change List.mem_cons_self)) fun _ => ?_
    exact inductionHypothesis fun other member => keeps other (List.mem_cons_of_mem change member)

end Tables

/-! ### Separate writes -/

/-- The writes before the first refused one. -/
def reached (refusals : Refusals)
    (writes : List (Statement × (StoreTables Accounts → StoreTables Accounts))) :
    List (Statement × (StoreTables Accounts → StoreTables Accounts)) :=
  writes.takeWhile fun change => (refusals change.1).isNone

theorem reached_of_accepts {refusals : Refusals}
    {writes : List (Statement × (StoreTables Accounts → StoreTables Accounts))}
    (accepts : ForestM.Accepts refusals (writes.map Prod.fst)) :
    reached refusals writes = writes := by
  refine List.takeWhile_eq_self_iff.mpr fun change member => ?_
  rw [accepts change.1 (List.mem_map_of_mem member)]
  rfl

/-- Separate writes are done up to the first refused one. -/
theorem writeEach_cases (refusals : Refusals)
    (writes : List (Statement × (StoreTables Accounts → StoreTables Accounts)))
    (store : Store Accounts) :
    (ForestM.Accepts refusals (writes.map Prod.fst) ∧
        writeEach refusals writes store = .ok () { store with
          tables := (reached refusals writes).foldl (fun tables change => change.2 tables)
            store.tables }) ∨
      (¬ForestM.Accepts refusals (writes.map Prod.fst) ∧
        ∃ reason, writeEach refusals writes store = .error reason { store with
          tables := (reached refusals writes).foldl (fun tables change => change.2 tables)
            store.tables }) := by
  unfold writeEach ForestM.Accepts reached
  induction writes generalizing store with
  | nil => exact Or.inl ⟨fun _ member => (by cases member), rfl⟩
  | cons change rest inductionHypothesis =>
    have unrolled : (change :: rest).forM (fun change => write refusals change.1 change.2) =
        (write refusals change.1 change.2 >>= fun _ =>
          rest.forM fun change => write refusals change.1 change.2) := rfl
    rw [unrolled, List.map_cons, List.forall_mem_cons, List.takeWhile_cons]
    rcases answer : refusals change.1 with _ | reason
    · rw [if_pos (by rfl), List.foldl_cons,
        Fallible.bind_of_result_ok (write_of_accepted answer change.2 store)]
      rcases inductionHypothesis { store with tables := change.2 store.tables } with
        ⟨accepted, done⟩ | ⟨refused, failed⟩
      · exact Or.inl ⟨⟨rfl, accepted⟩, done⟩
      · exact Or.inr ⟨fun both => refused both.2, failed⟩
    · rw [if_neg (by simp)]
      refine Or.inr ⟨fun both => (by cases both.1), reason, ?_⟩
      exact Fallible.bind_eq_result_error.mpr (Or.inl (write_of_refused answer change.2 store))

theorem writeEach_append (refusals : Refusals)
    (first second : List (Statement × (StoreTables Accounts → StoreTables Accounts))) :
    writeEach refusals (first ++ second) =
      (writeEach refusals first >>= fun _ => writeEach refusals second) := by
  induction first with
  | nil => rfl
  | cons change rest inductionHypothesis =>
    show (write refusals change.1 change.2 >>= fun _ => writeEach refusals (rest ++ second)) =
      ((write refusals change.1 change.2 >>= fun _ => writeEach refusals rest) >>= fun _ =>
        writeEach refusals second)
    rw [inductionHypothesis, bind_assoc]

theorem writeEach_forest (refusals : Refusals)
    (writes : List (Statement × (StoreTables Accounts → StoreTables Accounts)))
    (store : Store Accounts) :
    (Fallible.finalState (writeEach refusals writes store)).forest = store.forest := by
  rcases writeEach_cases refusals writes store with ⟨-, done⟩ | ⟨-, reason, failed⟩
  · rw [done]
    rfl
  · rw [failed]
    rfl

theorem writeEach_preserves (refusals : Refusals)
    (writes : List (Statement × (StoreTables Accounts → StoreTables Accounts))) :
    Fallible.Preserves (fun store : Store Accounts => invariant store.forest)
      (writeEach refusals writes) := by
  intro store holds
  show invariant (Fallible.finalState (writeEach refusals writes store)).forest
  rwa [writeEach_forest]

/-- Every write that is reached leaves the tables as they are. -/
def KeepsTables (refusals : Refusals)
    (writes : List (Statement × (StoreTables Accounts → StoreTables Accounts)))
    (tables : StoreTables Accounts) : Prop :=
  ∀ change ∈ reached refusals writes, change.2 tables = tables

theorem KeepsTables.foldl {refusals : Refusals}
    {writes : List (Statement × (StoreTables Accounts → StoreTables Accounts))}
    {tables : StoreTables Accounts} (keeps : KeepsTables refusals writes tables) :
    (reached refusals writes).foldl (fun tables change => change.2 tables) tables = tables :=
  foldl_write_fixed keeps

/-- A transaction that does not begin leaves the store as it is. -/
theorem inTransaction_of_refused {refusals : Refusals}
    {refused : {reason : StoreError // reason.isPanic = false}}
    (refuses : refusals .begin = some refused)
    (body : StoreTables Accounts → ForestM (StoreTables Accounts)) (store : Store Accounts) :
    inTransaction refusals body store = .error refused.val store := by
  unfold inTransaction
  dsimp only
  rw [Fallible.bind_eq_result_error.mpr (Or.inl
    (ForestM.statement_of_refused refuses store.forest))]
  dsimp only
  rw [failed_of_ordinary refused.property]

theorem inTransaction_of_error {refusals : Refusals} (begun : refusals .begin = none)
    {body : StoreTables Accounts → ForestM (StoreTables Accounts)} {store : Store Accounts}
    {reason : StoreError} {last : AccountSmtForest}
    (stopped : body store.tables store.forest = .error reason last) :
    inTransaction refusals body store = .error reason (failed reason last store) := by
  unfold inTransaction
  dsimp only
  rw [Fallible.bind_of_result_ok (ForestM.statement_of_accepted begun store.forest),
    Fallible.bind_eq_result_error.mpr (Or.inl stopped)]

theorem inTransaction_of_ok {refusals : Refusals} (begun : refusals .begin = none)
    {body : StoreTables Accounts → ForestM (StoreTables Accounts)} {store : Store Accounts}
    {tables : StoreTables Accounts} {last : AccountSmtForest}
    (ran : body store.tables store.forest = .ok tables last) :
    inTransaction refusals body store = match refusals .commit with
      | none => .ok () { store with tables := tables, forest := last }
      | some refused => .error refused.val { store with forest := last } := by
  unfold inTransaction
  dsimp only
  rw [Fallible.bind_of_result_ok (ForestM.statement_of_accepted begun store.forest),
    Fallible.bind_of_result_ok ran]
  rcases answered : refusals .commit with _ | refused
  · rw [Fallible.bind_of_result_ok (ForestM.statement_of_accepted answered last)]
    rfl
  · rw [Fallible.bind_eq_result_error.mpr (Or.inl (ForestM.statement_of_refused answered last))]
    dsimp only
    rw [failed_of_ordinary refused.property]

/-- A transaction leaves the forest as its body leaves it. -/
theorem inTransaction_forest {refusals : Refusals} (begun : refusals .begin = none)
    (body : StoreTables Accounts → ForestM (StoreTables Accounts)) (store : Store Accounts) :
    (Fallible.finalState (inTransaction refusals body store)).forest =
      Fallible.finalState (body store.tables store.forest) := by
  rcases outcome : body store.tables store.forest with ⟨tables, last⟩ | ⟨reason, last⟩
  · rw [inTransaction_of_ok begun outcome]
    split
    · rfl
    · rfl
  · rw [inTransaction_of_error begun outcome]
    rfl

/-- A transaction that fails leaves the tables as they are. -/
theorem tables_of_inTransaction_eq_error {refusals : Refusals}
    {body : StoreTables Accounts → ForestM (StoreTables Accounts)} {store after : Store Accounts}
    {reason : StoreError} (stopped : inTransaction refusals body store = .error reason after) :
    after.tables = store.tables := by
  unfold inTransaction at stopped
  dsimp only at stopped
  split at stopped
  · cases stopped
  · cases stopped
    rfl

/-- A transaction panics only where its body does. -/
theorem inTransaction_throws {refusals : Refusals}
    {body : StoreTables Accounts → ForestM (StoreTables Accounts)} {store after : Store Accounts}
    {reason : StoreError}
    (ordinary : ∀ reason last, body store.tables store.forest = .error reason last →
      reason.IsOrdinary)
    (stopped : inTransaction refusals body store = .error reason after) : reason.IsOrdinary := by
  rcases begun : refusals .begin with _ | refused
  swap
  · rw [inTransaction_of_refused begun] at stopped
    cases stopped
    exact refused.property
  rcases outcome : body store.tables store.forest with ⟨tables, last⟩ | ⟨other, last⟩
  · rw [inTransaction_of_ok begun outcome] at stopped
    split at stopped
    · cases stopped
    · rename_i refused _
      cases stopped
      exact refused.property
  · rw [inTransaction_of_error begun outcome] at stopped
    cases stopped
    exact ordinary _ last outcome

/-- A transaction without a panic gives the lock back. -/
theorem inTransaction_lock {refusals : Refusals} (begun : refusals .begin = none)
    {body : StoreTables Accounts → ForestM (StoreTables Accounts)} {store : Store Accounts}
    (ordinary : ∀ reason last, body store.tables store.forest = .error reason last →
      reason.IsOrdinary) :
    (Fallible.finalState (inTransaction refusals body store)).forestPoisoned =
      store.forestPoisoned := by
  rcases outcome : body store.tables store.forest with ⟨tables, last⟩ | ⟨reason, last⟩
  · rw [inTransaction_of_ok begun outcome]
    split
    · rfl
    · rfl
  · rw [inTransaction_of_error begun outcome, failed_of_ordinary (ordinary reason last outcome)]
    rfl

/-- A failure leaves the lock alone when it is no panic, or finds the lock poisoned already. -/
theorem failed_of_lock {reason : StoreError} {store : Store Accounts}
    (lock : reason.IsOrdinary ∨ store.forestPoisoned = true) (forest : AccountSmtForest) :
    failed reason forest store = { store with forest := forest } := by
  rcases lock with ordinary | poisoned
  · exact failed_of_ordinary ordinary forest store
  · unfold failed
    rw [poisoned, Bool.true_or]

theorem unchanged_failed {reason : StoreError} {forest : AccountSmtForest} {store : Store Accounts}
    (same : forest.SameRegistration store.forest)
    (lock : reason.IsOrdinary ∨ store.forestPoisoned = true) :
    store.Unchanged (failed reason forest store) := by
  rw [failed_of_lock lock]
  exact ⟨rfl, same, rfl⟩

end StoreM

/-! ### Roots after an update -/

namespace AccountSmtForest

variable {forest last : AccountSmtForest}

theorem rootStack_discardStates (forest : AccountSmtForest) (states : List (AccountId × Word))
    (id : AccountId) :
    (forest.discardStates states).rootStack id =
      RootStack.discard^[states.countP fun state => state.1 = id] (forest.rootStack id) := by
  unfold discardStates
  induction states generalizing forest with
  | nil => rfl
  | cons state rest inductionHypothesis =>
    rw [List.foldl_cons, inductionHypothesis, rootStack_discardRoots, List.countP_cons]
    by_cases same : state.1 = id
    · rw [if_pos same, if_pos (decide_eq_true same), Function.iterate_succ_apply, same]
    · rw [if_neg same, if_neg (by simpa using same)]
      rfl

theorem rootStack_commitAccounts (forest : AccountSmtForest) (accounts : List AccountId)
    (id : AccountId) :
    (accounts.foldl commitRoots forest).rootStack id =
      if id ∈ accounts then (forest.rootStack id).commit else forest.rootStack id := by
  induction accounts generalizing forest with
  | nil => rfl
  | cons account rest inductionHypothesis =>
    rw [List.foldl_cons, inductionHypothesis, rootStack_commitRoots]
    by_cases same : account = id
    · subst same
      rw [if_pos rfl, if_pos List.mem_cons_self]
      split
      · rfl
      · rfl
    · simp only [if_neg same, List.mem_cons, Ne.symm same, false_or]

/-- Discards the staged roots of discarded transactions, then gives up the replaced roots of the
accounts of committed ones. -/
def settle (forest : AccountSmtForest) (discardedStates : List (AccountId × Word))
    (committedAccounts : List AccountId) : AccountSmtForest :=
  committedAccounts.foldl commitRoots (forest.discardStates discardedStates)

theorem rootStack_settle (forest : AccountSmtForest) (discardedStates : List (AccountId × Word))
    (committedAccounts : List AccountId) (id : AccountId) :
    (forest.settle discardedStates committedAccounts).rootStack id =
      (forest.rootStack id).settle (discardedStates.countP fun state => state.1 = id)
        (decide (id ∈ committedAccounts)) := by
  unfold settle RootStack.settle
  rw [rootStack_commitAccounts, rootStack_discardStates]
  simp only [decide_eq_true_eq]

theorem WellCounted.discardStates (well : forest.WellCounted)
    (discardedStates : List (AccountId × Word)) :
    (forest.discardStates discardedStates).WellCounted := by
  unfold AccountSmtForest.discardStates
  induction discardedStates generalizing forest with
  | nil => exact well
  | cons state rest inductionHypothesis => exact inductionHypothesis (well.discardRoots state.1)

theorem WellCounted.commitAccounts (well : forest.WellCounted)
    (committedAccounts : List AccountId) :
    (committedAccounts.foldl AccountSmtForest.commitRoots forest).WellCounted := by
  induction committedAccounts generalizing forest with
  | nil => exact well
  | cons account rest inductionHypothesis => exact inductionHypothesis (well.commitRoots account)

theorem WellCounted.settle (well : forest.WellCounted) (discardedStates : List (AccountId × Word))
    (committedAccounts : List AccountId) :
    (forest.settle discardedStates committedAccounts).WellCounted :=
  (well.discardStates discardedStates).commitAccounts committedAccounts

/-- The last of the accounts with an id. -/
def lastWithId (accounts : List Account) (id : AccountId) : Option Account :=
  (accounts.filter fun account => account.id = id).getLast?

theorem lastWithId_cons (account : Account) (rest : List Account) (id : AccountId) :
    lastWithId (account :: rest) id =
      (lastWithId rest id).or (if account.id = id then some account else none) := by
  unfold lastWithId
  by_cases same : account.id = id
  · rw [List.filter_cons_of_pos (by simpa using same), if_pos same, List.getLast?_cons]
    generalize (rest.filter fun account => account.id = id).getLast? = later
    rcases later with _ | found <;> rfl
  · rw [List.filter_cons_of_neg (by simpa using same), if_neg same, Option.or_none]

section Registering

variable [ProtocolLibrary]

theorem update_register_of_error {account : Account} {reason : StoreError}
    (failed : forest.insertAndRegisterAccountState account = .error reason) :
    ForestM.update (fun forest : AccountSmtForest =>
      (forest.insertAndRegisterAccountState account).map fun next => (next, ())) forest =
        .error reason forest := by
  rw [ForestM.update, failed]
  rfl

theorem update_register_of_ok {account : Account} {next : AccountSmtForest}
    (registered : forest.insertAndRegisterAccountState account = .ok next) :
    ForestM.update (fun forest : AccountSmtForest =>
      (forest.insertAndRegisterAccountState account).map fun next => (next, ())) forest =
        .ok () next := by
  rw [ForestM.update, registered]
  rfl

/-- Registers whole accounts, one after the other. -/
def registerAll (forest : AccountSmtForest) (accounts : List Account) :
    Except StoreError AccountSmtForest :=
  accounts.foldlM insertAndRegisterAccountState forest

theorem registerAll_cons {account : Account} {rest : List Account}
    (registered : forest.registerAll (account :: rest) = .ok last) :
    ∃ next, forest.insertAndRegisterAccountState account = .ok next ∧
      next.registerAll rest = .ok last := by
  unfold registerAll at registered ⊢
  rw [List.foldlM_cons] at registered
  exact Fallible.bind_eq_ok.mp registered

/-- Registering a whole account keeps the counts right, or leaves the forest as it is. -/
theorem update_register_wellCounted (account : Account) :
    Fallible.Preserves WellCounted (ForestM.update fun forest : AccountSmtForest =>
      (forest.insertAndRegisterAccountState account).map fun next => (next, ())) := by
  refine ForestM.update_preserves _ fun forest next _ registered well => ?_
  rcases outcome : forest.insertAndRegisterAccountState account with reason | last
  · rw [outcome] at registered
    cases registered
  · rw [outcome] at registered
    cases registered
    exact well.insertAndRegisterAccountState outcome

/-- What registering several accounts changes. -/
theorem registerAll_eq_ok {accounts : List Account}
    (registered : forest.registerAll accounts = .ok last) :
    (forest.WellCounted → last.WellCounted) ∧
      ∀ id, (lastWithId accounts id = none → last.rootStack id = forest.rootStack id) ∧
        ∀ account, lastWithId accounts id = some account → (forest.rootStack id).old = [] ∧
          last.rootStack id = (forest.rootStack id).replace (collectAccountRoots account) := by
  induction accounts generalizing forest with
  | nil =>
    cases registered
    exact ⟨fun well => well, fun id => ⟨fun _ => rfl, fun account none_ => (by cases none_)⟩⟩
  | cons first rest inductionHypothesis =>
    obtain ⟨next, firstDone, restDone⟩ := registerAll_cons registered
    obtain ⟨restWell, restLists⟩ := inductionHypothesis restDone
    obtain ⟨absent, -, lists⟩ := insertAndRegisterAccountState_eq_ok firstDone
    refine ⟨fun well => restWell (well.insertAndRegisterAccountState firstDone), fun id => ?_⟩
    have firstLists := lists id
    rw [lastWithId_cons]
    rcases later : lastWithId rest id with _ | found
    · have kept := (restLists id).1 later
      rw [Option.none_or]
      by_cases same : first.id = id
      · rw [if_pos same] at firstLists ⊢
        refine ⟨fun none_ => (by cases none_), fun account only => ?_⟩
        cases only
        refine ⟨?_, kept.trans firstLists⟩
        rw [rootStack, ← same, absent]
        rfl
      · rw [if_neg same] at firstLists ⊢
        exact ⟨fun _ => kept.trans firstLists, fun account none_ => (by cases none_)⟩
    · rw [Option.some_or]
      refine ⟨fun none_ => (by cases none_), fun account only => ?_⟩
      obtain ⟨free, replaced⟩ := (restLists id).2 account (later.trans only)
      have same : (forest.rootStack id).old = (next.rootStack id).old := by
        rw [firstLists]
        split
        · rfl
        · rfl
      rw [same]
      exact ⟨free, by rw [replaced, RootStack.replace, RootStack.replace, same]⟩

/-- None of the accounts has staged roots. -/
def Settled (forest : AccountSmtForest) (accounts : List Account) : Prop :=
  ∀ account ∈ accounts, forest.pendingOldRoots[account.id]? = none

omit [ProtocolLibrary] in
theorem settled_cons (forest : AccountSmtForest) (account : Account) (rest : List Account) :
    forest.Settled (account :: rest) ↔
      forest.pendingOldRoots[account.id]? = none ∧ forest.Settled rest :=
  List.forall_mem_cons

/-- Roots are replaced or there is a panic. -/
theorem update_register_cases (forest : AccountSmtForest) (account : Account) :
    (forest.pendingOldRoots[account.id]? = none ∧ ∃ next,
        forest.insertAndRegisterAccountState account = .ok next ∧
        next.pendingOldRoots = forest.pendingOldRoots ∧
        ForestM.update (fun forest : AccountSmtForest =>
          (forest.insertAndRegisterAccountState account).map fun next => (next, ())) forest =
            .ok () next) ∨
      (forest.pendingOldRoots[account.id]? ≠ none ∧
        ForestM.update (fun forest : AccountSmtForest =>
          (forest.insertAndRegisterAccountState account).map fun next => (next, ())) forest =
            .error (.stagedChangesPending account.id) forest) := by
  rcases forest.insertAndRegisterAccountState_cases account with
    ⟨pending, panics⟩ | ⟨-, next, registered, -⟩
  · refine Or.inr ⟨fun absent => ?_, update_register_of_error panics⟩
    rw [ExtTreeMap.contains_eq_isSome_getElem?, absent] at pending
    cases pending
  · obtain ⟨absent, kept, -⟩ := insertAndRegisterAccountState_eq_ok registered
    exact Or.inl ⟨absent, next, registered, kept, update_register_of_ok registered⟩

/-- Settling and registering change nothing: the lists of a registered account are the new ones
already, and for the others there is nothing to discard or to give up. -/
def KeepsRoots (forest : AccountSmtForest) (discardedStates : List (AccountId × Word))
    (committedAccounts : List AccountId) (registered : List Account) : Prop :=
  ∀ id, match lastWithId registered id with
    | some account => forest.rootStack id = ⟨some (collectAccountRoots account), []⟩
    | none => (id ∈ discardedStates.map Prod.fst → forest.rootStack id = ⟨none, []⟩) ∧
        (id ∈ committedAccounts → (forest.rootStack id).old = [])

/-- Settling and registering leave the registration alone exactly when there is nothing to
change. -/
theorem sameRegistration_settled_iff (well : forest.WellCounted)
    {discardedStates : List (AccountId × Word)} {committedAccounts : List AccountId}
    {accounts : List Account}
    (registered : (forest.settle discardedStates committedAccounts).registerAll accounts =
      .ok last) :
    last.SameRegistration forest ↔
      forest.KeepsRoots discardedStates committedAccounts accounts := by
  obtain ⟨lastWell, lists⟩ := registerAll_eq_ok registered
  rw [sameRegistration_iff well (lastWell (well.settle discardedStates committedAccounts))]
  refine forall_congr' fun id => ?_
  have settled := forest.rootStack_settle discardedStates committedAccounts id
  have discards : 0 < discardedStates.countP (fun state => state.1 = id) ↔
      id ∈ discardedStates.map Prod.fst := by
    rw [List.countP_pos_iff, List.mem_map]
    simp only [decide_eq_true_eq]
  rcases found : lastWithId accounts id with _ | account
  · rw [(lists id).1 found, settled, RootStack.settle_eq_iff, discards, decide_eq_true_eq]
  · obtain ⟨free, replaced⟩ := (lists id).2 account found
    rw [settled] at free replaced
    rw [replaced]
    exact RootStack.replace_settle_eq_iff _ _ _ free

theorem keepsRoots_singleton_iff (forest : AccountSmtForest) (account : Account) :
    forest.KeepsRoots [] [] [account] ↔
      forest.rootStack account.id = ⟨some (collectAccountRoots account), []⟩ := by
  constructor
  · intro keeps
    have own := keeps account.id
    rwa [lastWithId_cons, if_pos rfl] at own
  · intro same id
    rw [lastWithId_cons]
    by_cases own : account.id = id
    · subst own
      rwa [if_pos rfl]
    · rw [if_neg own]
      exact ⟨fun member => (by cases member), fun member => (by cases member)⟩

/-- Registering one account changes nothing exactly when its roots are registered already. -/
theorem insertAndRegister_sameRegistration_iff (well : forest.WellCounted) {account : Account}
    (registered : forest.insertAndRegisterAccountState account = .ok last) :
    last.SameRegistration forest ↔
      forest.getRoots account.id = some (collectAccountRoots account) := by
  obtain ⟨absent, -, -⟩ := insertAndRegisterAccountState_eq_ok registered
  have only : (forest.settle [] []).registerAll [account] = .ok last :=
    Fallible.bind_eq_ok.mpr ⟨last, registered, rfl⟩
  rw [sameRegistration_settled_iff well only, keepsRoots_singleton_iff]
  constructor
  · exact fun same => congrArg RootStack.current same
  · intro same
    refine RootStack.ext same ?_
    rw [rootStack, absent]
    rfl

end Registering

end AccountSmtForest

end MidenClient
