/-
This file models the calls of the client that change the headers of accounts, on either store
(`add_account` and `prune_account_history` in `rust-client/src/account/mod.rs`,
`apply_transaction_update` in `rust-client/src/transaction/mod.rs`, and a state sync).

The client reads the stored header before it hands a transaction or a new state to the store.
The store itself does not look at the lock: it writes every new header without one.
-/

import MidenClient.Account.Addresses
import MidenClient.Sqlite.StoreRun
import MidenClient.Store.Atomicity

namespace MidenClient

open Std (ExtTreeMap)

/-! ### The stores -/

namespace SqliteStore

/-- `add_note_tag`. -/
def addNoteTag (refusals : Refusals) (record : NoteTagRecord) : StoreM Database Unit := do
  StoreM.read refusals .readTags
  let store ← get
  if record ∈ store.tables.client.noteTags then pure ()
  else StoreM.write refusals (.addTag record) (onClient fun client => client.addNoteTag record)

/-- `insert_account`: the tables come before the forest. The tag is that of the first address. -/
def insertAccount [ProtocolLibrary] (refusals : Refusals) (account : Account)
    (tag : NoteTagRecord) : StoreM Database Unit := do
  StoreM.inTransaction refusals fun tables => do
    ForestM.statement refusals (.accountState account.id)
    let accounts ← ForestM.liftExcept (tables.accounts.insertAccountTables account)
    ForestM.writeAll refusals [(.addTag tag, onClient fun client =>
      { client with noteTags := client.noteTags ++ [tag] })] { tables with accounts := accounts }
  StoreM.withForest fun _ => ForestM.update fun forest =>
    (forest.insertAndRegisterAccountState account).map fun next => (next, ())

/-- `prune_account_history`. -/
def pruneAccountHistory (refusals : Refusals) (foreignCodes : Finset Word) (accountId : AccountId)
    (upToNonce : ℕ) : StoreM Database Unit :=
  StoreM.inTransaction refusals fun tables =>
    ForestM.writeAll refusals [(.pruneHistory accountId, fun tables =>
      { tables with
        accounts := tables.accounts.pruneAccountHistory foreignCodes accountId upToNonce })] tables

end SqliteStore

namespace IdxdbStore

section Inserting

variable [ProtocolLibrary]

/-- The parts of `insert_account`, each of which is a put of its own. The address goes to a table
that is left out here. -/
def insertWrites (account : Account) :
    List (Statement × (StoreTables IdxdbDatabase → StoreTables IdxdbDatabase)) :=
  [(.accountCode account.codeCommitment, onAccounts fun db =>
      { db with accountCodes := insert account.codeCommitment db.accountCodes }),
    (.accountStorage account.id, onAccounts fun db =>
      { db with accountStorages := db.accountStorages.upsert account.id account.storageSlots }),
    (.storageMapEntries account.id, onAccounts fun db =>
      { db with storageMapEntries := db.storageMapEntries.upsert account.id account.mapEntries }),
    (.accountVault account.id, onAccounts fun db =>
      { db with accountAssets := db.accountAssets.upsert account.id account.vaultAssets }),
    (.accountHeader account.id, onAccounts fun db =>
      { db with latestAccountHeaders :=
          db.latestAccountHeaders.insert account.id ⟨account.toHeader, account.seed, false⟩ }),
    (.accountAddress account.id, id)]

/-- `insert_account`: the tables come before the forest. -/
def insertAccount (refusals : Refusals) (account : Account) : StoreM IdxdbDatabase Unit := do
  StoreM.writeEach refusals (insertWrites account)
  StoreM.withForest fun _ => registerAccounts [account]

end Inserting

/-- `prune_account_history`. -/
def pruneAccountHistory [ProtocolLibrary] (refusals : Refusals) (foreignCodes : Finset Word)
    (accountId : AccountId) (upToNonce : ℕ) : StoreM IdxdbDatabase Unit :=
  StoreM.write refusals (.pruneHistory accountId)
    (onAccounts fun db => db.pruneAccountHistory foreignCodes accountId upToNonce)

end IdxdbStore

/-- What the client uses of a store for its accounts. -/
class AccountStore (Accounts : Type) where
  empty : Accounts
  latestAccountHeaders : Accounts → ExtTreeMap AccountId HeaderRow
  addNoteTag : Refusals → NoteTagRecord → StoreM Accounts Unit
  insertAccount : Refusals → Account → NoteTagRecord → StoreM Accounts Unit
  update : Refusals → UpdateCall → StoreM Accounts Unit
  pruneAccountHistory : Refusals → Finset Word → AccountId → ℕ → StoreM Accounts Unit

section Stores

variable [NoteLibrary] [ProtocolLibrary]

instance : AccountStore Database where
  empty := Database.empty
  latestAccountHeaders := Database.latestAccountHeaders
  addNoteTag := SqliteStore.addNoteTag
  insertAccount := SqliteStore.insertAccount
  update := SqliteStore.perform
  pruneAccountHistory := SqliteStore.pruneAccountHistory

instance : AccountStore IdxdbDatabase where
  empty := IdxdbDatabase.empty
  latestAccountHeaders := IdxdbDatabase.latestAccountHeaders
  addNoteTag := IdxdbStore.addNoteTag
  insertAccount refusals account _ := IdxdbStore.insertAccount refusals account
  update := IdxdbStore.perform
  pruneAccountHistory := IdxdbStore.pruneAccountHistory

end Stores

/-! ### The client -/

/-- The errors of the calls. -/
inductive AccountCallError where
  | accountLocked (accountId : AccountId)
  | accountDataNotFound (accountId : AccountId)
  | addressError (error : AddressError)
  | storeError (error : StoreError)

/-- A call on an open store; what was done before a failure stays. -/
abbrev AccountCallM (Accounts : Type) := EStateM AccountCallError (Store Accounts)

namespace AccountCallM

variable {Accounts : Type}

def store (operation : StoreM Accounts Unit) : AccountCallM Accounts Unit := fun store =>
  match operation store with
  | .ok _ after => .ok () after
  | .error reason after => .error (.storeError reason) after

def check (checked : Except AddressError Unit) : AccountCallM Accounts Unit := fun store =>
  match checked with
  | .ok _ => .ok () store
  | .error error => .error (.addressError error) store

end AccountCallM

/-- A call of the client, with the answers of the node during it. The state that a delta holds is
one of the account that the transaction is for. -/
inductive AccountCall where
  | addAccount (node : AddressNode) (account : Account) (overwrite : Bool)
  | applyTransaction (update : TransactionStoreUpdate)
      (ofAccount : ∀ account, update.fullState = some account →
        account.id = update.executedTransaction.finalAccount.id)
  | applyStateSync (update : SyncStoreUpdate)
  | pruneAccountHistory (foreignCodes : Finset Word) (accountId : AccountId) (upToNonce : ℕ)
  /-- The store is closed and opened again, with a forest that is built anew. -/
  | reopen (forest : AccountSmtForest)

namespace AccountStore

variable {Accounts : Type} [AccountStore Accounts] [AddressLibrary] [ProtocolLibrary]

/-- What the checks of `add_account` read of a store. -/
def addressTables (store : Store Accounts) : AddressTables where
  accounts := (latestAccountHeaders store.tables.accounts).map fun _ row =>
    ⟨row.header.nonce, row.locked⟩
  noteTags := store.tables.client.noteTags
  addresses := ∅

/-- `add_account`, when the account is not tracked. -/
def addNewAccount (refusals : Refusals) (node : AddressNode) (account : Account) :
    AccountCallM Accounts Unit := do
  AccountCallM.check ((addressTables (← get)).checkAccountLimit node)
  AccountCallM.check ((addressTables (← get)).checkNoteTagLimit node)
  let tag := AddressTables.tagRecord (AddressLibrary.ofAccount account.id) account.id
  AccountCallM.store (addNoteTag refusals tag)
  AccountCallM.store (insertAccount refusals account tag)

/-- `add_account`. -/
def addAccount (refusals : Refusals) (node : AddressNode) (account : Account) (overwrite : Bool) :
    AccountCallM Accounts Unit := do
  AccountCallM.check (AddressTables.checkSeed account)
  AccountCallM.store (StoreM.read refusals .readHeader)
  match (latestAccountHeaders (← get).tables.accounts)[account.id]? with
  | none => addNewAccount refusals node account
  | some row => do
    AccountCallM.check (AddressTables.checkOverwrite node account overwrite
      ⟨row.header.nonce, row.locked⟩)
    AccountCallM.store (update refusals (.updateAccount account))

omit [AddressLibrary] [ProtocolLibrary] in
/-- `apply_transaction_update`. -/
def applyTransactionUpdate (refusals : Refusals) (transaction : TransactionStoreUpdate) :
    AccountCallM Accounts Unit := do
  let accountId := transaction.executedTransaction.finalAccount.id
  AccountCallM.store (StoreM.read refusals .readHeader)
  match (latestAccountHeaders (← get).tables.accounts)[accountId]? with
  | none => throw (.accountDataNotFound accountId)
  | some row =>
    if row.locked then throw (.accountLocked accountId)
    else AccountCallM.store (update refusals (.applyTransaction transaction))

def call (refusals : Refusals) : AccountCall → AccountCallM Accounts Unit
  | .addAccount node account overwrite => addAccount refusals node account overwrite
  | .applyTransaction transaction _ => applyTransactionUpdate refusals transaction
  | .applyStateSync synced => AccountCallM.store (update refusals (.applyStateSync synced))
  | .pruneAccountHistory foreignCodes accountId upToNonce =>
    AccountCallM.store (pruneAccountHistory refusals foreignCodes accountId upToNonce)
  | .reopen forest => modify fun store => { store with forest := forest, forestPoisoned := false }

/-- The store after a call, failed or not. -/
def perform (store : Store Accounts) (operation : Refusals × AccountCall) : Store Accounts :=
  Fallible.finalState (call operation.1 operation.2 store)

omit [AddressLibrary] [ProtocolLibrary] in
/-- A store that was never used. -/
def new : Store Accounts :=
  ⟨⟨empty, ClientStore.empty, ∅, ∅, ∅⟩, AccountSmtForest.new, false⟩

end AccountStore

end MidenClient
