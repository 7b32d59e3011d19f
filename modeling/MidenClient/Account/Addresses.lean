/-
This file models the addresses of accounts and the note tags that are derived from them
(`add_account`, `add_address` and `remove_address` in `rust-client/src/account/mod.rs`, and
`insert_account`, `insert_address` and `remove_address` of both stores).

An address has one row, whatever account it is for, while a tag has a row for each account that
tracks it. The two tables are written together on the assumption that an address is registered
for the account the call names.

What a store writes of the account itself plays no part here: an account is tracked or not, with
the nonce and the lock that `add_account` asks for.
-/

import MidenClient.Account
import MidenClient.Library.Run
import MidenClient.Store.ChainData

namespace MidenClient

open Std (ExtTreeMap)
open Fallible

/-- An address in its serialized form. -/
abbrev Address := ℕ

abbrev NetworkId := String

/-- What the client uses of the protocol library for addresses. -/
class AddressLibrary where
  /-- `Address::new`: the address of an account without routing parameters. -/
  ofAccount : AccountId → Address
  toNoteTag : Address → NoteTag
  encode : NetworkId → Address → String

/-- The errors of the three calls. -/
inductive AddressError where
  | addNewAccountWithoutSeed
  | accountAlreadyTracked (accountId : AccountId)
  | accountNonceTooLow
  | accountCommitmentMismatch (commitment : Word)
  | accountsLimitExceeded (limit : ℕ)
  | noteTagsLimitExceeded (limit : ℕ)
  | accountDataNotFound (accountId : AccountId)
  | addressAlreadyTracked (address : String)
  | noteTagDerivedAddressAlreadyTracked (address : String) (tag : NoteTag)
  | rpcError (error : RpcError)
  /-- `StoreError::NoteTagAlreadyTracked`. -/
  | noteTagAlreadyTracked (tag : NoteTag)
  deriving DecidableEq, Repr

/-- The answers of the node that the calls ask for. -/
structure AddressNode where
  networkId : Except RpcError NetworkId
  /-- The limits on account ids and on note tags. -/
  rpcLimits : Except RpcError (ℕ × ℕ)
  accountCommitment : AccountId → Except RpcError Word

/-- What `add_account` reads of a tracked account. -/
structure TrackedAccount where
  nonce : ℕ
  isLocked : Bool
  deriving DecidableEq, Repr

/-- The tables of accounts, tags and addresses. -/
structure AddressTables where
  accounts : ExtTreeMap AccountId TrackedAccount
  noteTags : List NoteTagRecord
  addresses : ExtTreeMap Address AccountId

def NoteTagRecord.withAccountSource (tag : NoteTag) (accountId : AccountId) : NoteTagRecord :=
  ⟨tag, .account accountId⟩

namespace AddressTables

def empty : AddressTables :=
  ⟨∅, [], ∅⟩

/-! ### The stores -/

/-- Tracks a tag without a look at the tags that are there. -/
def addNoteTagTx (tables : AddressTables) (record : NoteTagRecord) : AddressTables :=
  { tables with noteTags := tables.noteTags ++ [record] }

/-- Tracks a tag, and says whether it was new. -/
def addNoteTag (tables : AddressTables) (record : NoteTagRecord) : Bool × AddressTables :=
  if record ∈ tables.noteTags then (false, tables) else (true, tables.addNoteTagTx record)

def removeNoteTag (tables : AddressTables) (record : NoteTagRecord) : AddressTables :=
  { tables with noteTags := tables.noteTags.filter (· ≠ record) }

/-- Writes the row of an address, over the one that is there. -/
def putAddress (tables : AddressTables) (address : Address) (accountId : AccountId) :
    AddressTables :=
  { tables with addresses := tables.addresses.insert address accountId }

/-- The account with its new state, which is not locked. -/
def putAccount (tables : AddressTables) (account : Account) : AddressTables :=
  { tables with accounts := tables.accounts.insert account.id ⟨account.nonce, false⟩ }

variable [AddressLibrary]

def tagRecord (address : Address) (accountId : AccountId) : NoteTagRecord :=
  .withAccountSource (AddressLibrary.toNoteTag address) accountId

/-- The IndexedDB store refuses an address whose tag it tracks for the account. -/
def insertAddress (kind : StoreKind) (tables : AddressTables) (address : Address)
    (accountId : AccountId) : Except AddressError AddressTables :=
  match kind with
  | .sqlite => .ok ((tables.addNoteTagTx (tagRecord address accountId)).putAddress address
    accountId)
  | .idxdb =>
    match tables.addNoteTag (tagRecord address accountId) with
    | (true, added) => .ok (added.putAddress address accountId)
    | (false, _) => .error (.noteTagAlreadyTracked (AddressLibrary.toNoteTag address))

/-- The SQLite store adds the tag of the first address once more. -/
def insertAccount (kind : StoreKind) (tables : AddressTables) (account : Account)
    (initialAddress : Address) : AddressTables :=
  match kind with
  | .sqlite => ((tables.putAccount account).addNoteTagTx
      (tagRecord initialAddress account.id)).putAddress initialAddress account.id
  | .idxdb => (tables.putAccount account).putAddress initialAddress account.id

/-- The row of the address is deleted whatever account it is for. -/
def storeRemoveAddress (tables : AddressTables) (address : Address) (accountId : AccountId) :
    AddressTables :=
  let removed := tables.removeNoteTag (tagRecord address accountId)
  { removed with addresses := removed.addresses.erase address }

def addressesOf (tables : AddressTables) (accountId : AccountId) : List Address :=
  (tables.addresses.toList.filter fun entry => entry.2 = accountId).map Prod.fst

/-! ### The client -/

def checkAccountLimit (node : AddressNode) (tables : AddressTables) : Except AddressError Unit := do
  let limits ← node.rpcLimits.mapError .rpcError
  if limits.1 ≤ tables.accounts.size then throw (.accountsLimitExceeded limits.1)

def checkNoteTagLimit (node : AddressNode) (tables : AddressTables) : Except AddressError Unit := do
  let limits ← node.rpcLimits.mapError .rpcError
  if limits.2 ≤ (tables.noteTags.map NoteTagRecord.tag).toFinset.card then
    throw (.noteTagsLimitExceeded limits.2)

/-- A new account has nonce zero, and needs its seed. -/
def checkSeed (account : Account) : Except AddressError Unit :=
  if account.nonce = 0 ∧ account.seed = none then .error .addNewAccountWithoutSeed else .ok ()

variable [ProtocolLibrary]

/-- The checks of an account that is tracked already. -/
def checkOverwrite (node : AddressNode) (account : Account) (overwrite : Bool)
    (tracked : TrackedAccount) : Except AddressError Unit := do
  if !overwrite then throw (.accountAlreadyTracked account.id)
  if account.nonce < tracked.nonce then throw .accountNonceTooLow
  if tracked.isLocked then do
    let commitment ← (node.accountCommitment account.id).mapError .rpcError
    if commitment ≠ account.toHeader.toCommitment then throw (.accountCommitmentMismatch commitment)

def addAccount (kind : StoreKind) (node : AddressNode) (tables : AddressTables)
    (account : Account) (overwrite : Bool) : Except AddressError AddressTables := do
  checkSeed account
  match tables.accounts[account.id]? with
  | none => do
    checkAccountLimit node tables
    checkNoteTagLimit node tables
    let defaultAddress := AddressLibrary.ofAccount account.id
    let tagged := (tables.addNoteTag (tagRecord defaultAddress account.id)).2
    return tagged.insertAccount kind account defaultAddress
  | some tracked => do
    checkOverwrite node account overwrite tracked
    return tables.putAccount account

omit [ProtocolLibrary]

/-- The checks of `add_address`. -/
def checkAddress (node : AddressNode) (tables : AddressTables) (address : Address)
    (accountId : AccountId) : Except AddressError Unit := do
  let networkId ← node.networkId.mapError .rpcError
  let encoded := AddressLibrary.encode networkId address
  if address ∈ tables.addressesOf accountId then throw (.addressAlreadyTracked encoded)
  match tables.accounts[accountId]? with
  | none => throw (.accountDataNotFound accountId)
  | some _ => do
    if tagRecord address accountId ∈ tables.noteTags then
      throw (.noteTagDerivedAddressAlreadyTracked encoded (AddressLibrary.toNoteTag address))
    checkNoteTagLimit node tables

def addAddress (kind : StoreKind) (node : AddressNode) (tables : AddressTables)
    (address : Address) (accountId : AccountId) : Except AddressError AddressTables := do
  checkAddress node tables address accountId
  tables.insertAddress kind address accountId

end AddressTables

/-! ### Runs -/

/-- A call of the client, with the answers of the node during the call. -/
inductive AddressCall where
  | addAccount (node : AddressNode) (account : Account) (overwrite : Bool)
  | addAddress (node : AddressNode) (address : Address) (accountId : AccountId)
  | removeAddress (address : Address) (accountId : AccountId)

namespace AddressTables

variable [AddressLibrary] [ProtocolLibrary]

/-- The result of a call. -/
def call (kind : StoreKind) (tables : AddressTables) : AddressCall →
    Except AddressError AddressTables
  | .addAccount node account overwrite => tables.addAccount kind node account overwrite
  | .addAddress node address accountId => tables.addAddress kind node address accountId
  | .removeAddress address accountId => .ok (tables.storeRemoveAddress address accountId)

/-- The tables after a call. The statements of the stores are taken to succeed, so a call that fails
has failed in one of its checks, before it has written anything. -/
def perform (kind : StoreKind) (tables : AddressTables) (call : AddressCall) : AddressTables :=
  match tables.call kind call with
  | .ok next => next
  | .error _ => tables

end AddressTables

end MidenClient
