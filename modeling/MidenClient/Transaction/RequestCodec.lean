/-
This file models how a transaction request is written as bytes and read back
(`rust-client/src/transaction/request/mod.rs` and `foreign.rs`).

Foreign accounts are written without their keys, which are found again since each account is
kept under its own identifier.
-/

import MidenClient.Codecs
import MidenClient.Transaction.RequestBuilder

namespace MidenClient

open Std (ExtTreeMap)
open Codecs

/-- The codecs of what only a request carries. -/
class RequestCodecs [RequestLibrary] extends ProtocolCodecs where
  noteScript : Codec RequestLibrary.NoteScript
  transactionScript : Codec RequestLibrary.TransactionScript
  merkleStore : Codec RequestLibrary.MerkleStore
  partialAccount : Codec RequestLibrary.PartialAccount
  storageRequirements : Codec AccountStorageRequirements

section Codecs

variable [RequestLibrary] [RequestCodecs]

open ProtocolCodecs RequestCodecs

/-! ### Foreign accounts -/

namespace ForeignAccount

def writeInto : ForeignAccount → List UInt8
  | .isPublic id requirements =>
    [[0], ProtocolCodecs.accountId.write id, storageRequirements.write requirements].flatten
  | .isPrivate account => [[1], partialAccount.write account].flatten

def readFrom : Reader ForeignAccount := do
  match ← readU8 with
  | 0 =>
    let id ← ProtocolCodecs.accountId.read
    let requirements ← storageRequirements.read
    return .isPublic id requirements
  | 1 =>
    let account ← partialAccount.read
    return .isPrivate account
  | _ => throw (.invalidValue "Invalid account type")

theorem readsBack (account : ForeignAccount) :
    ReadsBack readFrom account.writeInto account := by
  cases account with
  | isPublic id requirements =>
    exact .u8_bind (.part (ProtocolCodecs.accountId.readsBack id)
      (.part (storageRequirements.readsBack requirements) (.done rfl)))
  | isPrivate account => exact .u8_bind (.part (partialAccount.readsBack account) (.done rfl))

def codec : Codec ForeignAccount :=
  ⟨writeInto, readFrom, readsBack⟩

end ForeignAccount

/-! ### Requests -/

namespace TransactionScriptTemplate

def writeInto : Option TransactionScriptTemplate → List UInt8
  | none => [0]
  | some (.customScript script) => 1 :: transactionScript.write script
  | some (.sendNotes notes) => 2 :: (Codec.list lengths partialNote).write notes

def readFrom : Reader (Option TransactionScriptTemplate) := do
  match ← readU8 with
  | 0 => return none
  | 1 =>
    let script ← transactionScript.read
    return some (.customScript script)
  | 2 =>
    let notes ← (Codec.list lengths partialNote).read
    return some (.sendNotes notes)
  | _ => throw (.invalidValue "Invalid script template type")

theorem readsBack (template : Option TransactionScriptTemplate) :
    ReadsBack readFrom (writeInto template) template := by
  rcases template with _ | script | notes
  · exact .u8_bind (.pure none)
  · exact .u8_bind ((transactionScript.readsBack script).map rfl)
  · exact .u8_bind (((Codec.list lengths partialNote).readsBack notes).map rfl)

end TransactionScriptTemplate

namespace FullTransactionRequest

/-- The first account of an identifier counts. -/
def foreignAccountsById (accounts : List ForeignAccount) : ExtTreeMap AccountId ForeignAccount :=
  OrderedMap.insertMissing ∅ (accounts.map fun account => (account.accountId, account))

def writeInto (request : FullTransactionRequest) : List UInt8 :=
  [(Codec.list lengths note).write request.inputNotes,
    (Codec.list lengths (.pair noteId (.option word))).write request.inputNotesArgs,
    TransactionScriptTemplate.writeInto request.scriptTemplate,
    (Codec.map lengths word noteRecipient).write request.expectedOutputRecipients,
    (Codec.map lengths noteId (.pair noteDetails noteTag)).write request.expectedFutureNotes,
    ProtocolCodecs.adviceMap.write request.adviceMap,
    RequestCodecs.merkleStore.write request.merkleStore,
    (Codec.list lengths ForeignAccount.codec).write (OrderedMap.values request.foreignAccounts),
    (Codec.option u16).write request.expirationDelta,
    [if request.ignoreInvalidInputNotes then 1 else 0],
    (Codec.option word).write request.scriptArg,
    (Codec.option word).write request.authArg,
    (Codec.list lengths noteScript).write request.expectedNtxScripts].flatten

def readFrom : Reader FullTransactionRequest := do
  let inputNotes ← (Codec.list lengths note).read
  let inputNotesArgs ← (Codec.list lengths (.pair noteId (.option word))).read
  let scriptTemplate ← TransactionScriptTemplate.readFrom
  let expectedOutputRecipients ← (Codec.map lengths word noteRecipient).read
  let expectedFutureNotes ← (Codec.map lengths noteId (.pair noteDetails noteTag)).read
  let adviceMap ← ProtocolCodecs.adviceMap.read
  let merkleStore ← RequestCodecs.merkleStore.read
  let foreignAccounts ← (Codec.list lengths ForeignAccount.codec).read
  let expirationDelta ← (Codec.option u16).read
  let ignoreInvalidInputNotes ← readU8
  let scriptArg ← (Codec.option word).read
  let authArg ← (Codec.option word).read
  let expectedNtxScripts ← (Codec.list lengths noteScript).read
  return {
    inputNotes := inputNotes
    inputNotesArgs := inputNotesArgs
    scriptTemplate := scriptTemplate
    expectedOutputRecipients := expectedOutputRecipients
    expectedFutureNotes := expectedFutureNotes
    adviceMap := adviceMap
    merkleStore := merkleStore
    foreignAccounts := foreignAccountsById foreignAccounts
    expirationDelta := expirationDelta
    ignoreInvalidInputNotes := ignoreInvalidInputNotes == 1
    scriptArg := scriptArg
    authArg := authArg
    expectedNtxScripts := expectedNtxScripts }

/-- Each foreign account is kept under its own identifier. -/
def KeyedAccounts (accounts : ExtTreeMap AccountId ForeignAccount) : Prop :=
  ∀ (accountId : AccountId) (account : ForeignAccount),
    accounts[accountId]? = some account → account.accountId = accountId

omit [RequestCodecs] in
/-- The foreign accounts are put together again from the accounts alone. -/
theorem foreignAccountsById_values {accounts : ExtTreeMap AccountId ForeignAccount}
    (keyed : KeyedAccounts accounts) :
    foreignAccountsById (OrderedMap.values accounts) = accounts := by
  unfold foreignAccountsById
  rw [OrderedMap.toList_eq_map_values keyed, OrderedMap.insertMissing_toList]

/-- A request whose foreign accounts are kept under their identifiers is read back. -/
theorem readsBack {request : FullTransactionRequest}
    (keyed : KeyedAccounts request.foreignAccounts) :
    ReadsBack readFrom request.writeInto request := by
  refine .part ((Codec.list lengths note).readsBack request.inputNotes) ?_
  refine .part (Codec.readsBack _ request.inputNotesArgs) ?_
  refine .part (TransactionScriptTemplate.readsBack request.scriptTemplate) ?_
  refine .part (Codec.readsBack _ request.expectedOutputRecipients) ?_
  refine .part (Codec.readsBack _ request.expectedFutureNotes) ?_
  refine .part (ProtocolCodecs.adviceMap.readsBack request.adviceMap) ?_
  refine .part (RequestCodecs.merkleStore.readsBack request.merkleStore) ?_
  refine .part (Codec.readsBack _ (OrderedMap.values request.foreignAccounts)) ?_
  refine .part (Codec.readsBack _ request.expirationDelta) ?_
  refine .part (readsBack_readU8 _) ?_
  refine .part (Codec.readsBack _ request.scriptArg) ?_
  refine .part (Codec.readsBack _ request.authArg) ?_
  refine .part (Codec.readsBack _ request.expectedNtxScripts) (.done ?_)
  have ignored : ((if request.ignoreInvalidInputNotes then 1 else 0 : UInt8) == 1) =
      request.ignoreInvalidInputNotes := by
    cases request.ignoreInvalidInputNotes <;> rfl
  rw [foreignAccountsById_values keyed, ignored]

end FullTransactionRequest

end Codecs

/-! ### Requests of a builder -/

namespace TransactionRequestBuilder

variable [NoteLibrary] [RequestLibrary]

/-- Every call keeps the foreign accounts under their identifiers. -/
theorem keyedAccounts_perform {builder : TransactionRequestBuilder}
    (keyed : FullTransactionRequest.KeyedAccounts builder.foreignAccounts) (call : Call) :
    FullTransactionRequest.KeyedAccounts (builder.perform call).foreignAccounts := by
  cases call with
  | foreignAccounts accounts =>
    intro accountId account found
    rcases OrderedMap.insertAll_eq_some found with held | listed
    · exact keyed accountId account held
    · obtain ⟨_, _, same⟩ := List.mem_map.mp listed
      cases same
      rfl
  | inputNotes | ownOutputNotes | expectedOutputRecipients | customScript | expectedFutureNotes
  | extendAdviceMap | extendMerkleStore | expirationDelta | ignoreInvalidInputNotes | scriptArg
  | authArg | expectedNtxScripts => exact keyed

theorem keyedAccounts_run (calls : List Call) :
    FullTransactionRequest.KeyedAccounts (run calls).foreignAccounts := by
  refine run_invariant (fun builder => FullTransactionRequest.KeyedAccounts builder.foreignAccounts)
    ?_ (fun _ call keyed => keyedAccounts_perform keyed call) calls
  intro accountId account found
  simp [new] at found

/-- Whatever a builder makes is read back from its bytes, and what follows them is left. -/
theorem build_readsBack [RequestCodecs] {calls : List Call} {request : FullTransactionRequest}
    (built : (run calls).build = .ok request) :
    ReadsBack FullTransactionRequest.readFrom request.writeInto request := by
  obtain ⟨_, _, _, _, _, foreignAccounts⟩ := build_eq_ok (run calls) built
  refine FullTransactionRequest.readsBack ?_
  rw [foreignAccounts]
  exact keyedAccounts_run calls

end TransactionRequestBuilder

namespace Sample

open Codec TransactionRequestBuilder

scoped instance requestCodecs : RequestCodecs where
  noteScript := unary
  transactionScript := unary
  merkleStore := list unary (pair unary (pair unary unary))
  partialAccount := unary
  storageRequirements := list unary (pair unary (list unary unary))

/-- A note is consumed and another one created, with a foreign account of each kind at hand. -/
def foreignCalls : List Call :=
  [.inputNotes [(emptyNote, some 4)], .ownOutputNotes [emptyNote], .expirationDelta 10,
    .foreignAccounts [.isPublic 3 [(1, [5])], .isPrivate (2 : AccountId)], .ignoreInvalidInputNotes]

theorem build_readsBack_foreignCalls : ∃ request, (run foreignCalls).build = .ok request ∧
    ReadsBack FullTransactionRequest.readFrom request.writeInto request := by
  obtain ⟨request, built⟩ : ∃ request, (run foreignCalls).build = .ok request := ⟨_, rfl⟩
  exact ⟨request, built, build_readsBack built⟩

end Sample

end MidenClient
