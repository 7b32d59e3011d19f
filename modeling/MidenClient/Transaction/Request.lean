/-
This file models the whole of a transaction request and the builder that makes one
(`rust-client/src/transaction/request/mod.rs` and `builder.rs`).

What a script, a Merkle store or a partial account is made of belongs to the protocol library;
a request only carries it. The methods that build a standard request call the methods for notes
below and then `build`, so they need no definition of their own.
-/

import MidenClient.Library.Panic
import MidenClient.Rpc.AccountProof
import MidenClient.Transaction.Execution

namespace MidenClient

open Std (ExtTreeMap)
open Panicking

/-- The data of the protocol library that a request carries. -/
class RequestLibrary where
  TransactionScript : Type
  NoteScript : Type
  PartialAccount : Type
  MerkleStore : Type
  partialAccountId : PartialAccount → AccountId
  /-- `MerkleStore::default`. -/
  emptyMerkleStore : MerkleStore
  /-- `MerkleStore::extend`, with the values of some nodes and of their children. -/
  extendMerkleStore : MerkleStore → List (Word × Word × Word) → MerkleStore

abbrev NoteArgs := Word

abbrev AdviceMap := ExtTreeMap Word (List ℕ)

/-- Account types for foreign procedure invocation. -/
inductive ForeignAccount [RequestLibrary] where
  | isPublic (accountId : AccountId) (requirements : AccountStorageRequirements)
  | isPrivate (account : RequestLibrary.PartialAccount)

def ForeignAccount.accountId [RequestLibrary] : ForeignAccount → AccountId
  | .isPublic accountId _ => accountId
  | .isPrivate account => RequestLibrary.partialAccountId account

/-- What the transaction script is made of: it is given, or creates the notes. -/
inductive TransactionScriptTemplate [RequestLibrary] where
  | customScript (script : RequestLibrary.TransactionScript)
  | sendNotes (notes : List PartialNote)

/-- A request with everything that is executed by an account. -/
structure FullTransactionRequest [RequestLibrary] extends TransactionRequest where
  inputNotesArgs : List (NoteId × Option NoteArgs)
  scriptTemplate : Option TransactionScriptTemplate
  adviceMap : AdviceMap
  merkleStore : RequestLibrary.MerkleStore
  foreignAccounts : ExtTreeMap AccountId ForeignAccount
  expirationDelta : Option ℕ
  scriptArg : Option Word
  authArg : Option Word
  expectedNtxScripts : List RequestLibrary.NoteScript

/-- The errors of building a request. -/
inductive RequestBuildError where
  | duplicateInputNote (noteId : NoteId)
  | scriptTemplateError (message : String)
  deriving DecidableEq, Repr

/-- A builder for a transaction request. -/
structure TransactionRequestBuilder [RequestLibrary] where
  inputNotes : List Note
  inputNotesArgs : List (NoteId × Option NoteArgs)
  ownOutputNotes : List Note
  expectedOutputRecipients : ExtTreeMap Word NoteRecipient
  expectedFutureNotes : ExtTreeMap NoteId (NoteDetails × NoteTag)
  customScript : Option RequestLibrary.TransactionScript
  adviceMap : AdviceMap
  merkleStore : RequestLibrary.MerkleStore
  foreignAccounts : ExtTreeMap AccountId ForeignAccount
  expirationDelta : Option ℕ
  ignoreInvalidInputNotes : Bool
  scriptArg : Option Word
  authArg : Option Word
  expectedNtxScripts : List RequestLibrary.NoteScript

section Requests

variable [NoteLibrary] [RequestLibrary]

/-- The parts of a note without the details of its recipient. -/
def Note.toPartial (note : Note) : PartialNote :=
  ⟨note.details.recipient.digest, note.details.assets, note.metadata⟩

/-- The recipients with the digests that they are found by. -/
def recipientsByDigest (recipients : List NoteRecipient) : List (Word × NoteRecipient) :=
  recipients.map fun recipient => (recipient.digest, recipient)

/-- The note with the recipient that is expected for its digest, which must be there. -/
def FullTransactionRequest.ownNote (request : FullTransactionRequest) (note : PartialNote) :
    Except (Failure Empty) Note := do
  let recipient ← expect "Recipient should be included if it's an own note"
    request.expectedOutputRecipients[note.recipientDigest]?
  return ⟨⟨note.assets, recipient⟩, note.metadata⟩

/-- Returns the expected output own notes of the transaction: those that its script creates. -/
def FullTransactionRequest.expectedOutputOwnNotes (request : FullTransactionRequest) :
    Except (Failure Empty) (List Note) :=
  match request.scriptTemplate with
  | some (.sendNotes notes) => notes.mapM request.ownNote
  | _ => .ok []

namespace TransactionRequestBuilder

variable (builder : TransactionRequestBuilder)

/-- Creates a new, empty builder. -/
def new : TransactionRequestBuilder where
  inputNotes := []
  inputNotesArgs := []
  ownOutputNotes := []
  expectedOutputRecipients := ∅
  expectedFutureNotes := ∅
  customScript := none
  adviceMap := ∅
  merkleStore := RequestLibrary.emptyMerkleStore
  foreignAccounts := ∅
  expirationDelta := none
  ignoreInvalidInputNotes := false
  scriptArg := none
  authArg := none
  expectedNtxScripts := []

/-- Adds the notes as input notes. -/
def addInputNotes (notes : List (Note × Option NoteArgs)) : TransactionRequestBuilder :=
  { builder with
    inputNotesArgs := builder.inputNotesArgs ++ notes.map fun note => (note.1.id, note.2)
    inputNotes := builder.inputNotes ++ notes.map Prod.fst }

/-- Adds the notes as notes that the script creates, and their recipients. -/
def addOwnOutputNotes (notes : List Note) : TransactionRequestBuilder :=
  { builder with
    expectedOutputRecipients := OrderedMap.insertAll builder.expectedOutputRecipients
      (recipientsByDigest (notes.map fun note => note.details.recipient))
    ownOutputNotes := builder.ownOutputNotes ++ notes }

def addForeignAccounts (accounts : List ForeignAccount) : TransactionRequestBuilder :=
  { builder with
    foreignAccounts := OrderedMap.insertAll builder.foreignAccounts
      (accounts.map fun account => (account.accountId, account)) }

/-- Sets the recipients, in place of all that are there. -/
def setExpectedOutputRecipients (recipients : List NoteRecipient) : TransactionRequestBuilder :=
  { builder with
    expectedOutputRecipients := OrderedMap.insertAll ∅ (recipientsByDigest recipients) }

def setExpectedFutureNotes (notes : List (NoteDetails × NoteTag)) : TransactionRequestBuilder :=
  { builder with
    expectedFutureNotes := OrderedMap.insertAll ∅ (notes.map fun note => (note.1.id, note)) }

/-- A call of the builder. -/
inductive Call where
  | inputNotes (notes : List (Note × Option NoteArgs))
  | ownOutputNotes (notes : List Note)
  | customScript (script : RequestLibrary.TransactionScript)
  | foreignAccounts (accounts : List ForeignAccount)
  | expectedOutputRecipients (recipients : List NoteRecipient)
  | expectedFutureNotes (notes : List (NoteDetails × NoteTag))
  | extendAdviceMap (entries : List (Word × List ℕ))
  | extendMerkleStore (nodes : List (Word × Word × Word))
  | expirationDelta (delta : ℕ)
  | ignoreInvalidInputNotes
  | scriptArg (argument : Word)
  | authArg (argument : Word)
  | expectedNtxScripts (scripts : List RequestLibrary.NoteScript)

def perform : Call → TransactionRequestBuilder
  | .inputNotes notes => builder.addInputNotes notes
  | .ownOutputNotes notes => builder.addOwnOutputNotes notes
  | .customScript script => { builder with customScript := some script }
  | .foreignAccounts accounts => builder.addForeignAccounts accounts
  | .expectedOutputRecipients recipients => builder.setExpectedOutputRecipients recipients
  | .expectedFutureNotes notes => builder.setExpectedFutureNotes notes
  | .extendAdviceMap entries =>
    { builder with adviceMap := OrderedMap.insertAll builder.adviceMap entries }
  | .extendMerkleStore nodes =>
    { builder with merkleStore := RequestLibrary.extendMerkleStore builder.merkleStore nodes }
  | .expirationDelta delta => { builder with expirationDelta := some delta }
  | .ignoreInvalidInputNotes => { builder with ignoreInvalidInputNotes := true }
  | .scriptArg argument => { builder with scriptArg := some argument }
  | .authArg argument => { builder with authArg := some argument }
  | .expectedNtxScripts scripts => { builder with expectedNtxScripts := scripts }

/-- The builder after some calls. -/
def run (calls : List Call) : TransactionRequestBuilder :=
  calls.foldl perform new

/-- The input notes are distinct: none of them is among the ones before it. -/
def checkInputNotes (seen : List NoteId) : List NoteId → Except RequestBuildError Unit
  | [] => .ok ()
  | noteId :: rest =>
    if noteId ∈ seen then .error (.duplicateInputNote noteId)
    else checkInputNotes (noteId :: seen) rest

/-- The script is given, or made of the notes that are to be created, or there is none. -/
def buildScriptTemplate : Except RequestBuildError (Option TransactionScriptTemplate) :=
  match builder.customScript, builder.ownOutputNotes.isEmpty with
  | some _, false =>
    .error (.scriptTemplateError "Cannot set both a custom script and own output notes")
  | some script, true =>
    if builder.expirationDelta.isSome then
      .error (.scriptTemplateError "Cannot set expiration delta when a custom script is set")
    else .ok (some (.customScript script))
  | none, false => .ok (some (.sendNotes (builder.ownOutputNotes.map Note.toPartial)))
  | none, true => .ok none

/-- Consumes the builder and returns a request. -/
def build : Except RequestBuildError FullTransactionRequest := do
  checkInputNotes [] (builder.inputNotesArgs.map Prod.fst)
  let scriptTemplate ← builder.buildScriptTemplate
  return {
    inputNotes := builder.inputNotes
    inputNotesArgs := builder.inputNotesArgs
    scriptTemplate := scriptTemplate
    expectedOutputRecipients := builder.expectedOutputRecipients
    expectedFutureNotes := builder.expectedFutureNotes
    adviceMap := builder.adviceMap
    merkleStore := builder.merkleStore
    foreignAccounts := builder.foreignAccounts
    expirationDelta := builder.expirationDelta
    ignoreInvalidInputNotes := builder.ignoreInvalidInputNotes
    scriptArg := builder.scriptArg
    authArg := builder.authArg
    expectedNtxScripts := builder.expectedNtxScripts }

/-! ### What a successful build says -/

omit [NoteLibrary] [RequestLibrary] in
theorem checkInputNotes_eq_ok {seen noteIds : List NoteId} :
    checkInputNotes seen noteIds = .ok () ↔ noteIds.Nodup ∧ ∀ noteId ∈ noteIds, noteId ∉ seen := by
  induction noteIds generalizing seen with
  | nil => exact ⟨fun _ => ⟨List.nodup_nil, List.forall_mem_nil _⟩, fun _ => rfl⟩
  | cons noteId rest inductionHypothesis =>
    rw [checkInputNotes, List.nodup_cons, List.forall_mem_cons]
    by_cases duplicate : noteId ∈ seen
    · rw [if_pos duplicate]
      exact ⟨fun failed => (nomatch failed), fun both => absurd duplicate both.2.1⟩
    · rw [if_neg duplicate, inductionHypothesis]
      constructor
      · rintro ⟨distinct, unseen⟩
        refine ⟨⟨fun later => unseen noteId later List.mem_cons_self, distinct⟩, duplicate, ?_⟩
        exact fun other listed inSeen => unseen other listed (List.mem_cons_of_mem noteId inSeen)
      · rintro ⟨⟨absent, distinct⟩, _, unseen⟩
        refine ⟨distinct, fun other listed inSeen => ?_⟩
        rcases List.mem_cons.mp inSeen with rfl | before
        · exact absent listed
        · exact unseen other listed before

/-- A request is made of what the builder has, and of notes that are distinct. -/
theorem build_eq_ok {request : FullTransactionRequest} (built : builder.build = .ok request) :
    (builder.inputNotesArgs.map Prod.fst).Nodup ∧
      builder.buildScriptTemplate = .ok request.scriptTemplate ∧
        request.inputNotes = builder.inputNotes ∧
          request.inputNotesArgs = builder.inputNotesArgs ∧
            request.expectedOutputRecipients = builder.expectedOutputRecipients ∧
              request.foreignAccounts = builder.foreignAccounts := by
  obtain ⟨_, distinct, built⟩ := Fallible.bind_eq_ok.mp built
  obtain ⟨scriptTemplate, template, built⟩ := Fallible.bind_eq_ok.mp built
  cases built
  exact ⟨(checkInputNotes_eq_ok.mp distinct).1, template, rfl, rfl, rfl, rfl⟩

end TransactionRequestBuilder

end Requests

end MidenClient
