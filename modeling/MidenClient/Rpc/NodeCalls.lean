/-
This file models the calls of the client to the node, from the answers to the values they
return (`rust-client/src/rpc/tonic_client/mod.rs`, and the calls with a default in
`rust-client/src/rpc/mod.rs`).

Some calls take several requests: a long list is sent in chunks of the size that the node
asks for, and a range of blocks is answered page by page. The node may answer each request
as it likes.
-/

import MidenClient.Rpc.Conversions

namespace MidenClient

open Std (ExtTreeMap)
open Panicking FromProto

/-- An MMR with a number of leaves, and the path from one of them. -/
structure MmrProof where
  forest : ℕ
  position : BlockNumber
  merklePath : List Word

/-- The answers of the node to the numbered requests of a call. -/
abbrev Answers (ρ α : Type) := ℕ → ρ → Except NodeError α

namespace NodeCalls

variable [ConversionLibrary]

/-! ### Single requests -/

def getBlockHeaderByNumber (build : BuildTarget) (includeMmrProof : Bool)
    (answer : Except NodeError Proto.BlockHeaderByNumberResponse) :
    Except (Failure NodeError) (BlockHeader × Option MmrProof) := do
  let response ← fallible answer
  let header ← fallible (expected "BlockHeader" response.blockHeader)
  let header ← fallible (converted (blockHeader header))
  if includeMmrProof then
    let forest ← fallible (expected "ChainLength" response.chainLength)
    let path ← fallible (expected "MmrPath" response.mmrPath)
    let path ← mapFailure NodeError.ofConversion (merklePath path)
    let forest ← expect "u64 should fit in usize" (build.usize forest)
    return (header, some ⟨forest, header.blockNum, path⟩)
  else return (header, none)

def syncChainMmr (build : BuildTarget) (answer : Except NodeError Proto.SyncChainMmrResponse) :
    Except NodeError (BlockNumber × BlockNumber × ℕ × List Word) := do
  converted (chainMmrInfo build (← answer))

def syncNotes (answer : Except NodeError Proto.SyncNotesResponse) :
    Except (Failure NodeError) NoteSyncInfo := do
  let response ← fallible answer
  mapFailure NodeError.ofConversion (noteSyncInfo response)

def syncTransactions (answer : Except NodeError Proto.SyncTransactionsResponse) :
    Except (Failure NodeError) TransactionsInfo := do
  transactionsInfo (← fallible answer)

def getBlockByNumber (answer : Except NodeError (Option Bytes)) : Except NodeError Word := do
  let bytes ← expected "GetBlockByNumberResponse.block" (← answer)
  (ConversionLibrary.provenBlock bytes).mapError
    fun message => .rpcError (.deserializationError message)

def getNoteScriptByRoot (answer : Except NodeError (Option Proto.NoteScript)) :
    Except NodeError Word := do
  converted (noteScript (← expected "GetNoteScriptByRoot.script" (← answer)))

def getStatusUnversioned (answer : Except NodeError Proto.RpcStatus) :
    Except NodeError RpcStatusInfo := do
  rpcStatusInfo (← answer)

/-! ### Long lists -/

/-- Where the limits come from: the ones in use, or the answer of the node. -/
structure LimitsSource where
  cached : Option RpcLimits
  answer : Except NodeError Proto.RpcLimits

omit [ConversionLibrary] in
def getRpcLimits (source : LimitsSource) : Except NodeError RpcLimits :=
  match source.cached with
  | some limits => return limits
  | none => do converted (rpcLimits (← source.answer))

omit [ConversionLibrary] in
/-- `slice::chunks`. -/
def chunks {α : Type} (size : UInt32) (items : List α) :
    Except (Failure NodeError) (List (List α)) :=
  if size = 0 then .error (.panicked "chunk size must be non-zero")
  else .ok (items.toChunks size.toNat)

def fetchedNotes (answers : Answers (List NoteId) (List Proto.CommittedNote))
    (chunk : List NoteId × ℕ) : Except (Failure NodeError) (List FetchedNote) := do
  let notes ← fallible (answers chunk.2 chunk.1)
  mapFailure NodeError.ofConversion (notes.mapM fetchedNote)

def getNotesById (source : LimitsSource)
    (answers : Answers (List NoteId) (List Proto.CommittedNote)) (noteIds : List NoteId) :
    Except (Failure NodeError) (List FetchedNote) := do
  let limits ← fallible (getRpcLimits source)
  let chunks ← chunks limits.noteIdsLimit noteIds
  return (← chunks.zipIdx.mapM (fetchedNotes answers)).flatten

def nullifierProofs (answers : Answers (List Nullifier) (List Proto.SmtOpening))
    (chunk : List Nullifier × ℕ) : Except NodeError (List SmtOpening) := do
  converted ((← answers chunk.2 chunk.1).mapM smtProof)

def checkNullifiers (source : LimitsSource)
    (answers : Answers (List Nullifier) (List Proto.SmtOpening)) (nullifiers : List Nullifier) :
    Except (Failure NodeError) (List SmtOpening) := do
  let limits ← fallible (getRpcLimits source)
  let chunks ← chunks limits.nullifiersLimit nullifiers
  return (← fallible (chunks.zipIdx.mapM (nullifierProofs answers))).flatten

/-! ### Ranges of blocks -/

/-- A request for the nullifiers with some prefixes, from a block on. -/
structure NullifierRequest where
  prefixes : List UInt16
  blockFrom : UInt32
  blockTo : Option UInt32

/-- Safety limit to prevent infinite loops. -/
def maxIterations : ℕ := 1000

omit [ConversionLibrary] in
def nullifierBatch (updates : List Proto.NullifierUpdate) :
    Except NodeError (List NullifierUpdate) :=
  (updates.mapM nullifierUpdate).mapError fun error => .invalidResponse error.message

omit [ConversionLibrary] in
/-- Where the next page starts, unless this was the last one. Without pagination the page is
requested again. -/
def nextPage (build : BuildTarget) (currentBlockFrom : UInt32) (blockTo : Option UInt32) :
    Option Proto.PaginationInfo → Except (Failure NodeError) (Option UInt32)
  | none => return some currentBlockFrom
  | some page =>
    if page.blockNum < currentBlockFrom then
      .error (.error (.paginationError "invalid pagination: block_num went backwards"))
    else
      let targetBlock := blockTo.elim page.chainTip fun bound => min bound page.chainTip
      if targetBlock ≤ page.blockNum then return none
      else return some (← build.increment page.blockNum)

/-- The pages for a chunk, with the number of the next request. -/
def nullifierPages (build : BuildTarget)
    (answers : Answers NullifierRequest Proto.SyncNullifiersResponse) (chunk : List UInt16)
    (blockTo : Option UInt32) :
    ℕ → ℕ → UInt32 → List NullifierUpdate → Except (Failure NodeError) (ℕ × List NullifierUpdate)
  | 0, _, _, _ => .error (.error (.paginationError
      "too many pagination iterations, possible infinite loop"))
  | iterations + 1, number, currentBlockFrom, collected => do
    let response ← fallible (answers number ⟨chunk, currentBlockFrom, blockTo⟩)
    let batch ← fallible (nullifierBatch response.nullifiers)
    match ← nextPage build currentBlockFrom blockTo response.paginationInfo with
    | some next =>
      nullifierPages build answers chunk blockTo iterations (number + 1) next (collected ++ batch)
    | none => return (number + 1, collected ++ batch)

omit [ConversionLibrary] in
/-- The updates in order, each once. -/
def sortedUpdates (updates : List NullifierUpdate) : List NullifierUpdate :=
  ((updates.map fun update => toLex (update.nullifier, update.blockNum)).dedup.mergeSort
    fun first second => first ≤ second).map fun pair => ⟨(ofLex pair).1, (ofLex pair).2⟩

def syncNullifiers (build : BuildTarget) (source : LimitsSource)
    (answers : Answers NullifierRequest Proto.SyncNullifiersResponse) (prefixes : List UInt16)
    (blockNum : UInt32) (blockTo : Option UInt32) :
    Except (Failure NodeError) (List NullifierUpdate) := do
  let limits ← fallible (getRpcLimits source)
  let chunks ← chunks limits.nullifiersLimit prefixes
  let collected ← chunks.foldlM (fun progress chunk => nullifierPages build answers chunk blockTo
    maxIterations progress.1 blockNum progress.2) (0, [])
  return sortedUpdates collected.2

section Notes

variable [NoteLibrary]

/-- A request for the notes with some tags, from a block on. -/
structure NotesRequest where
  blockFrom : UInt32
  blockTo : Option UInt32
  noteTags : Finset NoteTag

omit [NoteLibrary] in
/-- A page of notes, the cursor behind it, and whether the loop stops there. -/
def notesPage (build : BuildTarget) (answer : Except NodeError Proto.SyncNotesResponse) :
    Except (Failure NodeError) (List NoteBlock × UInt32 × Bool) := do
  let noteSync ← syncNotes answer
  let cursor ← build.increment (UInt32.ofNat noteSync.blockTo)
  return (noteSync.blocks, cursor,
    noteSync.blocks.isEmpty || decide (noteSync.chainTip ≤ cursor.toNat))

omit [NoteLibrary] in
/-- The loop over the pages, which has no bound of its own. -/
def notesPages (build : BuildTarget) (answers : Answers NotesRequest Proto.SyncNotesResponse)
    (blockTo : Option UInt32) (noteTags : Finset NoteTag) :
    ℕ → ℕ → UInt32 → List NoteBlock → Option (Except (Failure NodeError) (List NoteBlock))
  | 0, _, _, _ => none
  | fuel + 1, number, cursor, allBlocks =>
    match notesPage build (answers number ⟨cursor, blockTo, noteTags⟩) with
    | .error failure => some (.error failure)
    | .ok (blocks, _, true) => some (.ok (allBlocks ++ blocks))
    | .ok (blocks, next, false) =>
      notesPages build answers blockTo noteTags fuel (number + 1) next (allBlocks ++ blocks)

/-- One request for the details of all notes that need them. -/
def fetchDetails (source : LimitsSource)
    (answers : Answers (List NoteId) (List Proto.CommittedNote)) (blocks : List NoteBlock) :
    Except (Failure NodeError) SyncNotesResult := do
  let noteIds := NoteSyncNode.requestedNotes blocks
  if noteIds.isEmpty then return ⟨blocks, ∅⟩
  else return (← getNotesById source answers noteIds).foldl NoteSyncNode.addFetched ⟨blocks, ∅⟩

/-- The loop and the request for the details, stopped after a number of pages. -/
def syncNotesWithDetails (build : BuildTarget) (source : LimitsSource)
    (notes : Answers NotesRequest Proto.SyncNotesResponse)
    (details : Answers (List NoteId) (List Proto.CommittedNote)) (blockFrom : UInt32)
    (blockTo : Option UInt32) (noteTags : Finset NoteTag) (fuel : ℕ) :
    Option (Except (Failure NodeError) SyncNotesResult) :=
  (notesPages build notes blockTo noteTags fuel 0 blockFrom []).map fun blocks =>
    blocks >>= fetchDetails source details

end Notes

/-! ### Accounts -/

section Accounts

variable [ProtocolLibrary]

omit [ConversionLibrary] in
/-- `AccountProof::new`. -/
def newProof (witness : AccountWitness) (details : Option AccountDetails) :
    Except NodeError AccountProof :=
  invalidResponse (AccountProof.new witness details)

/-- The details of an account with public state. -/
def publicDetails (requirements : AccountStorageRequirements) (knownAccountCodes : List Word)
    (witness : AccountWitness) (details : Option Proto.AccountDetails) :
    Except (Failure NodeError) (Option AccountDetails) :=
  if ProtocolLibrary.isPrivate witness.id then return none
  else do
    let details ← fallible (expected "Account.Details" details)
    return some (← accountDetails details knownAccountCodes requirements)

def getAccountProof (requirements : AccountStorageRequirements) (knownAccountCodes : List Word)
    (answer : Except NodeError Proto.AccountResponse) :
    Except (Failure NodeError) (BlockNumber × AccountProof) := do
  let response ← fallible answer
  let witness ← fallible (expected "AccountWitness" response.witness)
  let witness ← mapFailure NodeError.ofConversion (accountWitness witness)
  let headers ← publicDetails requirements knownAccountCodes witness response.details
  let proof ← fallible (newProof witness headers)
  let blockNum ← fallible (expected "response block num" response.blockNum)
  return (blockNum.toNat, proof)

/-- The details in a response, when there are any. -/
def receivedDetails : Option Proto.AccountDetails →
    Except (Failure NodeError) (Option AccountDetails)
  | none => return none
  | some details => return some (← accountDetails details [] [])

/-- `AccountProof::try_from`. -/
def accountProof (response : Proto.AccountResponse) : Except (Failure NodeError) AccountProof := do
  let witness ← fallible (expected "GetAccountProof returned an account without witness"
    response.witness)
  let details ← receivedDetails response.details
  let witness ← mapFailure NodeError.ofConversion (accountWitness witness)
  fallible (newProof witness details)

/-- A request for an account, with the maps of some slots if its details are requested. -/
abbrev AccountAnswers := Answers AccountRequest Proto.AccountResponse

/-- The second request for an account with public state. -/
def secondRequest (answers : AccountAnswers) (accountId : AccountId)
    (response : Proto.AccountResponse) : Except (Failure NodeError) Proto.AccountResponse := do
  let details ← fallible (expected "details in public account" response.details)
  let details ← accountDetails details [] []
  fallible (answers 1 ⟨accountId, some (AccountNode.mapsToRequest details)⟩)

def fetchFullAccountProof (answers : AccountAnswers) (accountId : AccountId) :
    Except (Failure NodeError) (BlockNumber × AccountProof) := do
  let hasPublicState := !ProtocolLibrary.isPrivate accountId
  let response ← fallible
    (answers 0 ⟨accountId, if hasPublicState then some [] else none⟩)
  let blockNumber ← fallible (expected
    "GetAccountDetails returned an account without a matching block number" response.blockNum)
  let response ← if hasPublicState then secondRequest answers accountId response else pure response
  return (blockNumber.toNat, ← accountProof response)

/-- A page of changes. Without pagination it is refused before its changes are looked at. -/
def syncPage {α β : Type} (convert : α → Except NodeError β)
    (response : Proto.SyncAccountResponse α) : Except NodeError (SyncPage β) :=
  match response.paginationInfo with
  | none => return ⟨none, []⟩
  | some page => do
    return ⟨some ⟨page.chainTip.toNat, page.blockNum.toNat⟩, ← response.updates.mapM convert⟩

/-- The answers of the node to the requests about an account. -/
structure AccountSource where
  getAccount : AccountAnswers
  syncStorageMaps :
    Answers (BlockRange × AccountId) (Proto.SyncAccountResponse Proto.StorageMapUpdate)
  syncAccountVault :
    Answers (BlockRange × AccountId) (Proto.SyncAccountResponse Proto.AccountVaultUpdate)

omit [ProtocolLibrary] in
/-- The node that answers the requests for changes. -/
def AccountSource.changes (source : AccountSource) : AccountNode where
  getAccount _ _ := .error (.rpcError (.requestError "not a request for changes"))
  syncStorageMaps number range accountId := do
    syncPage (fun update => converted (storageMapUpdate update))
      (← source.syncStorageMaps number (range, accountId))
  syncAccountVault number range accountId := do
    syncPage accountVaultUpdate (← source.syncAccountVault number (range, accountId))

omit [ConversionLibrary] [ProtocolLibrary] in
def outcome {α : Type} : EStateM.Result NodeError ℕ α → Except NodeError α
  | .ok value _ => .ok value
  | .error error _ => .error error

omit [ProtocolLibrary] in
def syncStorageMaps (source : AccountSource) (blockFrom : BlockNumber)
    (blockTo : Option BlockNumber) (accountId : AccountId) :
    Except NodeError (SyncInfo StorageMapUpdate) :=
  outcome (source.changes.syncStorageMapsInfo blockFrom blockTo accountId 0)

omit [ProtocolLibrary] in
def syncAccountVault (source : AccountSource) (blockFrom : BlockNumber)
    (blockTo : Option BlockNumber) (accountId : AccountId) :
    Except NodeError (SyncInfo AccountVaultUpdate) :=
  outcome (source.changes.syncAccountVaultInfo blockFrom blockTo accountId 0)

/-- The whole state of a public account is put together from the second response and the changes
that are too many for it. -/
def getAccountDetails [AccountConstructors] (source : AccountSource) (accountId : AccountId) :
    Except (Failure NodeError) FetchedAccount := do
  let (blockNumber, proof) ← fetchFullAccountProof source.getAccount accountId
  let summary : AccountUpdateSummary := ⟨proof.accountCommitment, blockNumber⟩
  if ProtocolLibrary.isPrivate accountId then return .isPrivate accountId summary
  else
    let details ← fallible (expected
      "GetAccountDetails returned a public account without details" proof.stateHeaders)
    let account ← fallible (outcome (source.changes.assembleAccount details 2))
    return .isPublic account summary

end Accounts

end NodeCalls

end MidenClient
