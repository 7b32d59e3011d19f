/-
This file models a sync together with the partial MMR of the chain (`sync_state` in
`rust-client/src/sync/state_sync.rs`): what it fetches, how it advances the MMR and tracks
note blocks in it, and the block data it wants stored (`BlockUpdates` in
`rust-client/src/sync/state_sync_update.rs`).

The caller's MMR is changed in place, so what a sync did to it survives an error. The two
trackers belong to the update, which a failing sync drops.
-/

import MidenClient.Sync.StateSync
import MidenClient.Sync.TransactionRecords

namespace MidenClient

open Std (ExtTreeMap)
open Fallible

/-- A node of the MMR with its in-order index. -/
abbrev MmrNode := ℕ × Word

/-- What the client uses of the library for block headers and forests: the commitment of a header
that becomes a leaf, the trees of a forest with some number of leaves, and in-order indices. -/
class ChainLibrary where
  headerCommitment : BlockHeader → Word
  /-- The height of the tree that holds a leaf. -/
  leafToCorrespondingTree : ℕ → ℕ → Option ℕ
  hasSingleLeafTree : ℕ → Bool
  rightmostInOrderIndex : ℕ → ℕ
  fromLeafPos : ℕ → ℕ
  sibling : ℕ → ℕ
  parent : ℕ → ℕ

/-- What the client uses of the MMR library: a partial MMR, which its operations change in
place. -/
class MmrLibrary (Mmr : Type) (Delta : outParam Type) where
  numLeaves : Mmr → ℕ
  peaks : Mmr → List Word
  nodes : Mmr → ExtTreeMap ℕ Word
  isTracked : Mmr → ℕ → Bool
  /-- The MMR of a forest that has the peaks and tracks nothing. -/
  fromPeaks : ℕ → List Word → Except String Mmr
  /-- The MMR with the number of leaves, the peaks, the nodes and the tracked leaves. -/
  fromParts : ℕ → List Word → ExtTreeMap ℕ Word → Finset ℕ → Except String Mmr
  /-- Applies an update, and returns the new authentication nodes of the tracked leaves. -/
  apply : Delta → EStateM String Mmr (List MmrNode)
  /-- Appends a leaf, tracked or not, and returns the new authentication nodes. -/
  add : Word → Bool → Mmr → List MmrNode × Mmr
  /-- Tracks a leaf with the path that authenticates it. -/
  track : ℕ → Word → List Word → EStateM String Mmr Unit

/-- A note block with the path that authenticates it in the MMR. -/
structure NoteSyncBlock where
  noteBlock : NoteBlock
  mmrPath : List Word

/-- The answers of the node in a sync. -/
structure SyncNode (Delta : Type) where
  chainTip : Except RpcError BlockHeader
  syncChainMmr : BlockNumber → BlockNumber → Except RpcError Delta
  syncNotesWithDetails : BlockNumber → BlockNumber → Finset NoteTag →
    Except RpcError (List NoteSyncBlock × ExtTreeMap NoteId Note)
  syncTransactions : BlockNumber → BlockNumber → List AccountId →
    Except RpcError (List RpcTransactionRecord)
  /-- Whether the public accounts could be fetched that some updates make stale. -/
  updatedPublicAccounts : List (AccountId × Word) → Except RpcError Unit
  syncNullifiers : List Nullifier → BlockNumber → BlockNumber →
    Except RpcError (List NullifierUpdate)

/-- The block data a sync wants stored: headers with their relevance and their peaks, and
authentication nodes. -/
structure BlockUpdates where
  blockHeaders : ExtTreeMap BlockNumber (BlockHeader × Bool × List Word)
  newAuthenticationNodes : List MmrNode

namespace BlockUpdates

def empty : BlockUpdates :=
  ⟨∅, []⟩

/-- Adds a header. One that is there keeps its peaks, and is relevant if either is. -/
def insert (updates : BlockUpdates) (blockHeader : BlockHeader) (hasClientNotes : Bool)
    (peaks : List Word) (newAuthenticationNodes : List MmrNode) : BlockUpdates where
  blockHeaders := match updates.blockHeaders[blockHeader.blockNum]? with
    | some (header, existingHasNotes, existingPeaks) => updates.blockHeaders.insert
        blockHeader.blockNum (header, existingHasNotes || hasClientNotes, existingPeaks)
    | none => updates.blockHeaders.insert blockHeader.blockNum
        (blockHeader, hasClientNotes, peaks)
  newAuthenticationNodes := updates.newAuthenticationNodes ++ newAuthenticationNodes

end BlockUpdates

/-- An operation on the caller's MMR, which survives an error. -/
abbrev MmrM (Mmr : Type) := EStateM ClientError Mmr

/-- What a sync fetched from the node before it changes anything. -/
structure FetchedSyncData (Delta : Type) where
  chainTipHeader : BlockHeader
  mmrDelta : Delta
  noteBlocks : List NoteSyncBlock
  publicNotes : ExtTreeMap NoteId Note
  transactions : List RpcTransactionRecord

/-- The fetched data in the form the note and transaction part of a sync takes it. -/
def FetchedSyncData.toRaw {Delta : Type} (data : FetchedSyncData Delta)
    (nullifiers : List NullifierUpdate) : RawStateSyncData :=
  ⟨data.chainTipHeader, data.noteBlocks.map NoteSyncBlock.noteBlock, data.publicNotes,
    data.transactions, nullifiers⟩

namespace SyncNode

variable {Delta : Type}

/-- The transactions of the tracked accounts; without accounts the node is not asked. -/
def fetchTransactions (node : SyncNode Delta) (blockFrom blockTo : BlockNumber)
    (accountIds : List AccountId) : Except RpcError (List RpcTransactionRecord) :=
  if accountIds.isEmpty then .ok [] else node.syncTransactions blockFrom blockTo accountIds

/-- Fetches the sync data from the node; nothing when the client is at the chain tip. -/
def fetchSyncData (node : SyncNode Delta) (currentBlockNum : BlockNumber)
    (accountIds : List AccountId) (noteTags : Finset NoteTag) :
    Except ClientError (Option (FetchedSyncData Delta)) := do
  let chainTipHeader ← node.chainTip.mapError .rpcError
  if chainTipHeader.blockNum = currentBlockNum then return none
  else do
    let tip := chainTipHeader.blockNum
    let mmrDelta ← (node.syncChainMmr currentBlockNum tip).mapError .rpcError
    let notes ← (node.syncNotesWithDetails currentBlockNum tip noteTags).mapError .rpcError
    let transactions ← (node.fetchTransactions currentBlockNum tip accountIds).mapError .rpcError
    return some ⟨chainTipHeader, mmrDelta, notes.1, notes.2, transactions⟩

end SyncNode

namespace StateSync

variable [NoteLibrary] [ChainLibrary] {Mmr Delta : Type} [MmrLibrary Mmr Delta]

/-! ### The MMR -/

/-- The result of an operation of the MMR library, as a result of the client. -/
def mmrOperation {α : Type} (operation : EStateM String Mmr α) : MmrM Mmr α :=
  fun mmr =>
    match operation mmr with
    | .ok value next => .ok value next
    | .error message next => .error (.mmrError message) next

def addLeaf (header : BlockHeader) : MmrM Mmr (List MmrNode) :=
  fun mmr =>
    let added := MmrLibrary.add (ChainLibrary.headerCommitment header) false mmr
    .ok added.1 added.2

/-- The nodes of the MMR that were not there before. -/
def newNodes (before after : Mmr) : List MmrNode :=
  (MmrLibrary.nodes after).toList.filter fun node => node.1 ∉ MmrLibrary.nodes before

/-- Tracks a note block, unless it is tracked, and returns the new authentication nodes. -/
def trackBlock (block : NoteSyncBlock) : MmrM Mmr (List MmrNode) := do
  let before ← get
  if MmrLibrary.isTracked before block.noteBlock.blockHeader.blockNum then return []
  else do
    mmrOperation (MmrLibrary.track block.noteBlock.blockHeader.blockNum
      (ChainLibrary.headerCommitment block.noteBlock.blockHeader) block.mmrPath)
    let after ← get
    return newNodes before after

/-! ### Notes -/

/-- Applies what the screener decides for a note, and says whether the block is relevant with
it: for an input note, but not for an output note only. -/
def screenForRelevance (sync : StateSync) (publicNotes : ExtTreeMap NoteId InputNoteRecord)
    (blockHeader : BlockHeader) (found : Bool) (note : CommittedNote) : TrackerM Bool :=
  match sync.noteScreener note (publicNoteOf publicNotes note) with
  | .error error => throw error
  | .ok (.commit committedNote) => do
    let tracked ← NoteUpdateTracker.applyCommittedNoteStateTransitions committedNote blockHeader
    return found || tracked
  | .ok (.insert publicNote) => do
    NoteUpdateTracker.applyNewPublicNote publicNote blockHeader
    return true
  | .ok .discard => return found

/-- Applies the note changes of a block, and says whether the block is relevant. -/
def findRelevantNote (sync : StateSync) (publicNotes : ExtTreeMap NoteId InputNoteRecord)
    (block : NoteBlock) : TrackerM Bool :=
  (OrderedMap.values block.notes).foldlM
    (sync.screenForRelevance publicNotes block.blockHeader) false

/-- What a sync has so far: the notes, and the block data to store. -/
structure ChainProgress where
  noteUpdates : NoteUpdateTracker
  blockUpdates : BlockUpdates

/-- Runs a call on the note tracker. A tracker is dropped when the call fails. -/
def runTracker {α : Type} (call : TrackerM α) (tracker : NoteUpdateTracker) :
    Except ClientError (α × NoteUpdateTracker) :=
  match call tracker with
  | .ok value changed => .ok (value, changed)
  | .error error _ => .error error

/-- Screens a note block, and tracks it in the MMR when it is relevant. -/
def applyNoteBlock (sync : StateSync) (publicNotes : ExtTreeMap NoteId InputNoteRecord)
    (progress : ChainProgress) (block : NoteSyncBlock) : MmrM Mmr ChainProgress := do
  let screened ← fromExcept
    (runTracker (sync.findRelevantNote publicNotes block.noteBlock) progress.noteUpdates)
  if screened.1 then do
    let nodes ← trackBlock block
    let mmr ← get
    return ⟨screened.2, progress.blockUpdates.insert block.noteBlock.blockHeader true
      (MmrLibrary.peaks mmr) nodes⟩
  else return ⟨screened.2, progress.blockUpdates⟩

/-- Advances the MMR to the chain tip, and tracks the relevant note blocks in it. The peaks that
are stored with the tip are those before its own leaf. -/
def applyChainData (sync : StateSync) (data : FetchedSyncData Delta)
    (tracker : NoteUpdateTracker) : MmrM Mmr ChainProgress := do
  let applied ← mmrOperation (MmrLibrary.apply data.mmrDelta)
  let advanced ← get
  let added ← addLeaf data.chainTipHeader
  data.noteBlocks.foldlM (sync.applyNoteBlock (publicNoteRecords (data.toRaw [])))
    ⟨tracker, BlockUpdates.empty.insert data.chainTipHeader false (MmrLibrary.peaks advanced)
      (applied ++ added)⟩

/-! ### The whole sync -/

/-- Asks for the nullifiers of unspent notes, unless the nullifier sync is disabled. -/
def fetchNullifiers (sync : StateSync) (node : SyncNode Delta) (blockFrom : BlockNumber)
    (tip : BlockNumber) (notes : NoteUpdateTracker) : Except ClientError (List NullifierUpdate) :=
  if sync.syncNullifiers then
    (node.syncNullifiers notes.unspentNullifiers blockFrom tip).mapError .rpcError
  else .ok []

/-- The part of a sync that follows once the MMR was advanced. -/
def finishSync (sync : StateSync) (node : SyncNode Delta) (blockNum : BlockNumber)
    (input : StateSyncInput) (data : FetchedSyncData Delta) (progress : ChainProgress) :
    Except ClientError (StateSyncUpdate × BlockUpdates) := do
  let notes := progress.noteUpdates.extendNullifiers (computeOrderedNullifiers data.transactions)
  let transactions := sync.transactionStateSync data.chainTipHeader data.transactions
    (TransactionUpdateTracker.new input.uncommittedTransactions)
  let nullifiers ← sync.fetchNullifiers node blockNum data.chainTipHeader.blockNum notes
  let update ← (sync.processedNullifiers (data.toRaw nullifiers)).foldlM applyNullifier
    ⟨data.chainTipHeader.blockNum, notes, transactions⟩
  return (update, progress.blockUpdates)

/-- The block the MMR ends with, if its number is one. -/
def currentBlockNum (mmr : Mmr) : Except ClientError BlockNumber :=
  if MmrLibrary.numLeaves mmr - 1 < 2 ^ 32 then .ok (MmrLibrary.numLeaves mmr - 1)
  else .error .invalidPartialMmrForest

/-- The updates that are derived for the tracked accounts can be resolved. -/
def accountStateSync (node : SyncNode Delta) (data : FetchedSyncData Delta) :
    Except ClientError Unit :=
  (node.updatedPublicAccounts (deriveAccountCommitmentUpdates data.transactions)).mapError
    .rpcError

/-- Syncs with the chain tip of the node, and returns the updates to apply to the store. -/
def syncChain (sync : StateSync) (node : SyncNode Delta) (input : StateSyncInput)
    (noteTags : Finset NoteTag) : MmrM Mmr (StateSyncUpdate × BlockUpdates) := do
  let mmr ← get
  let blockNum ← fromExcept (currentBlockNum mmr)
  let notes := NoteUpdateTracker.new input.inputNotes input.outputNotes
  match ← fromExcept (node.fetchSyncData blockNum input.accounts noteTags) with
  | none => return (⟨blockNum, notes, .new input.uncommittedTransactions⟩, .empty)
  | some data => do
    fromExcept (accountStateSync node data)
    let progress ← sync.applyChainData data notes
    fromExcept (sync.finishSync node blockNum input data progress)

/-! ### The parts of a sync -/

section Parts

variable {sync : StateSync} {node : SyncNode Delta} {input : StateSyncInput}
  {noteTags : Finset NoteTag}

/-- The parts of a sync: requests that leave the MMR alone, and the part that changes it. -/
theorem syncChain_eq (start : Mmr) : sync.syncChain node input noteTags start =
    match currentBlockNum start with
    | .error reason => .error reason start
    | .ok blockNum =>
      match node.fetchSyncData blockNum input.accounts noteTags with
      | .error reason => .error reason start
      | .ok none => .ok (⟨blockNum, .new input.inputNotes input.outputNotes,
          .new input.uncommittedTransactions⟩, .empty) start
      | .ok (some data) =>
        match accountStateSync node data with
        | .error reason => .error reason start
        | .ok () => (sync.applyChainData data (.new input.inputNotes input.outputNotes) >>=
            fun progress => fromExcept (sync.finishSync node blockNum input data progress))
              start := by
  unfold syncChain
  have current : (get : MmrM Mmr Mmr) start = .ok start start := rfl
  rw [bind_of_result_ok current, fromExcept_bind]
  rcases currentBlockNum start with reason | blockNum
  · rfl
  dsimp only
  rw [fromExcept_bind]
  rcases node.fetchSyncData blockNum input.accounts noteTags with reason | ⟨_ | data⟩
  · rfl
  · rfl
  dsimp only
  rw [fromExcept_bind]
  rcases accountStateSync node data with reason | _ <;> rfl

/-- A sync that succeeds found nothing new, or applied what it fetched. -/
theorem syncChain_eq_ok {start last : Mmr} {updates : StateSyncUpdate × BlockUpdates}
    (done : sync.syncChain node input noteTags start = .ok updates last) :
    ∃ blockNum, currentBlockNum start = .ok blockNum ∧
      ((node.fetchSyncData blockNum input.accounts noteTags = .ok none ∧
          updates = (⟨blockNum, .new input.inputNotes input.outputNotes,
            .new input.uncommittedTransactions⟩, .empty)) ∨
        ∃ data progress,
          node.fetchSyncData blockNum input.accounts noteTags = .ok (some data) ∧
          sync.applyChainData data (.new input.inputNotes input.outputNotes) start =
            .ok progress last ∧
          sync.finishSync node blockNum input data progress = .ok updates) := by
  rw [syncChain_eq] at done
  split at done
  · cases done
  · rename_i blockNum known
    refine ⟨blockNum, known, ?_⟩
    split at done
    · cases done
    · rename_i fetched
      cases done
      exact Or.inl ⟨fetched, rfl⟩
    · rename_i data fetched
      split at done
      · cases done
      · obtain ⟨progress, middle, applied, done⟩ := bind_eq_result_ok.mp done
        obtain ⟨finished, rfl⟩ := fromExcept_eq_ok.mp done
        exact Or.inr ⟨data, progress, fetched, applied, finished⟩

omit [NoteLibrary] [ChainLibrary] [MmrLibrary Mmr Delta] in
/-- Data is fetched for a chain tip that is not the current block. -/
theorem fetchSyncData_eq_some {blockNum : BlockNumber} {accounts : List AccountId}
    {data : FetchedSyncData Delta}
    (fetched : node.fetchSyncData blockNum accounts noteTags = .ok (some data)) :
    node.chainTip = .ok data.chainTipHeader ∧ data.chainTipHeader.blockNum ≠ blockNum ∧
      node.syncChainMmr blockNum data.chainTipHeader.blockNum = .ok data.mmrDelta ∧
      node.syncNotesWithDetails blockNum data.chainTipHeader.blockNum noteTags =
        .ok (data.noteBlocks, data.publicNotes) ∧
      node.fetchTransactions blockNum data.chainTipHeader.blockNum accounts =
        .ok data.transactions := by
  obtain ⟨header, tip, fetched⟩ := bind_eq_ok.mp fetched
  split at fetched
  · cases fetched
  · rename_i different
    obtain ⟨delta, deltaEq, fetched⟩ := bind_eq_ok.mp fetched
    obtain ⟨notes, notesEq, fetched⟩ := bind_eq_ok.mp fetched
    obtain ⟨transactions, transactionsEq, fetched⟩ := bind_eq_ok.mp fetched
    cases fetched
    exact ⟨eq_ok_of_mapError tip, different, eq_ok_of_mapError deltaEq,
      eq_ok_of_mapError notesEq, eq_ok_of_mapError transactionsEq⟩

omit [ChainLibrary] in
/-- The update is about the chain tip. -/
theorem finishSync_blockNum {blockNum : BlockNumber} {data : FetchedSyncData Delta}
    {progress : ChainProgress} {updates : StateSyncUpdate × BlockUpdates}
    (finished : sync.finishSync node blockNum input data progress = .ok updates) :
    updates.1.blockNum = data.chainTipHeader.blockNum ∧ updates.2 = progress.blockUpdates := by
  obtain ⟨nullifiers, -, finished⟩ := bind_eq_ok.mp finished
  obtain ⟨update, nullified, finished⟩ := bind_eq_ok.mp finished
  cases finished
  refine ⟨?_, rfl⟩
  refine foldlM_invariant (fun _ (current : StateSyncUpdate) =>
    current.blockNum = data.chainTipHeader.blockNum) applyNullifier
    (fun nullifier rest current next same applied => ?_) _ _ _ rfl nullified
  unfold applyNullifier at applied
  split at applied
  · cases applied
    exact same
  · cases applied

end Parts

end StateSync

end MidenClient
