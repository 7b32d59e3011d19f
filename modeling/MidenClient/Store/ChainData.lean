/-
This file models the tables of the two stores that hold block headers and MMR nodes
(`sqlite-store/src/chain_data.rs`, `idxdb-store/src/ts/chainData.ts` and the chain part of
`idxdb-store/src/ts/sync.ts`), and the operations of the client that read and write them
(`rust-client/src/sync/block_header.rs`, `get_current_partial_mmr` in
`rust-client/src/store/mod.rs`).

A header is flagged when the client has notes in its block. A pruned store keeps the flagged
headers, the genesis header and the header of the block the client is synced to.
-/

import MidenClient.Sync.ChainSync

namespace MidenClient

open Std (ExtTreeMap)
open Fallible

/-- A row of the block header table. -/
structure StoredHeader where
  header : BlockHeader
  partialBlockchainPeaks : List Word
  hasClientNotes : Bool
  deriving DecidableEq, Repr

/-- The tables for block headers and for the authentication nodes of the MMR. -/
structure ChainData where
  blockHeaders : ExtTreeMap BlockNumber StoredHeader
  partialBlockchainNodes : ExtTreeMap ℕ Word

/-- The two implementations of the store. -/
inductive StoreKind where
  | sqlite
  | idxdb
  deriving DecidableEq, Repr

namespace ChainData

def empty : ChainData :=
  ⟨∅, ∅⟩

/-! ### SQLite -/

/-- Sets the flag of a stored header that is not flagged. -/
def setBlockHeaderHasClientNotes (chain : ChainData) (blockNum : BlockNumber)
    (hasClientNotes : Bool) : ChainData :=
  { chain with
    blockHeaders := chain.blockHeaders.modify blockNum fun stored =>
      if stored.hasClientNotes then stored else { stored with hasClientNotes := hasClientNotes } }

/-- A header that is stored already keeps its row, and is flagged if it now has to be. -/
def insertBlockHeaderTx (chain : ChainData) (blockHeader : BlockHeader) (peaks : List Word)
    (hasClientNotes : Bool) : ChainData :=
  setBlockHeaderHasClientNotes
    { chain with
      blockHeaders := chain.blockHeaders.insertIfNew blockHeader.blockNum
        ⟨blockHeader, peaks, hasClientNotes⟩ }
    blockHeader.blockNum hasClientNotes

/-- A node that is stored already is kept. -/
def insertPartialBlockchainNodesTx (chain : ChainData) (nodes : List MmrNode) : ChainData :=
  { chain with
    partialBlockchainNodes := OrderedMap.insertMissing chain.partialBlockchainNodes nodes }

/-! ### IndexedDB -/

/-- A header replaces the one that is stored. -/
def putBlockHeader (chain : ChainData) (blockHeader : BlockHeader) (peaks : List Word)
    (hasClientNotes : Bool) : ChainData :=
  { chain with
    blockHeaders := chain.blockHeaders.insert blockHeader.blockNum
      ⟨blockHeader, peaks, hasClientNotes⟩ }

/-- A header that is stored already stays as it is. -/
def updateBlockHeader (chain : ChainData) (blockHeader : BlockHeader) (peaks : List Word)
    (hasClientNotes : Bool) : ChainData :=
  match chain.blockHeaders[blockHeader.blockNum]? with
  | some _ => chain
  | none => chain.putBlockHeader blockHeader peaks hasClientNotes

def putPartialBlockchainNodes (chain : ChainData) (nodes : List MmrNode) : ChainData :=
  { chain with
    partialBlockchainNodes := OrderedMap.insertAll chain.partialBlockchainNodes nodes }

end ChainData

/-! ### Writing to a store -/

namespace StoreKind

open ChainData

/-- Writes a single header, outside of a sync. -/
def insertBlockHeader : StoreKind → ChainData → BlockHeader → List Word → Bool → ChainData
  | .sqlite => insertBlockHeaderTx
  | .idxdb => putBlockHeader

def insertPartialBlockchainNodes : StoreKind → ChainData → List MmrNode → ChainData
  | .sqlite => insertPartialBlockchainNodesTx
  | .idxdb => putPartialBlockchainNodes

/-- Writes a header of a sync. -/
def applyBlockHeader : StoreKind → ChainData → BlockHeader × Bool × List Word → ChainData
  | .sqlite, chain, (header, hasClientNotes, peaks) =>
    chain.insertBlockHeaderTx header peaks hasClientNotes
  | .idxdb, chain, (header, hasClientNotes, peaks) =>
    chain.updateBlockHeader header peaks hasClientNotes

/-- Writes the block data of a sync. -/
def applyBlockUpdates (kind : StoreKind) (chain : ChainData) (updates : BlockUpdates) :
    ChainData :=
  kind.insertPartialBlockchainNodes
    ((OrderedMap.values updates.blockHeaders).foldl kind.applyBlockHeader chain)
    updates.newAuthenticationNodes

/-- Whether pruning deletes a header without notes: the genesis header and the header of the last
block stay. -/
def prunes (kind : StoreKind) (syncHeight blockNum : BlockNumber) : Bool :=
  match kind with
  | .sqlite => 0 < blockNum && blockNum < syncHeight
  | .idxdb => blockNum ≠ 0 && blockNum ≠ syncHeight

def pruneIrrelevantBlocks (kind : StoreKind) (syncHeight : BlockNumber) (chain : ChainData) :
    ChainData :=
  { chain with
    blockHeaders := chain.blockHeaders.filter fun blockNum stored =>
      stored.hasClientNotes || !kind.prunes syncHeight blockNum }

/-- What storing an input note does to the headers: SQLite flags the block of its proof. -/
def flagNoteBlock (kind : StoreKind) (chain : ChainData) (note : InputNoteRecord) : ChainData :=
  match kind, note.state.inclusionProof with
  | .sqlite, some proof => chain.setBlockHeaderHasClientNotes proof.blockNum true
  | _, _ => chain

end StoreKind

namespace ChainData

/-! ### Reading the partial MMR -/

def trackedBlockHeaderNumbers (chain : ChainData) : Finset ℕ :=
  ((chain.blockHeaders.toList.filter fun entry => entry.2.hasClientNotes).map Prod.fst).toFinset

/-- The number of leaves and the peaks before a block; none when the header is not stored. -/
def partialBlockchainPeaksByBlockNum (chain : ChainData) (blockNum : BlockNumber) :
    ℕ × List Word :=
  match chain.blockHeaders[blockNum]? with
  | some stored => (blockNum, stored.partialBlockchainPeaks)
  | none => (0, [])

variable [ChainLibrary] {Mmr Delta : Type} [MmrLibrary Mmr Delta]

/-- The stored nodes of a forest with this many leaves. -/
def partialBlockchainNodesOfForest (chain : ChainData) (count : ℕ) : ExtTreeMap ℕ Word :=
  if count = 0 then ∅
  else chain.partialBlockchainNodes.filter fun index _ =>
    index ≤ ChainLibrary.rightmostInOrderIndex count

/-- The result of the MMR library, as a result of the client. -/
def mmrResult {α : Type} (result : Except String α) : Except ClientError α :=
  result.mapError .mmrError

/-- The leaves to track: the flagged blocks, and the last block if it is flagged and stands
alone. -/
def trackedLeaves (chain : ChainData) (hasClientNotes : Bool) (count : ℕ) : Finset ℕ :=
  if hasClientNotes && ChainLibrary.hasSingleLeafTree count then
    insert (count - 1) chain.trackedBlockHeaderNumbers
  else chain.trackedBlockHeaderNumbers

/-- Builds the current view of the partial MMR of the chain. -/
def getCurrentPartialMmr (chain : ChainData) (currentBlockNum : BlockNumber) :
    Except ClientError Mmr := do
  let current := chain.partialBlockchainPeaksByBlockNum currentBlockNum
  let before : Mmr ← mmrResult (MmrLibrary.fromPeaks current.1 current.2)
  match chain.blockHeaders[currentBlockNum]? with
  | none => throw (.blockHeaderNotFound currentBlockNum)
  | some stored =>
    let mmr := (MmrLibrary.add (ChainLibrary.headerCommitment stored.header)
      stored.hasClientNotes before).2
    mmrResult (MmrLibrary.fromParts (MmrLibrary.numLeaves mmr) (MmrLibrary.peaks mmr)
      (chain.partialBlockchainNodesOfForest (MmrLibrary.numLeaves mmr))
      (chain.trackedLeaves stored.hasClientNotes (MmrLibrary.numLeaves mmr)))

/-! ### Blocks that are fetched on demand -/

/-- Numbers the nodes of a path, from a leaf or a node upwards. -/
def indexPath : ℕ → List Word → List MmrNode
  | _, [] => []
  | index, node :: rest =>
    (ChainLibrary.sibling index, node) :: indexPath (ChainLibrary.parent index) rest

/-- The part of a path that lies in a forest with fewer leaves. -/
def adjustMerklePathForForest (merklePath : List Word) (blockNum : BlockNumber) (count : ℕ) :
    Except ClientError (List MmrNode) :=
  match ChainLibrary.leafToCorrespondingTree count blockNum with
  | none => .error (.aborted "forest includes block number")
  | some height => .ok (indexPath (ChainLibrary.fromLeafPos blockNum) (merklePath.take height))

def authenticatedBlockNodes (blockHeader : BlockHeader) (pathNodes : List MmrNode) :
    List MmrNode :=
  (ChainLibrary.fromLeafPos blockHeader.blockNum, ChainLibrary.headerCommitment blockHeader) ::
    pathNodes

/-- The answer of the node when it is asked for a block with its MMR proof. -/
abbrev BlockProofAnswer := Except RpcError (BlockHeader × List Word)

/-- Fetches a header, and tracks it in the MMR. -/
def fetchBlockHeader (answer : BlockProofAnswer) (blockNum : BlockNumber) (mmr : Mmr) :
    Except ClientError (BlockHeader × List MmrNode × Mmr) := do
  let fetched ← answer.mapError .rpcError
  let pathNodes ← adjustMerklePathForForest fetched.2 blockNum (MmrLibrary.numLeaves mmr)
  match MmrLibrary.track blockNum (ChainLibrary.headerCommitment fetched.1)
      (pathNodes.map Prod.snd) mmr with
  | .ok () tracked => return (fetched.1, pathNodes, tracked)
  | .error message _ => throw (.mmrError message)

/-- The header of a block that is tracked, and so has to be stored. -/
def trackedHeader (chain : ChainData) (blockNum : BlockNumber) : Except ClientError BlockHeader :=
  match chain.blockHeaders[blockNum]? with
  | some stored => .ok stored.header
  | none => .error (.aborted "Block header should be tracked")

/-- Whether the database accepts the header of a fetched block, and then its nodes. Each of the two
writes is a transaction of its own. -/
structure BlockWrites where
  header : Except ClientError Unit
  nodes : Except ClientError Unit

/-- Retrieves and stores a header with its authentication data. When the nodes are refused the
header stays. -/
def getAndStoreAuthenticatedBlock (kind : StoreKind) (writes : BlockWrites)
    (answer : BlockProofAnswer) (blockNum : BlockNumber) (mmr : Mmr) :
    EStateM ClientError ChainData BlockHeader := do
  if MmrLibrary.isTracked mmr blockNum then
    fromExcept ((← get).trackedHeader blockNum)
  else do
    let fetched ← fromExcept (fetchBlockHeader answer blockNum mmr)
    fromExcept writes.header
    modify fun chain =>
      kind.insertBlockHeader chain fetched.1 (MmrLibrary.peaks fetched.2.2) true
    fromExcept writes.nodes
    modify fun chain => kind.insertPartialBlockchainNodes chain
      (authenticatedBlockNodes fetched.1 fetched.2.1)
    return fetched.1

end ChainData

end MidenClient
