/-
This file follows the chain tables of the SQLite store through runs of syncs, of blocks
fetched for imported notes, of stored notes and of pruning.

At any time the row of the last synced block must carry the peaks before it, and the node
table must prove every flagged block, or the partial MMR cannot be built again. A sync and a
fetched block bring the nodes along. Storing a note only raises the flag of the block of its
proof, and brings no nodes, so it may only do so for a block that can be proved already.
-/

import MidenClient.Sqlite.BlockHeaders
import MidenClient.Store.AuthenticationPaths
import MidenClient.Sync.LocalStore

namespace MidenClient

open Std (ExtTreeMap)
open Fallible MountainRange

namespace ChainData

variable [ChainLibrary] {Mmr Delta : Type} [MmrLibrary Mmr Delta] {chain : Chain}
  {deltaOf : ℕ → ℕ → Delta} {data : ChainData} {syncHeight : BlockNumber}

/-! ### Building the partial MMR -/

def IsFlagged (data : ChainData) (blockNum : BlockNumber) : Prop :=
  ∃ stored, data.blockHeaders[blockNum]? = some stored ∧ stored.hasClientNotes = true

/-- The last block is stored with the peaks before it, and the stored nodes prove every flagged
block. -/
structure Provable (chain : Chain) (data : ChainData) (syncHeight : BlockNumber) : Prop where
  tip : ∃ stored, data.blockHeaders[syncHeight]? = some stored ∧
    stored.header = chain.header syncHeight ∧
      stored.partialBlockchainPeaks = chain.peaks syncHeight
  flagged : ∀ blockNum, data.IsFlagged blockNum →
    Chain.HasNodes data.partialBlockchainNodes (chain.proofNodes (syncHeight + 1) blockNum)

/-- The stored headers and nodes are those of the chain up to the last block. -/
structure Genuine (chain : Chain) (data : ChainData) (syncHeight : BlockNumber) : Prop where
  headers : ∀ blockNum stored, data.blockHeaders[blockNum]? = some stored →
    stored.header = chain.header blockNum ∧ blockNum ≤ syncHeight
  nodes : ∀ (index : ℕ) (value : Word), data.partialBlockchainNodes[index]? = some value →
    chain.IsNode (syncHeight + 1) (index, value)

omit [ChainLibrary] in
theorem mem_trackedBlockHeaderNumbers_iff {blockNum : BlockNumber} :
    blockNum ∈ data.trackedBlockHeaderNumbers ↔ data.IsFlagged blockNum := by
  unfold trackedBlockHeaderNumbers IsFlagged
  rw [List.mem_toFinset, List.mem_map]
  constructor
  · rintro ⟨entry, listed, rfl⟩
    obtain ⟨member, flagged⟩ := List.mem_filter.mp listed
    exact ⟨entry.2, ExtTreeMap.mem_toList_iff_getElem?_eq_some.mp member, flagged⟩
  · rintro ⟨stored, row, flagged⟩
    exact ⟨(blockNum, stored), List.mem_filter.mpr
      ⟨ExtTreeMap.mem_toList_iff_getElem?_eq_some.mpr row, flagged⟩, rfl⟩

/-- The leaves to track are the flagged blocks, whether or not the last one stands alone. -/
theorem mem_trackedLeaves_iff {stored : StoredHeader}
    (tip : data.blockHeaders[syncHeight]? = some stored) {blockNum : BlockNumber} :
    blockNum ∈ data.trackedLeaves stored.hasClientNotes (syncHeight + 1) ↔
      data.IsFlagged blockNum := by
  unfold trackedLeaves
  split
  · rename_i alone
    rw [Finset.mem_insert, mem_trackedBlockHeaderNumbers_iff, Nat.add_sub_cancel]
    refine or_iff_right_of_imp ?_
    rintro rfl
    exact ⟨stored, tip, ((Bool.and_eq_true _ _).mp alone).1⟩
  · exact mem_trackedBlockHeaderNumbers_iff

/-- All stored nodes lie in the forest up to the last block. -/
theorem partialBlockchainNodesOfForest_eq (library : ChainLibrary.Correct)
    (genuine : data.Genuine chain syncHeight) :
    data.partialBlockchainNodesOfForest (syncHeight + 1) = data.partialBlockchainNodes := by
  unfold partialBlockchainNodesOfForest
  rw [if_neg (Nat.succ_ne_zero syncHeight)]
  refine ExtTreeMap.ext_getElem? fun index => ?_
  rw [OrderedMap.getElem?_filter_key]
  split
  · rfl
  · rename_i outside
    cases found : data.partialBlockchainNodes[index]? with
    | none => rfl
    | some value =>
      obtain ⟨level, position, inside, same⟩ := genuine.nodes index value found
      refine absurd (decide_eq_true ?_) outside
      rw [show index = inOrderIndex level position from congrArg Prod.fst same]
      exact library.rightmost inside

/-- The partial MMR can be built. It has the peaks of the chain and tracks the flagged blocks. -/
theorem getCurrentPartialMmr_represents (library : ChainLibrary.Correct)
    (correct : MmrLibrary.Correct Mmr chain deltaOf) (provable : data.Provable chain syncHeight)
    (genuine : data.Genuine chain syncHeight) :
    ∃ mmr : Mmr, data.getCurrentPartialMmr syncHeight = .ok mmr ∧
      chain.Represents mmr (syncHeight + 1) {blockNum | data.IsFlagged blockNum} ∧
      ∀ (index : ℕ) (value : Word), (MmrLibrary.nodes mmr)[index]? = some value →
        data.partialBlockchainNodes[index]? = some value := by
  obtain ⟨stored, row, header, peaks⟩ := provable.tip
  obtain ⟨before, loaded, blank⟩ := correct.fromPeaks syncHeight
  obtain ⟨added, -, -⟩ := correct.add stored.hasClientNotes blank
  have tracked : ∀ blockNum,
      blockNum ∈ data.trackedLeaves stored.hasClientNotes (syncHeight + 1) ↔
        data.IsFlagged blockNum := fun _ => mem_trackedLeaves_iff row
  obtain ⟨mmr, built, represents, nodes⟩ := correct.fromParts (syncHeight + 1)
    data.partialBlockchainNodes (data.trackedLeaves stored.hasClientNotes (syncHeight + 1))
    (fun blockNum member => by
      obtain ⟨other, flaggedRow, flagged⟩ := (tracked blockNum).mp member
      exact ⟨Nat.lt_succ_of_le (genuine.headers blockNum other flaggedRow).2,
        provable.flagged blockNum ⟨other, flaggedRow, flagged⟩⟩)
    genuine.nodes
  refine ⟨mmr, ?_, ?_, nodes⟩
  · unfold getCurrentPartialMmr partialBlockchainPeaksByBlockNum
    rw [row]
    refine bind_eq_ok.mpr ⟨before, ?_, ?_⟩
    · show mmrResult (MmrLibrary.fromPeaks syncHeight stored.partialBlockchainPeaks) = _
      rw [peaks, loaded]
      rfl
    · dsimp only
      rw [header, show ChainLibrary.headerCommitment (chain.header syncHeight) =
        chain.leaf syncHeight from rfl, added.numLeaves, added.peaks,
        partialBlockchainNodesOfForest_eq library genuine, built]
      rfl
  · have same : {blockNum | data.IsFlagged blockNum} =
        (↑(data.trackedLeaves stored.hasClientNotes (syncHeight + 1)) : Set ℕ) :=
      Set.ext fun blockNum => (tracked blockNum).symm
    rwa [same]

end ChainData

/-! ### A sync -/

/-- What the client assumes of the node: headers are those of the chain, deltas lead from one
number of leaves to another, and note blocks come with their paths. A request may also fail. -/
structure SyncNode.Honest [ChainLibrary] {Delta : Type} (chain : Chain) (deltaOf : ℕ → ℕ → Delta)
    (node : SyncNode Delta) (syncHeight : BlockNumber) : Prop where
  tip : ∀ header, node.chainTip = .ok header →
    header = chain.header header.blockNum ∧ syncHeight ≤ header.blockNum
  delta : ∀ blockFrom blockTo delta, node.syncChainMmr blockFrom blockTo = .ok delta →
    delta = deltaOf (blockFrom + 1) blockTo
  notes : ∀ blockFrom blockTo noteTags notes,
    node.syncNotesWithDetails blockFrom blockTo noteTags = .ok notes → ∀ block ∈ notes.1,
      block.noteBlock.blockHeader = chain.header block.noteBlock.blockHeader.blockNum ∧
      block.noteBlock.blockHeader.blockNum ≤ blockTo ∧
      block.mmrPath = (chain.path (blockTo + 1) block.noteBlock.blockHeader.blockNum).map Prod.snd

namespace StateSync

variable [NoteLibrary] [ChainLibrary] {Mmr Delta : Type} [MmrLibrary Mmr Delta] {chain : Chain}
  {deltaOf : ℕ → ℕ → Delta} {data : ChainData} {sync : StateSync} {tip : BlockNumber}

/-- Where a sync to the tip stands: an MMR with the tip that tracks some blocks, nodes that are
stored or to be stored, and headers of the chain, flagged only when their block is tracked. -/
structure Advanced (chain : Chain) (data : ChainData) (tip : BlockNumber)
    (tracked : Set BlockNumber) (updates : BlockUpdates) (mmr : Mmr) : Prop where
  represents : chain.Represents mmr (tip + 1) tracked
  nodes : ∀ (index : ℕ) (value : Word), (MmrLibrary.nodes mmr)[index]? = some value →
    data.partialBlockchainNodes[index]? = some value ∨
      (index, value) ∈ updates.newAuthenticationNodes
  genuine : ∀ node ∈ updates.newAuthenticationNodes, chain.IsNode (tip + 1) node
  last : ∃ hasClientNotes,
    updates.blockHeaders[tip]? = some (chain.header tip, hasClientNotes, chain.peaks tip)
  headers : ∀ blockNum entry, updates.blockHeaders[blockNum]? = some entry →
    entry.1 = chain.header blockNum ∧ blockNum ≤ tip ∧ (entry.2.1 = true → blockNum ∈ tracked)

omit [NoteLibrary] in
/-- A note block that is tracked has its path in the MMR, and all new nodes are returned. -/
theorem trackBlock_represents (correct : MmrLibrary.Correct Mmr chain deltaOf)
    {block : NoteSyncBlock} {tracked : Set BlockNumber} {mmr next : Mmr} {nodes : List MmrNode}
    (header : block.noteBlock.blockHeader = chain.header block.noteBlock.blockHeader.blockNum)
    (reached : block.noteBlock.blockHeader.blockNum ≤ tip)
    (path : block.mmrPath =
      (chain.path (tip + 1) block.noteBlock.blockHeader.blockNum).map Prod.snd)
    (represents : chain.Represents mmr (tip + 1) tracked)
    (done : trackBlock block mmr = .ok nodes next) :
    chain.Represents next (tip + 1) (insert block.noteBlock.blockHeader.blockNum tracked) ∧
      Reported mmr next nodes ∧ ∀ node ∈ nodes, chain.IsNode (tip + 1) node := by
  unfold trackBlock at done
  have current : (get : MmrM Mmr Mmr) mmr = .ok mmr mmr := rfl
  rw [bind_of_result_ok current] at done
  split at done
  · rename_i already
    cases done
    rw [Set.insert_eq_of_mem ((represents.isTracked _).mp already)]
    exact ⟨represents, fun _ _ found => Or.inl found,
      fun _ absent => absurd absent List.not_mem_nil⟩
  · rename_i untracked
    obtain ⟨moved, succeeded, follows⟩ := correct.track represents (Nat.lt_succ_of_le reached)
      fun member => untracked ((represents.isTracked _).mpr member)
    have commitment : ChainLibrary.headerCommitment block.noteBlock.blockHeader =
        chain.leaf block.noteBlock.blockHeader.blockNum := congrArg _ header
    have ran : mmrOperation (MmrLibrary.track block.noteBlock.blockHeader.blockNum
        (ChainLibrary.headerCommitment block.noteBlock.blockHeader) block.mmrPath) mmr =
          .ok () moved := by
      unfold mmrOperation
      rw [commitment, path, succeeded]
    rw [bind_of_result_ok ran] at done
    have after : (get : MmrM Mmr Mmr) moved = .ok moved moved := rfl
    rw [bind_of_result_ok after] at done
    cases done
    refine ⟨follows, fun index value found => ?_, fun node listed => ?_⟩
    · by_cases old : index ∈ MmrLibrary.nodes mmr
      · obtain ⟨before, foundBefore⟩ := Option.isSome_iff_exists.mp
          (ExtTreeMap.isSome_getElem?_iff_mem.mpr old)
        -- Both values are nodes of the chain with one index.
        have same : value = before := congrArg Prod.snd ((follows.genuine index value
          found).eq_of_index (represents.genuine index before foundBefore) rfl)
        rw [same]
        exact Or.inl foundBefore
      · refine Or.inr (List.mem_filter.mpr
          ⟨ExtTreeMap.mem_toList_iff_getElem?_eq_some.mpr found, decide_eq_true old⟩)
    · exact follows.genuine node.1 node.2
        (ExtTreeMap.mem_toList_iff_getElem?_eq_some.mp (List.mem_filter.mp listed).1)

omit [NoteLibrary] [ChainLibrary] in
theorem insert_blockHeaders_getElem? (updates : BlockUpdates) (header : BlockHeader)
    (hasClientNotes : Bool) (peaks : List Word) (nodes : List MmrNode) (blockNum : BlockNumber) :
    (updates.insert header hasClientNotes peaks nodes).blockHeaders[blockNum]? =
      if header.blockNum = blockNum then
        some (match updates.blockHeaders[blockNum]? with
          | some entry => (entry.1, entry.2.1 || hasClientNotes, entry.2.2)
          | none => (header, hasClientNotes, peaks))
      else updates.blockHeaders[blockNum]? := by
  unfold BlockUpdates.insert
  by_cases same : header.blockNum = blockNum
  · subst same
    rw [if_pos rfl]
    cases updates.blockHeaders[header.blockNum]? with
    | none => exact ExtTreeMap.getElem?_insert_self
    | some entry => exact ExtTreeMap.getElem?_insert_self
  · rw [if_neg same]
    cases updates.blockHeaders[header.blockNum]? <;>
      exact (ExtTreeMap.getElem?_insert).trans (if_neg fun equal =>
        same (Std.compare_eq_iff_eq.mp equal))

omit [NoteLibrary] in
/-- A relevant note block is added once it is tracked. -/
theorem Advanced.insert {tracked more : Set BlockNumber} {updates : BlockUpdates} {mmr next : Mmr}
    (advanced : Advanced chain data tip tracked updates mmr) {header : BlockHeader}
    (peaks : List Word) {nodes : List MmrNode} (own : header = chain.header header.blockNum)
    (reached : header.blockNum ≤ tip) (grows : tracked ⊆ more) (member : header.blockNum ∈ more)
    (represents : chain.Represents next (tip + 1) more) (reported : Reported mmr next nodes)
    (genuine : ∀ node ∈ nodes, chain.IsNode (tip + 1) node) :
    Advanced chain data tip more (updates.insert header true peaks nodes) next where
  represents := represents
  nodes index value found := by
    rcases reported index value found with before | listed
    · exact (advanced.nodes index value before).imp id (List.mem_append_left nodes)
    · exact Or.inr (List.mem_append_right _ listed)
  genuine node listed := (List.mem_append.mp listed).elim (advanced.genuine node) (genuine node)
  last := by
    obtain ⟨hasClientNotes, found⟩ := advanced.last
    rw [insert_blockHeaders_getElem?, found]
    split
    · exact ⟨_, rfl⟩
    · exact ⟨hasClientNotes, rfl⟩
  headers blockNum entry found := by
    rw [insert_blockHeaders_getElem?] at found
    split at found
    · rename_i same
      subst same
      cases old : updates.blockHeaders[header.blockNum]? with
      | none =>
        rw [old] at found
        cases found
        exact ⟨own, reached, fun _ => member⟩
      | some before =>
        rw [old] at found
        cases found
        obtain ⟨known, -, -⟩ := advanced.headers _ before old
        exact ⟨known, reached, fun _ => member⟩
    · obtain ⟨known, below, inside⟩ := advanced.headers blockNum entry found
      exact ⟨known, below, fun flagged => grows (inside flagged)⟩

/-- One note block more. -/
theorem applyNoteBlock_advanced (correct : MmrLibrary.Correct Mmr chain deltaOf)
    {publicNotes : ExtTreeMap NoteId InputNoteRecord} {progress result : ChainProgress}
    {block : NoteSyncBlock} {tracked : Set BlockNumber} {mmr next : Mmr}
    (header : block.noteBlock.blockHeader = chain.header block.noteBlock.blockHeader.blockNum)
    (reached : block.noteBlock.blockHeader.blockNum ≤ tip)
    (path : block.mmrPath =
      (chain.path (tip + 1) block.noteBlock.blockHeader.blockNum).map Prod.snd)
    (advanced : Advanced chain data tip tracked progress.blockUpdates mmr)
    (done : sync.applyNoteBlock publicNotes progress block mmr = .ok result next) :
    ∃ more, tracked ⊆ more ∧ Advanced chain data tip more result.blockUpdates next := by
  unfold applyNoteBlock at done
  obtain ⟨screened, middle, screening, done⟩ := bind_eq_result_ok.mp done
  obtain ⟨-, rfl⟩ := fromExcept_eq_ok.mp screening
  split at done
  · obtain ⟨nodes, moved, trackedBlock, done⟩ := bind_eq_result_ok.mp done
    obtain ⟨represents, reported, genuine⟩ :=
      trackBlock_represents correct header reached path advanced.represents trackedBlock
    have current : (get : MmrM Mmr Mmr) moved = .ok moved moved := rfl
    rw [bind_of_result_ok current] at done
    cases done
    exact ⟨_, Set.subset_insert _ _, advanced.insert _ header reached (Set.subset_insert _ _)
      (Set.mem_insert _ _) represents reported genuine⟩
  · cases done
    exact ⟨tracked, subset_rfl, advanced⟩

/-- The chain part of a sync that finds a new tip. -/
theorem applyChainData_advanced (correct : MmrLibrary.Correct Mmr chain deltaOf)
    {fetched : FetchedSyncData Delta} {tracker : NoteUpdateTracker} {tracked : Set BlockNumber}
    {count : ℕ} {mmr next : Mmr} {progress : ChainProgress}
    (header : fetched.chainTipHeader = chain.header tip) (below : count ≤ tip)
    (delta : fetched.mmrDelta = deltaOf count tip)
    (blocks : ∀ block ∈ fetched.noteBlocks,
      block.noteBlock.blockHeader = chain.header block.noteBlock.blockHeader.blockNum ∧
      block.noteBlock.blockHeader.blockNum ≤ tip ∧
      block.mmrPath = (chain.path (tip + 1) block.noteBlock.blockHeader.blockNum).map Prod.snd)
    (represents : chain.Represents mmr count tracked)
    (nodes : ∀ (index : ℕ) (value : Word), (MmrLibrary.nodes mmr)[index]? = some value →
      data.partialBlockchainNodes[index]? = some value)
    (done : sync.applyChainData fetched tracker mmr = .ok progress next) :
    ∃ more, tracked ⊆ more ∧ Advanced chain data tip more progress.blockUpdates next := by
  obtain ⟨applied, moved, succeeded, follows, appliedReported, appliedGenuine⟩ :=
    correct.apply represents below
  obtain ⟨ends, addedReported, addedGenuine⟩ := correct.add false follows
  have ran : mmrOperation (MmrLibrary.apply fetched.mmrDelta) mmr = .ok applied moved := by
    unfold mmrOperation
    rw [delta, succeeded]
  have current : (get : MmrM Mmr Mmr) moved = .ok moved moved := rfl
  have added : addLeaf fetched.chainTipHeader moved =
      .ok (MmrLibrary.add (chain.leaf tip) false moved).1
        (MmrLibrary.add (chain.leaf tip) false moved).2 := by
    unfold addLeaf
    rw [header]
    rfl
  unfold applyChainData at done
  rw [bind_of_result_ok ran, bind_of_result_ok current, bind_of_result_ok added] at done
  have started : Advanced chain data tip tracked (BlockUpdates.empty.insert fetched.chainTipHeader
      false (MmrLibrary.peaks moved) (applied ++ (MmrLibrary.add (chain.leaf tip) false moved).1))
      (MmrLibrary.add (chain.leaf tip) false moved).2 := by
    have single : ∀ blockNum : BlockNumber,
        (BlockUpdates.empty.insert fetched.chainTipHeader false (MmrLibrary.peaks moved)
          (applied ++ (MmrLibrary.add (chain.leaf tip) false moved).1)).blockHeaders[blockNum]? =
        if tip = blockNum then some (chain.header tip, false, chain.peaks tip) else none := by
      intro blockNum
      rw [insert_blockHeaders_getElem?, header, chain.numbered, follows.peaks]
      simp [BlockUpdates.empty]
    refine ⟨ends, fun index value found => ?_, fun node listed => ?_, ⟨false, ?_⟩,
      fun blockNum entry found => ?_⟩
    · rcases addedReported index value found with before | listed
      · rcases appliedReported index value before with old | early
        · exact Or.inl (nodes index value old)
        · exact Or.inr (List.mem_append_right _ (List.mem_append_left _ early))
      · exact Or.inr (List.mem_append_right _ (List.mem_append_right _ listed))
    · rcases List.mem_append.mp listed with absent | new
      · exact absurd absent List.not_mem_nil
      · rcases List.mem_append.mp new with early | late
        · exact (appliedGenuine node early).mono (Nat.le_succ tip)
        · exact addedGenuine node late
    · rw [single, if_pos rfl]
    · rw [single] at found
      split at found
      · rename_i same
        subst same
        cases found
        exact ⟨rfl, le_rfl, fun flagged => by cases flagged⟩
      · cases found
  refine foldlM_result_state_invariant (fun (progress : ChainProgress) mmr =>
      ∃ more, tracked ⊆ more ∧ Advanced chain data tip more progress.blockUpdates mmr)
    _ fetched.noteBlocks (fun block member before start result last advanced stepped => ?_)
    _ progress _ next ⟨tracked, subset_rfl, started⟩ done
  obtain ⟨middle, grows, advanced⟩ := advanced
  obtain ⟨own, reached, path⟩ := blocks block member
  obtain ⟨more, further, result⟩ :=
    applyNoteBlock_advanced correct own reached path advanced stepped
  exact ⟨more, grows.trans further, result⟩

end StateSync

/-! ### What the operations write -/

namespace ChainData

open StateSync

variable [ChainLibrary] {Mmr Delta : Type} [MmrLibrary Mmr Delta] {chain : Chain}
  {deltaOf : ℕ → ℕ → Delta} {data : ChainData} {syncHeight tip blockNum : BlockNumber}

/-- The tables let the partial MMR be built, and hold nothing but the chain. -/
structure Sound (chain : Chain) (data : ChainData) (syncHeight : BlockNumber) : Prop where
  provable : data.Provable chain syncHeight
  genuine : data.Genuine chain syncHeight

omit [ChainLibrary] in
theorem foldl_applyBlockHeader_nodes (entries : List (BlockHeader × Bool × List Word)) :
    (entries.foldl StoreKind.sqlite.applyBlockHeader data).partialBlockchainNodes =
      data.partialBlockchainNodes := by
  induction entries generalizing data with
  | nil => rfl
  | cons entry rest inductionHypothesis => exact inductionHypothesis

/-- A node that was stored, or is written now, can be read back: a stored node with its index is
the same node of the chain. -/
theorem insertMissing_node {nodes : ExtTreeMap ℕ Word} {entries : List MmrNode} {count : ℕ}
    (genuine : ∀ (index : ℕ) (value : Word),
      (OrderedMap.insertMissing nodes entries)[index]? = some value →
      chain.IsNode count (index, value))
    {node : MmrNode} (isNode : chain.IsNode count node)
    (written : nodes[node.1]? = some node.2 ∨ node ∈ entries) :
    (OrderedMap.insertMissing nodes entries)[node.1]? = some node.2 := by
  rcases written with stored | listed
  · exact OrderedMap.insertMissing_of_getElem? entries stored
  · have present : ((OrderedMap.insertMissing nodes entries)[node.1]?).isSome = true :=
      OrderedMap.insertMissing_isSome listed
    obtain ⟨value, found⟩ := Option.isSome_iff_exists.mp present
    have same : value = node.2 :=
      congrArg Prod.snd ((genuine node.1 value found).eq_of_index isNode rfl)
    rw [found, same]

theorem insertMissing_genuine {nodes : ExtTreeMap ℕ Word} {entries : List MmrNode} {count : ℕ}
    (stored : ∀ (index : ℕ) (value : Word), nodes[index]? = some value →
      chain.IsNode count (index, value))
    (written : ∀ node ∈ entries, chain.IsNode count node) (index : ℕ) (value : Word)
    (found : (OrderedMap.insertMissing nodes entries)[index]? = some value) :
    chain.IsNode count (index, value) :=
  (OrderedMap.insertMissing_eq_some found).elim (stored index value) (written (index, value))

/-- Writing the block data of a sync. -/
theorem applyBlockUpdates_sound (sound : data.Sound chain syncHeight) (below : syncHeight < tip)
    {tracked : Set BlockNumber} {updates : BlockUpdates} {mmr : Mmr}
    (advanced : Advanced chain data tip tracked updates mmr)
    (flagged : ∀ blockNum, data.IsFlagged blockNum → blockNum ∈ tracked) :
    (StoreKind.sqlite.applyBlockUpdates data updates).Sound chain tip := by
  have numbered : ∀ entry ∈ OrderedMap.values updates.blockHeaders, ∀ blockNum,
      entry.1.blockNum = blockNum → entry.1 = chain.header blockNum ∧ blockNum ≤ tip ∧
        (entry.2.1 = true → blockNum ∈ tracked) ∧ updates.blockHeaders[blockNum]? = some entry := by
    intro entry member blockNum same
    obtain ⟨key, found⟩ := OrderedMap.mem_values_iff.mp member
    obtain ⟨own, reached, inside⟩ := advanced.headers key entry found
    rw [own, chain.numbered] at same
    subst same
    exact ⟨own, reached, inside, found⟩
  have rows : ∀ (blockNum : BlockNumber) (stored : StoredHeader),
      (StoreKind.sqlite.applyBlockUpdates data updates).blockHeaders[blockNum]? = some stored →
      RowFrom data (OrderedMap.values updates.blockHeaders) blockNum stored :=
    fun _ _ found => foldl_applyBlockHeader_rowFrom found
  have nodesEq : (StoreKind.sqlite.applyBlockUpdates data updates).partialBlockchainNodes =
      OrderedMap.insertMissing data.partialBlockchainNodes updates.newAuthenticationNodes :=
    congrArg (OrderedMap.insertMissing · _) (foldl_applyBlockHeader_nodes _)
  have genuineNodes := insertMissing_genuine (fun index value found =>
    (sound.genuine.nodes index value found).mono (Nat.succ_le_succ below.le)) advanced.genuine
  refine ⟨⟨?_, fun blockNum raised node listed => ?_⟩, fun blockNum stored found => ?_,
    fun index value found => ?_⟩
  · obtain ⟨hasClientNotes, last⟩ := advanced.last
    obtain ⟨stored, row, -⟩ : ∃ stored,
        (StoreKind.sqlite.applyBlockUpdates data
          updates).blockHeaders[(chain.header tip).blockNum]? =
          some stored ∧ (hasClientNotes = true → stored.hasClientNotes = true) :=
      foldl_applyBlockHeader_of_mem (OrderedMap.mem_values_iff.mpr ⟨tip, last⟩)
    rw [chain.numbered] at row
    refine ⟨stored, row, ?_⟩
    rcases (rows tip stored row).source with ⟨old, was, -⟩ | ⟨-, entry, member, same, header, peaks⟩
    · exact absurd (sound.genuine.headers tip old was).2 (Nat.not_le_of_lt below)
    · obtain ⟨own, -, -, found⟩ := numbered entry member tip same
      rw [last] at found
      rw [header, peaks, ← Option.some.inj found]
      exact ⟨rfl, rfl⟩
  · have inside : blockNum ∈ tracked := by
      obtain ⟨stored, row, raised⟩ := raised
      rcases (rows blockNum stored row).flag raised with was | ⟨entry, member, same, relevant⟩
      · exact flagged blockNum was
      · exact (numbered entry member blockNum same).2.2.1 relevant
    have inMmr := advanced.represents.nodes blockNum inside node listed
    rw [nodesEq]
    exact insertMissing_node genuineNodes (advanced.represents.genuine node.1 node.2 inMmr)
      (advanced.nodes node.1 node.2 inMmr)
  · rcases (rows blockNum stored found).source with ⟨old, was, header, -⟩ |
      ⟨-, entry, member, same, header, -⟩
    · obtain ⟨own, reached⟩ := sound.genuine.headers blockNum old was
      exact ⟨header.trans own, reached.trans below.le⟩
    · obtain ⟨own, reached, -⟩ := numbered entry member blockNum same
      exact ⟨header.trans own, reached⟩
  · rw [nodesEq] at found
    exact genuineNodes index value found

omit [ChainLibrary] in
theorem isFlagged_of_prune {kind : StoreKind} (raised :
    (kind.pruneIrrelevantBlocks syncHeight data).IsFlagged blockNum) : data.IsFlagged blockNum := by
  obtain ⟨stored, row, flagged⟩ := raised
  exact ⟨stored, ((pruneIrrelevantBlocks_getElem?_eq_some_iff _ _ _ _ _).mp row).1, flagged⟩

/-- Pruning keeps the last block, and every flagged one. -/
theorem pruneIrrelevantBlocks_sound (sound : data.Sound chain syncHeight) :
    (StoreKind.sqlite.pruneIrrelevantBlocks syncHeight data).Sound chain syncHeight where
  provable := by
    obtain ⟨stored, row, same⟩ := sound.provable.tip
    refine ⟨⟨stored, ?_, same⟩, fun blockNum raised =>
      sound.provable.flagged blockNum (isFlagged_of_prune raised)⟩
    refine (pruneIrrelevantBlocks_getElem?_eq_some_iff _ _ _ _ _).mpr ⟨row, Or.inr ?_⟩
    show (_ && decide (syncHeight < syncHeight)) = false
    rw [decide_eq_false (Nat.lt_irrefl _), Bool.and_false]
  genuine := ⟨fun blockNum stored row => sound.genuine.headers blockNum stored
    ((pruneIrrelevantBlocks_getElem?_eq_some_iff _ _ _ _ _).mp row).1, sound.genuine.nodes⟩

/-- Writing headers up to the last block, together with the nodes that prove the flagged ones and
are not stored yet. -/
theorem Sound.write (sound : data.Sound chain syncHeight)
    (entries : List (BlockHeader × Bool × List Word)) {nodes : List MmrNode}
    (own : ∀ entry ∈ entries,
      entry.1 = chain.header entry.1.blockNum ∧ entry.1.blockNum ≤ syncHeight)
    (genuine : ∀ node ∈ nodes, chain.IsNode (syncHeight + 1) node)
    (complete : ∀ entry ∈ entries, entry.2.1 = true →
      ∀ node ∈ chain.proofNodes (syncHeight + 1) entry.1.blockNum,
        node ∈ nodes ∨ data.partialBlockchainNodes[node.1]? = some node.2) :
    (insertPartialBlockchainNodesTx (entries.foldl StoreKind.sqlite.applyBlockHeader data)
      nodes).Sound chain syncHeight := by
  have nodesEq : (insertPartialBlockchainNodesTx (entries.foldl StoreKind.sqlite.applyBlockHeader
      data) nodes).partialBlockchainNodes =
        OrderedMap.insertMissing data.partialBlockchainNodes nodes :=
    congrArg (OrderedMap.insertMissing · _) (foldl_applyBlockHeader_nodes _)
  have genuineNodes := insertMissing_genuine sound.genuine.nodes genuine
  have rows : ∀ (blockNum : BlockNumber) (stored : StoredHeader),
      (insertPartialBlockchainNodesTx (entries.foldl StoreKind.sqlite.applyBlockHeader data)
        nodes).blockHeaders[blockNum]? = some stored → RowFrom data entries blockNum stored :=
    fun _ _ found => foldl_applyBlockHeader_rowFrom found
  refine ⟨⟨?_, fun blockNum raised node listed => ?_⟩, fun blockNum stored found => ?_,
    fun index value found => ?_⟩
  · obtain ⟨old, was, header, peaks⟩ := sound.provable.tip
    obtain ⟨new, row, kept⟩ := foldl_applyBlockHeader_keepsRow entries was
    exact ⟨new, row, kept.header.trans header, kept.peaks.trans peaks⟩
  · obtain ⟨stored, row, raised⟩ := raised
    rw [nodesEq]
    rcases (rows blockNum stored row).flag raised with was | ⟨entry, member, rfl, relevant⟩
    · have known := sound.provable.flagged blockNum was node listed
      exact OrderedMap.insertMissing_of_getElem? nodes known
    · rcases complete entry member relevant node listed with brought | known
      · exact insertMissing_node genuineNodes (genuine node brought) (Or.inr brought)
      · exact OrderedMap.insertMissing_of_getElem? nodes known
  · rcases (rows blockNum stored found).source with ⟨old, was, header, -⟩ |
      ⟨-, entry, member, rfl, header, -⟩
    · obtain ⟨known, reached⟩ := sound.genuine.headers blockNum old was
      exact ⟨header.trans known, reached⟩
    · obtain ⟨known, reached⟩ := own entry member
      exact ⟨header.trans known, reached⟩
  · rw [nodesEq] at found
    exact genuineNodes index value found

/-- Raising the flag of a block asks for the nodes that prove it. -/
theorem setBlockHeaderHasClientNotes_sound (sound : data.Sound chain syncHeight)
    (complete : (data.blockHeaders[blockNum]?).isSome = true →
      Chain.HasNodes data.partialBlockchainNodes (chain.proofNodes (syncHeight + 1) blockNum)) :
    (data.setBlockHeaderHasClientNotes blockNum true).Sound chain syncHeight := by
  refine ⟨⟨?_, fun other raised => ?_⟩, fun other stored found => ?_, sound.genuine.nodes⟩
  · obtain ⟨old, was, header, peaks⟩ := sound.provable.tip
    obtain ⟨new, row, kept⟩ := setBlockHeaderHasClientNotes_keepsRow data blockNum true was
    exact ⟨new, row, kept.header.trans header, kept.peaks.trans peaks⟩
  · obtain ⟨stored, row, raised⟩ := raised
    rw [setBlockHeaderHasClientNotes_getElem?] at row
    split at row
    · rename_i same
      subst same
      obtain ⟨old, was, -⟩ := Option.map_eq_some_iff.mp row
      exact complete (by rw [was]; rfl)
    · exact sound.provable.flagged other ⟨stored, row, raised⟩
  · rw [setBlockHeaderHasClientNotes_getElem?] at found
    split at found
    · obtain ⟨old, was, rfl⟩ := Option.map_eq_some_iff.mp found
      exact sound.genuine.headers other old was
    · exact sound.genuine.headers other stored found

/-! ### A fetched block -/

/-- A fetched header can be stored when the nodes that prove it are stored with it, or before. -/
theorem insertBlockHeader_sound (sound : data.Sound chain syncHeight)
    (reached : blockNum ≤ syncHeight) (peaks : List Word) (nodes : List MmrNode)
    (genuine : ∀ node ∈ nodes, chain.IsNode (syncHeight + 1) node)
    (complete : ∀ node ∈ chain.proofNodes (syncHeight + 1) blockNum,
      node ∈ nodes ∨ data.partialBlockchainNodes[node.1]? = some node.2) :
    (insertPartialBlockchainNodesTx
      (StoreKind.sqlite.insertBlockHeader data (chain.header blockNum) peaks true)
        nodes).Sound chain syncHeight := by
  refine sound.write [(chain.header blockNum, true, peaks)] ?_ genuine ?_
  · intro entry member
    rw [List.mem_singleton.mp member, chain.numbered]
    exact ⟨rfl, reached⟩
  · intro entry member _ node listed
    rw [List.mem_singleton.mp member, chain.numbered] at listed
    exact complete node listed

/-- A fetched block is stored with all that proves it, unless its nodes are refused after its header
was stored. -/
theorem getAndStoreAuthenticatedBlock_sound (library : ChainLibrary.Correct)
    (sound : data.Sound chain syncHeight) {writes : BlockWrites}
    {answer : BlockProofAnswer} (honest : HonestAnswer chain syncHeight blockNum answer)
    (reached : blockNum ≤ syncHeight)
    (complete : (∃ fetched, answer = .ok fetched) → writes.header = .ok () →
      writes.nodes ≠ .ok () → Chain.HasNodes data.partialBlockchainNodes
        (chain.proofNodes (syncHeight + 1) blockNum))
    {mmr : Mmr} {tracked : Set BlockNumber}
    (represents : chain.Represents mmr (syncHeight + 1) tracked) :
    (finalState (getAndStoreAuthenticatedBlock .sqlite writes answer blockNum mmr
      data)).Sound chain syncHeight := by
  unfold getAndStoreAuthenticatedBlock
  split
  · show (finalState (fromExcept (data.trackedHeader blockNum) data)).Sound chain syncHeight
    rwa [finalState_fromExcept]
  rw [fromExcept_bind]
  split
  swap
  · exact sound
  rename_i found fetched
  obtain ⟨header, pathNodes, moved⟩ := found
  obtain ⟨⟨fetchedHeader, merklePath⟩, answered, fetched⟩ := bind_eq_ok.mp fetched
  obtain ⟨adjusted, adjustedEq, fetched⟩ := bind_eq_ok.mp fetched
  have answered := eq_ok_of_mapError answered
  obtain ⟨own, more, larger, path⟩ := honest _ answered
  change fetchedHeader = _ at own
  change merklePath = _ at path
  subst own path
  have cut : adjustMerklePathForForest ((chain.path more blockNum).map Prod.snd) blockNum
      (syncHeight + 1) = .ok (chain.path (syncHeight + 1) blockNum) :=
    adjustMerklePathForForest_eq library (Nat.lt_succ_of_le reached) larger
  dsimp only at adjustedEq
  rw [represents.numLeaves, cut] at adjustedEq
  cases adjustedEq
  split at fetched
  swap
  · cases fetched
  cases fetched
  rw [fromExcept_bind]
  split
  swap
  · exact sound
  rename_i headed
  show (finalState ((fromExcept writes.nodes >>= fun _ => _ :
    EStateM ClientError ChainData BlockHeader) _)).Sound chain syncHeight
  rw [fromExcept_bind]
  split
  · have nodes := authenticatedBlockNodes_eq library chain (syncHeight + 1) blockNum
    refine insertBlockHeader_sound sound reached _ _ (fun node listed => ?_) fun node listed =>
      Or.inl ?_
    · rw [nodes] at listed
      exact isNode_of_mem_proofNodes (Nat.lt_succ_of_le reached) listed
    · rwa [nodes]
  · -- the header is stored without the nodes
    rename_i refused
    refine insertBlockHeader_sound sound reached _ []
      (fun _ absent => absurd absent List.not_mem_nil) fun node listed => Or.inr ?_
    exact complete ⟨_, answered⟩ headed (by rw [refused]; exact fun same => nomatch same) node
      listed

end ChainData

/-! ### Runs -/

namespace ClientStore

variable [NoteLibrary]

theorem applyInputNoteUpdate_syncHeight (store : ClientStore) (update : InputNoteUpdate) :
    (store.applyInputNoteUpdate update).syncHeight = store.syncHeight := by
  unfold applyInputNoteUpdate
  cases update.updateType <;> rfl

theorem applyOutputNoteUpdate_syncHeight (store : ClientStore) (update : OutputNoteUpdate) :
    (store.applyOutputNoteUpdate update).syncHeight = store.syncHeight := by
  unfold applyOutputNoteUpdate
  cases update.updateType <;> rfl

/-- A sync update moves the store to its block, unless that is behind. -/
theorem applyStateSync_syncHeight (store : ClientStore) (update : StateSyncUpdate) :
    (store.applyStateSync update).syncHeight = max store.syncHeight update.blockNum := by
  have recorded : ∀ base : ClientStore, ((settledRecords update.transactionUpdates).foldl
      upsertTransactionRecord base).syncHeight = base.syncHeight := by
    refine Run.foldl_view ClientStore.syncHeight ?_ _
    exact fun _ _ => rfl
  have untagged : ∀ base : ClientStore, ((tagsToRemove update.noteUpdates).foldl
      removeNoteTag base).syncHeight = base.syncHeight := by
    refine Run.foldl_view ClientStore.syncHeight ?_ _
    exact fun _ _ => rfl
  refine (recorded _).trans ((untagged _).trans ?_)
  unfold applyNoteUpdates
  rw [Run.foldl_view ClientStore.syncHeight applyOutputNoteUpdate_syncHeight,
    Run.foldl_view ClientStore.syncHeight applyInputNoteUpdate_syncHeight]

end ClientStore

/-- The operations of the client that touch the chain tables. -/
inductive ChainOperation (Delta : Type) where
  | ensureGenesisInPlace (genesis : BlockHeader)
  | syncState (environment : ChainSyncEnvironment Delta)
  | authenticateBlock (writes : ChainData.BlockWrites) (answer : ChainData.BlockProofAnswer)
      (blockNum : BlockNumber)
  | upsertInputNotes (notes : List InputNoteRecord)
  | pruneIrrelevantBlocks

namespace LocalStore

variable [NoteLibrary] [ChainLibrary] {Delta : Type} (Mmr : Type) [MmrLibrary Mmr Delta]

/-- The store after an operation, which may have failed after some of its writes. -/
def performChain (kind : StoreKind) (store : LocalStore) : ChainOperation Delta → LocalStore
  | .ensureGenesisInPlace genesis => store.ensureGenesisInPlace kind genesis
  | .syncState environment => finalState (syncState Mmr kind environment store)
  | .authenticateBlock writes answer blockNum =>
    finalState (authenticateBlock Mmr kind writes answer blockNum store)
  | .upsertInputNotes notes => store.upsertInputNotes kind notes
  | .pruneIrrelevantBlocks => store.pruneIrrelevantBlocks kind

/-- The node is honest. A note is stored with a proof only when the nodes that prove the block of
the proof are stored, or its header is not; and when the nodes of a fetched block are refused after
its header was stored, they are stored already. -/
def KeepsNodes (chain : Chain) (deltaOf : ℕ → ℕ → Delta) (store : LocalStore) :
    ChainOperation Delta → Prop
  | .ensureGenesisInPlace genesis => genesis = chain.header 0
  | .syncState environment => environment.node.Honest chain deltaOf store.client.syncHeight
  | .authenticateBlock writes answer blockNum => blockNum ≤ store.client.syncHeight ∧
    ChainData.HonestAnswer chain store.client.syncHeight blockNum answer ∧
    ((∃ fetched, answer = .ok fetched) → writes.header = .ok () → writes.nodes ≠ .ok () →
      Chain.HasNodes store.chain.partialBlockchainNodes
        (chain.proofNodes (store.client.syncHeight + 1) blockNum))
  | .upsertInputNotes notes => ∀ note ∈ notes, ∀ proof, note.state.inclusionProof = some proof →
    (store.chain.blockHeaders[proof.blockNum]?).isSome = true →
    Chain.HasNodes store.chain.partialBlockchainNodes
      (chain.proofNodes (store.client.syncHeight + 1) proof.blockNum)
  | .pruneIrrelevantBlocks => True

/-- The chain tables are sound for the block the store is synced to. -/
def ChainSound (chain : Chain) (store : LocalStore) : Prop :=
  store.chain.Sound chain store.client.syncHeight

/-- A new store, once it has the genesis header. -/
def genesisStore (kind : StoreKind) (genesis : BlockHeader) : LocalStore :=
  empty.ensureGenesisInPlace kind genesis

variable {Mmr} {chain : Chain} {deltaOf : ℕ → ℕ → Delta} {store : LocalStore}

omit [NoteLibrary] in
theorem genesisStore_sound : (genesisStore .sqlite (chain.header 0)).ChainSound chain := by
  have row : ∀ blockNum : BlockNumber,
      (genesisStore .sqlite (chain.header 0)).chain.blockHeaders[blockNum]? =
        if blockNum = 0 then some ⟨chain.header 0, [], false⟩ else none := by
    intro blockNum
    show (ChainData.empty.insertBlockHeaderTx (chain.header 0) [] false).blockHeaders[blockNum]? = _
    rw [ChainData.insertBlockHeaderTx_getElem?, chain.numbered]
    simp [ChainData.empty, eq_comm]
  refine ⟨⟨⟨_, (row 0).trans (if_pos rfl), rfl, rfl⟩, fun blockNum raised => ?_⟩,
    fun blockNum stored found => ?_, fun index value found => ?_⟩
  · obtain ⟨stored, found, flagged⟩ := raised
    rw [row] at found
    split at found <;> cases found
    cases flagged
  · rw [row] at found
    split at found <;> cases found
    rename_i same
    subst same
    exact ⟨rfl, le_rfl⟩
  · rw [show (genesisStore .sqlite (chain.header 0)).chain.partialBlockchainNodes = ∅ from rfl]
      at found
    simp at found

/-- The updates of a sync move the tables along. -/
theorem applyStateSync_sound (library : ChainLibrary.Correct)
    (correct : MmrLibrary.Correct Mmr chain deltaOf) (sound : store.ChainSound chain)
    {environment : ChainSyncEnvironment Delta}
    (honest : environment.node.Honest chain deltaOf store.client.syncHeight)
    {updates : StateSyncUpdate × BlockUpdates}
    (computed : store.syncUpdates Mmr environment = .ok updates) :
    (store.applyStateSync .sqlite updates).ChainSound chain := by
  obtain ⟨mmr, built, represents, nodes⟩ := ChainData.getCurrentPartialMmr_represents
    library correct sound.provable sound.genuine
  obtain ⟨loaded, loadedEq, computed⟩ := bind_eq_ok.mp computed
  obtain rfl : mmr = loaded := Except.ok.inj (built.symm.trans loadedEq)
  have height : (store.applyStateSync .sqlite updates).client.syncHeight =
      max store.client.syncHeight updates.1.blockNum :=
    store.client.applyStateSync_syncHeight updates.1
  unfold ChainSound
  rw [height]
  show (StoreKind.sqlite.applyBlockUpdates store.chain updates.2).Sound chain _
  split at computed
  · rename_i found last synced
    cases computed
    obtain ⟨blockNum, known, ⟨-, same⟩ | ⟨data, progress, fetched, applied, finished⟩⟩ :=
      StateSync.syncChain_eq_ok synced
    all_goals
      obtain rfl : blockNum = store.client.syncHeight := by
        unfold StateSync.currentBlockNum at known
        rw [represents.numLeaves, Nat.add_sub_cancel] at known
        split at known <;> cases known
        rfl
    · subst same
      rw [max_self]
      exact sound
    · obtain ⟨tip, different, delta, notes, -⟩ := StateSync.fetchSyncData_eq_some fetched
      obtain ⟨own, ahead⟩ := honest.tip _ tip
      have below := Nat.lt_of_le_of_ne ahead (Ne.symm different)
      obtain ⟨more, grows, advanced⟩ := StateSync.applyChainData_advanced correct own below
        (honest.delta _ _ _ delta) (honest.notes _ _ _ _ notes) represents nodes applied
      obtain ⟨moved, blocks⟩ := StateSync.finishSync_blockNum finished
      rw [moved, blocks, max_eq_right below.le]
      exact ChainData.applyBlockUpdates_sound sound below advanced fun _ raised => grows raised
  · cases computed

/-- A sync moves the tables along and then prunes them, or stops before either. -/
theorem syncState_sound (library : ChainLibrary.Correct)
    (correct : MmrLibrary.Correct Mmr chain deltaOf) (sound : store.ChainSound chain)
    {environment : ChainSyncEnvironment Delta}
    (honest : environment.node.Honest chain deltaOf store.client.syncHeight) :
    (finalState (syncState Mmr .sqlite environment store)).ChainSound chain := by
  show (finalState ((fromExcept (store.syncUpdates Mmr environment) >>= fun _ => _ :
    EStateM ClientError LocalStore Unit) store)).ChainSound chain
  rw [fromExcept_bind]
  split
  swap
  · exact sound
  rename_i updates computed
  rw [fromExcept_bind]
  split
  swap
  · exact sound
  have written := applyStateSync_sound library correct sound honest computed
  show (finalState ((fromExcept environment.pruned >>= fun _ => _ :
    EStateM ClientError LocalStore Unit) _)).ChainSound chain
  rw [fromExcept_bind]
  split
  · exact ChainData.pruneIrrelevantBlocks_sound written
  · exact written

omit [NoteLibrary] in
/-- Fetching a block on demand keeps the tables sound, unless its nodes are lost. -/
theorem authenticateBlock_sound (library : ChainLibrary.Correct)
    (correct : MmrLibrary.Correct Mmr chain deltaOf) (sound : store.ChainSound chain)
    {writes : ChainData.BlockWrites} {answer : ChainData.BlockProofAnswer}
    {blockNum : BlockNumber}
    (keeps : KeepsNodes chain deltaOf store (.authenticateBlock writes answer blockNum)) :
    (finalState (authenticateBlock Mmr .sqlite writes answer blockNum
      store)).ChainSound chain := by
  obtain ⟨mmr, built, represents, -⟩ := ChainData.getCurrentPartialMmr_represents
    library correct sound.provable sound.genuine
  obtain ⟨reached, honest, complete⟩ := keeps
  have stored := ChainData.getAndStoreAuthenticatedBlock_sound library sound honest reached
    complete represents
  show (finalState ((fromExcept (store.chain.getCurrentPartialMmr store.client.syncHeight) >>=
    fun mmr : Mmr => onChain (ChainData.getAndStoreAuthenticatedBlock .sqlite writes answer
      blockNum mmr)) store)).ChainSound chain
  rw [fromExcept_bind, built]
  show (finalState (onChain (ChainData.getAndStoreAuthenticatedBlock .sqlite writes answer
    blockNum mmr) store)).ChainSound chain
  unfold onChain
  split
  · rename_i outcome
    rw [outcome] at stored
    exact stored
  · rename_i outcome
    rw [outcome] at stored
    exact stored

/-- Storing notes raises the flags of blocks that can be proved. -/
theorem upsertInputNotes_sound (sound : store.ChainSound chain) {notes : List InputNoteRecord}
    (complete : ∀ note ∈ notes, ∀ proof, note.state.inclusionProof = some proof →
      (store.chain.blockHeaders[proof.blockNum]?).isSome = true →
      Chain.HasNodes store.chain.partialBlockchainNodes
        (chain.proofNodes (store.client.syncHeight + 1) proof.blockNum)) :
    (store.upsertInputNotes .sqlite notes).ChainSound chain := by
  induction notes generalizing store with
  | nil => exact sound
  | cons note rest inductionHypothesis =>
    unfold upsertInputNotes
    rw [List.foldl_cons]
    cases proved : note.state.inclusionProof with
    | none =>
      have same : (store.upsertInputNote .sqlite note).chain = store.chain := by
        show StoreKind.sqlite.flagNoteBlock store.chain note = store.chain
        unfold StoreKind.flagNoteBlock
        rw [proved]
      refine inductionHypothesis ?_ fun other member proof has present => ?_
      · show (store.upsertInputNote .sqlite note).chain.Sound chain store.client.syncHeight
        rw [same]
        exact sound
      · rw [same] at present ⊢
        exact complete other (List.mem_cons_of_mem note member) proof has present
    | some proof =>
      have raised : (store.upsertInputNote .sqlite note).chain =
          store.chain.setBlockHeaderHasClientNotes proof.blockNum true := by
        show StoreKind.sqlite.flagNoteBlock store.chain note = _
        unfold StoreKind.flagNoteBlock
        rw [proved]
      refine inductionHypothesis ?_ fun other member otherProof has present => ?_
      · show (store.upsertInputNote .sqlite note).chain.Sound chain store.client.syncHeight
        rw [raised]
        exact ChainData.setBlockHeaderHasClientNotes_sound sound
          (complete note List.mem_cons_self proof proved)
      · rw [raised] at present ⊢
        refine complete other (List.mem_cons_of_mem note member) otherProof has ?_
        rw [ChainData.setBlockHeaderHasClientNotes_getElem?] at present
        split at present
        · rwa [Option.isSome_map] at present
        · exact present

theorem performChain_sound (library : ChainLibrary.Correct)
    (correct : MmrLibrary.Correct Mmr chain deltaOf) (store : LocalStore)
    (operation : ChainOperation Delta) (sound : store.ChainSound chain)
    (keeps : KeepsNodes chain deltaOf store operation) :
    (store.performChain Mmr .sqlite operation).ChainSound chain := by
  cases operation with
  | ensureGenesisInPlace genesis =>
    obtain rfl : genesis = chain.header 0 := keeps
    show (ChainData.insertPartialBlockchainNodesTx ([(chain.header 0, false, [])].foldl
      StoreKind.sqlite.applyBlockHeader store.chain) []).Sound chain store.client.syncHeight
    refine ChainData.Sound.write sound [(chain.header 0, false, [])] (fun entry member => ?_)
      (fun _ absent => absurd absent List.not_mem_nil) fun entry member flagged => ?_
    · rw [List.mem_singleton.mp member, chain.numbered]
      exact ⟨rfl, Nat.zero_le _⟩
    · rw [List.mem_singleton.mp member] at flagged
      cases flagged
  | syncState environment => exact syncState_sound library correct sound keeps
  | authenticateBlock writes answer blockNum =>
    exact authenticateBlock_sound library correct sound keeps
  | upsertInputNotes notes => exact upsertInputNotes_sound sound keeps
  | pruneIrrelevantBlocks => exact ChainData.pruneIrrelevantBlocks_sound sound

/-- In every run against an honest node that stores notes with a proof only for blocks it can
prove, every state reached has the last block with the peaks before it and the nodes of all
flagged blocks, and the partial MMR can be built from it. -/
theorem run_chainProvable (library : ChainLibrary.Correct)
    (correct : MmrLibrary.Correct Mmr chain deltaOf) {operations : List (ChainOperation Delta)}
    (conforms : Run.Conforms (performChain Mmr .sqlite) (KeepsNodes chain deltaOf)
      (genesisStore .sqlite (chain.header 0)) operations)
    {reached : List (ChainOperation Delta)} (prefixed : reached <+: operations) :
    let store := reached.foldl (performChain Mmr .sqlite) (genesisStore .sqlite (chain.header 0))
    store.chain.Provable chain store.client.syncHeight ∧
      ∃ mmr : Mmr, store.chain.getCurrentPartialMmr store.client.syncHeight = .ok mmr ∧
        MmrLibrary.numLeaves mmr = store.client.syncHeight + 1 ∧
        MmrLibrary.peaks mmr = chain.peaks (store.client.syncHeight + 1) ∧
        ∀ blockNum, store.chain.IsFlagged blockNum → MmrLibrary.isTracked mmr blockNum = true := by
  intro store
  have sound : store.ChainSound chain := Run.prefix_invariant
    (fun store operation holds keeps =>
      performChain_sound library correct store operation holds keeps)
    genesisStore_sound conforms prefixed
  obtain ⟨mmr, built, represents, -⟩ := ChainData.getCurrentPartialMmr_represents
    library correct sound.provable sound.genuine
  exact ⟨sound.provable, mmr, built, represents.numLeaves, represents.peaks,
    fun blockNum raised => (represents.isTracked blockNum).mpr raised⟩

end LocalStore

/-! ### Sample runs -/

namespace Sample

open LocalStore

/-- A node with a chain up to the tip and nothing for the client. -/
def quietNode (tip : BlockNumber) : SyncNode (ℕ × ℕ) where
  chainTip := .ok (chain.header tip)
  syncChainMmr blockFrom blockTo := .ok (blockFrom + 1, blockTo)
  syncNotesWithDetails _ _ _ := .ok ([], ∅)
  syncTransactions _ _ _ := .ok []
  updatedPublicAccounts _ := .ok ()
  syncNullifiers _ _ _ := .ok []

theorem quietNode_honest {tip syncHeight : BlockNumber} (ahead : syncHeight ≤ tip) :
    (quietNode tip).Honest chain Prod.mk syncHeight where
  tip header answered := by
    cases answered
    exact ⟨rfl, ahead⟩
  delta _ _ _ answered := by
    cases answered
    rfl
  notes _ _ _ _ answered block listed := by
    cases answered
    exact absurd listed List.not_mem_nil

def syncTo (tip : BlockNumber) : ChainOperation (ℕ × ℕ) :=
  .syncState ⟨none, true, [], quietNode tip, fun _ => .ok false, .ok (), .ok ()⟩

/-- A public note in block 1. -/
def lateNote : Note :=
  ⟨⟨[], ⟨5, 1, 1⟩⟩, ⟨2, .isPublic, 9, 0⟩⟩

def lateProof : NoteInclusionProof :=
  ⟨1, 0, [7]⟩

/-- The note as it is imported from its details without a tag. -/
def expectedNote : InputNoteRecord :=
  ⟨lateNote.details, some 100, .expected ⟨none, 0, none⟩⟩

def unverifiedNote : InputNoteRecord :=
  ⟨lateNote.details, some 100, .unverified ⟨lateNote.metadata, lateProof⟩⟩

/-- A node that knows the note by its id. -/
def lateNoteNode : ImportNode where
  getNotesById _ := .ok [.isPublic lateNote lateProof]
  syncNullifiers _ _ := .ok []
  syncNotesWithDetails _ _ _ := .ok []
  getAuthenticatedBlock blockNum := .ok (chain.header blockNum)
  noteTagsLimit := .ok 1000
  currentTimestamp := some 100

def chainRun (operations : List (ChainOperation (ℕ × ℕ))) : LocalStore :=
  operations.foldl (performChain Mmr .sqlite) (genesisStore .sqlite (chain.header 0))

/-- The note is known without a tag when the client syncs to its block. -/
def knownNote : List (ChainOperation (ℕ × ℕ)) :=
  [.upsertInputNotes [expectedNote], syncTo 1]

/-- The import by id of the known note only stores it with its proof. That flags the last block
without the nodes for it. -/
theorem not_chainProvable_importedById :
    (finalState (importNotes lateNoteNode [.noteId lateNote.id]
        (chainRun knownNote).client)).inputNotes[lateNote.id]? = some unverifiedNote ∧
      ¬(chainRun (knownNote ++ [.upsertInputNotes [unverifiedNote]])).chain.Provable chain
        (chainRun (knownNote ++ [.upsertInputNotes [unverifiedNote]])).client.syncHeight := by
  refine ⟨by decide +kernel, fun provable => ?_⟩
  have raised : (chainRun (knownNote ++ [.upsertInputNotes [unverifiedNote]])).chain.IsFlagged 1 :=
    ⟨⟨chain.header 1, chain.peaks 1, true⟩, by decide +kernel, rfl⟩
  have missing : (chainRun (knownNote ++
      [.upsertInputNotes [unverifiedNote]])).chain.partialBlockchainNodes[1]? = none := by
    decide +kernel
  have stored := provable.flagged 1 raised (MountainRange.entry chain.merge chain.leaf 0 0)
    (by decide +kernel)
  exact absurd (missing.symm.trans stored) (by simp)

/-- The block is fetched before the note is stored. -/
def fetchedNote : List (ChainOperation (ℕ × ℕ)) :=
  [syncTo 1,
    .authenticateBlock ⟨.ok (), .ok ()⟩ (.ok (chain.header 1, (chain.path 2 1).map Prod.snd)) 1,
    .upsertInputNotes [unverifiedNote], syncTo 3]

/-- A later sync then finds all nodes. -/
theorem run_chainProvable_fetched :
    (chainRun fetchedNote).chain.Provable chain (chainRun fetchedNote).client.syncHeight := by
  have conforms : Run.Conforms (performChain Mmr .sqlite) (KeepsNodes chain Prod.mk)
      (genesisStore .sqlite (chain.header 0)) fetchedNote := by
    refine ⟨?_, ?_, ?_, ?_, trivial⟩
    · exact quietNode_honest (by decide)
    · refine ⟨by decide +kernel, fun fetched answered => ?_, fun _ _ refused => absurd rfl refused⟩
      cases answered
      exact ⟨rfl, 2, by decide +kernel, rfl⟩
    · intro note member proof proved _
      obtain rfl := List.mem_singleton.mp member
      cases proved
      have complete : ∀ node ∈ chain.proofNodes 2 1,
          (chainRun (fetchedNote.take 2)).chain.partialBlockchainNodes[node.1]? =
            some node.2 := by decide +kernel
      have height : (chainRun (fetchedNote.take 2)).client.syncHeight = 1 := by decide +kernel
      show Chain.HasNodes (chainRun (fetchedNote.take 2)).chain.partialBlockchainNodes
        (chain.proofNodes ((chainRun (fetchedNote.take 2)).client.syncHeight + 1) 1)
      rw [height]
      exact complete
    · exact quietNode_honest (by decide +kernel)
  exact (run_chainProvable chainLibrary_correct mmrLibrary_correct conforms List.prefix_rfl).1

end Sample

end MidenClient
