/-
This file follows the two places where the client makes authentication paths of blocks: the
path of a node with a larger forest, which is cut down to the forest of the client
(`adjust_merkle_path_for_forest` in `rust-client/src/sync/block_header.rs`), and the paths that are
put together from stored nodes (`get_authentication_path_for_blocks` in
`rust-client/src/store/data_store.rs`).

The second one asks the store for the nodes of all blocks at once, and then walks up from each
block for as long as it finds a sibling. It ends at the peak, because the sibling of a peak reaches
over the end of the forest, and no block of the forest has such a node on its path.
-/

import MidenClient.Store.ChainData
import MidenClient.Sync.ChainMmr

namespace MidenClient

open Std (ExtTreeMap)
open Fallible MountainRange

namespace ChainData

variable [ChainLibrary]

/-! ### The path of a larger forest -/

/-- The path of the node, as long as the path in the MMR of the client, is numbered as it is. -/
theorem indexPath_eq (library : ChainLibrary.Correct) (merge : Word → Word → Word)
    (leaf : ℕ → Word) (position : ℕ) (length level : ℕ) :
    indexPath (inOrderIndex level (position / 2 ^ level))
        ((List.range' level length).map fun other =>
          node merge leaf other (MountainRange.sibling (position / 2 ^ other))) =
      (List.range' level length).map fun other =>
        entry merge leaf other (MountainRange.sibling (position / 2 ^ other)) := by
  induction length generalizing level with
  | zero => rfl
  | succ length inductionHypothesis =>
    rw [List.range'_succ, List.map_cons, List.map_cons, indexPath, library.sibling,
      library.parent, Nat.div_div_eq_div_mul, ← pow_succ, inductionHypothesis]
    rfl

variable {merge : Word → Word → Word} {leaf : ℕ → Word} {blockNum count more : ℕ}

/-- The path of a larger forest is cut down to the path in the forest of the client. -/
theorem adjustMerklePathForForest_eq (library : ChainLibrary.Correct) (present : blockNum < count)
    (grows : count ≤ more) :
    adjustMerklePathForForest ((path merge leaf more blockNum).map Prod.snd) blockNum count =
      .ok (path merge leaf count blockNum) := by
  unfold adjustMerklePathForForest
  rw [library.tree present]
  dsimp only
  rw [← List.map_take, path_take present grows, library.leaf]
  refine congrArg Except.ok ?_
  have numbered := indexPath_eq library merge leaf blockNum (treeHeight count blockNum) 0
  rw [pow_zero, Nat.div_one, ← List.range_eq_range'] at numbered
  unfold path
  rw [List.map_map]
  exact numbered

/-- The node answers with the header of the block and its path in some forest that has at least
the leaves of the client. -/
def HonestAnswer (chain : Chain) (syncHeight blockNum : BlockNumber) (answer : BlockProofAnswer) :
    Prop :=
  ∀ fetched, answer = .ok fetched → fetched.1 = chain.header blockNum ∧
    ∃ more, syncHeight < more ∧ fetched.2 = (chain.path more blockNum).map Prod.snd

/-- A block and its path are stored under their indices. -/
theorem authenticatedBlockNodes_eq (library : ChainLibrary.Correct) (chain : Chain)
    (count : ℕ) (blockNum : BlockNumber) :
    authenticatedBlockNodes (chain.header blockNum) (chain.path count blockNum) =
      chain.proofNodes count blockNum := by
  unfold authenticatedBlockNodes
  rw [chain.numbered, library.leaf]
  rfl

/-- The cut path is the path of the block in the smaller forest. It recomputes the peak over the
block, and carries the indices of its nodes. A fetched block can therefore be tracked. -/
theorem adjustMerklePathForForest_exact (library : ChainLibrary.Correct) :
    (∀ (merge : Word → Word → Word) (leaf : ℕ → Word) (blockNum count more : ℕ), blockNum < count →
      count ≤ more → ∃ pathNodes,
        adjustMerklePathForForest ((path merge leaf more blockNum).map Prod.snd) blockNum count =
            .ok pathNodes ∧
          pathNodes = path merge leaf count blockNum ∧
          rootOf merge blockNum (leaf blockNum) (pathNodes.map Prod.snd) =
            node merge leaf (treeHeight count blockNum)
              (blockNum / 2 ^ treeHeight count blockNum) ∧
          rootOf merge blockNum (leaf blockNum) (pathNodes.map Prod.snd) ∈
            peaks merge leaf count ∧
          ∀ pathNode ∈ pathNodes, IsNode merge leaf count pathNode) ∧
      ∀ (Mmr Delta : Type) (_ : MmrLibrary Mmr Delta) (chain : Chain) (deltaOf : ℕ → ℕ → Delta),
        MmrLibrary.Correct Mmr chain deltaOf →
          ∀ (mmr : Mmr) (syncHeight : BlockNumber) (tracked : Set BlockNumber)
            (blockNum : BlockNumber) (header : BlockHeader) (merklePath : List Word),
            chain.Represents mmr (syncHeight + 1) tracked → blockNum ≤ syncHeight →
              blockNum ∉ tracked →
                HonestAnswer chain syncHeight blockNum (.ok (header, merklePath)) →
                ∃ next, fetchBlockHeader (.ok (header, merklePath)) blockNum mmr =
                    .ok (chain.header blockNum, chain.path (syncHeight + 1) blockNum, next) ∧
                  chain.Represents next (syncHeight + 1) (insert blockNum tracked) ∧
                  authenticatedBlockNodes (chain.header blockNum)
                      (chain.path (syncHeight + 1) blockNum) =
                    chain.proofNodes (syncHeight + 1) blockNum := by
  refine ⟨fun merge leaf blockNum count more present grows => ?_, ?_⟩
  · refine ⟨_, adjustMerklePathForForest_eq library present grows, rfl, rootOf_path count blockNum,
      ?_, fun _ listed => isNode_of_mem_path present listed⟩
    rw [rootOf_path]
    exact peak_mem_peaks present
  · intro Mmr Delta _ chain deltaOf correct mmr syncHeight tracked blockNum header merklePath
      represents reached untracked honest
    obtain ⟨own, more, larger, path⟩ := honest _ rfl
    dsimp only at own path
    subst own path
    obtain ⟨next, done, after⟩ := correct.track represents (Nat.lt_succ_of_le reached) untracked
    have adjusted : adjustMerklePathForForest ((chain.path more blockNum).map Prod.snd) blockNum
        (syncHeight + 1) = .ok (chain.path (syncHeight + 1) blockNum) :=
      adjustMerklePathForForest_eq library (Nat.lt_succ_of_le reached) larger
    refine ⟨next, ?_, after, authenticatedBlockNodes_eq library chain (syncHeight + 1) blockNum⟩
    refine bind_eq_ok.mpr ⟨_, rfl, bind_eq_ok.mpr ⟨chain.path (syncHeight + 1) blockNum, ?_, ?_⟩⟩
    · rw [represents.numLeaves]
      exact adjusted
    · rw [show ChainLibrary.headerCommitment (chain.header blockNum) = chain.leaf blockNum from rfl,
        done]
      rfl

/-! ### Paths from stored nodes -/

/-- The length of the path of a leaf. The logarithm panics for a leaf that is not in the forest. -/
def mmrMerklePathLen (leafIndex forest : ℕ) : Option ℕ :=
  let before := forest &&& leafIndex
  let after := forest ^^^ before
  if after = 0 then none else some after.log2

/-- The indices of the siblings on the way up from a node. -/
def siblingIndices : ℕ → ℕ → List ℕ
  | 0, _ => []
  | depth + 1, index =>
    ChainLibrary.sibling index :: siblingIndices depth (ChainLibrary.parent index)

/-- The indices that the paths of the blocks need. -/
def neededIndices (blockNums : List BlockNumber) (forest : ℕ) : Option (Finset ℕ) :=
  blockNums.foldlM (fun nodeIndices blockNum =>
    (mmrMerklePathLen blockNum forest).map fun pathDepth =>
      nodeIndices ∪ (siblingIndices pathDepth (ChainLibrary.fromLeafPos blockNum)).toFinset) ∅

/-- `PartialBlockchainFilter::List`. -/
def partialBlockchainNodesOfList (chain : ChainData) (nodeIndices : Finset ℕ) :
    ExtTreeMap ℕ Word :=
  chain.partialBlockchainNodes.filter fun index _ => index ∈ nodeIndices

/-- Walks up from a node for as long as there is a sibling. Without a result the walk is not over
within its steps. -/
def siblingsUpwards (mmrNodes : ExtTreeMap ℕ Word) : ℕ → ℕ → Option (List Word)
  | 0, _ => none
  | steps + 1, index =>
    match mmrNodes[ChainLibrary.sibling index]? with
    | none => some []
    | some node =>
      (siblingsUpwards mmrNodes steps (ChainLibrary.parent index)).map fun rest => node :: rest

/-- Retrieves all nodes required for authenticating the set of blocks, and then constructs the path
for each of them. -/
def getAuthenticationPathForBlocks (steps : ℕ) (chain : ChainData) (blockNums : List BlockNumber)
    (forest : ℕ) : Option (List (List Word)) := do
  let nodeIndices ← neededIndices blockNums forest
  let mmrNodes := chain.partialBlockchainNodesOfList nodeIndices
  blockNums.mapM fun blockNum =>
    siblingsUpwards mmrNodes steps (ChainLibrary.fromLeafPos blockNum)

omit [ChainLibrary] in
/-- The length is the height of the tree of the leaf. -/
theorem mmrMerklePathLen_eq {leafIndex forest : ℕ} (present : leafIndex < forest) :
    mmrMerklePathLen leafIndex forest = some (treeHeight forest leafIndex) := by
  suffices height : forest ^^^ (forest &&& leafIndex) ≠ 0 ∧
      (forest ^^^ (forest &&& leafIndex)).log2 = treeHeight forest leafIndex by
    unfold mmrMerklePathLen
    dsimp only
    rw [if_neg height.1, height.2]
  induction forest using Nat.strong_induction_on generalizing leafIndex with
  | _ forest inductionHypothesis =>
    have halves : (forest ^^^ (forest &&& leafIndex)) / 2 =
        forest / 2 ^^^ (forest / 2 &&& leafIndex / 2) := by
      rw [Nat.xor_div_two, Nat.and_div_two]
    rw [treeHeight_eq]
    split
    · rename_i same
      have odd : (forest ^^^ (forest &&& leafIndex)).testBit 0 = true := by
        rw [Nat.testBit_xor, Nat.testBit_and, Nat.testBit_zero, Nat.testBit_zero,
          show forest % 2 = 1 by omega, show leafIndex % 2 = 0 by omega]
        rfl
      rw [Nat.testBit_zero, decide_eq_true_eq] at odd
      rw [same, Nat.and_self, Nat.xor_self] at halves
      rw [show forest ^^^ (forest &&& leafIndex) = 1 by omega]
      exact ⟨one_ne_zero, rfl⟩
    · rename_i differ
      obtain ⟨positive, height⟩ := @inductionHypothesis (forest / 2) (by omega) (leafIndex / 2)
        (by omega)
      rw [← halves] at positive height
      rw [Nat.log2_def, if_pos (by omega), height]
      exact ⟨by omega, rfl⟩

omit [ChainLibrary] in
/-- The length is defined for every leaf, and is the depth of the tree that the leaf gets into when
all leaves are split into perfect trees. -/
theorem mmrMerklePathLen_eq_depthOfLeaf {leafIndex forest : ℕ} (present : leafIndex < forest) :
    ((treeDepths forest).map (2 ^ ·)).sum = forest ∧
      ∃ depth, mmrMerklePathLen leafIndex forest = some depth ∧
        depthOfLeaf (treeDepths forest) leafIndex = some depth :=
  ⟨sum_treeDepths forest, treeHeight forest leafIndex, mmrMerklePathLen_eq present,
    depthOfLeaf_treeDepths present⟩

omit [ChainLibrary] in
/-- The fifth of seven leaves is in the second tree. -/
theorem mmrMerklePathLen_eq_depthOfLeaf_seven :
    treeDepths 7 = [2, 1, 0] ∧ ((treeDepths 7).map (2 ^ ·)).sum = 7 ∧
      ∃ depth, mmrMerklePathLen 4 7 = some depth ∧
        depthOfLeaf (treeDepths 7) 4 = some depth :=
  ⟨by decide, mmrMerklePathLen_eq_depthOfLeaf (by decide)⟩

theorem mem_siblingIndices_iff (library : ChainLibrary.Correct) (position depth level : ℕ)
    (index : ℕ) : index ∈ siblingIndices depth (inOrderIndex level (position / 2 ^ level)) ↔
      ∃ other, level ≤ other ∧ other < level + depth ∧
        index = inOrderIndex other (MountainRange.sibling (position / 2 ^ other)) := by
  induction depth generalizing level with
  | zero =>
    constructor
    · intro absent
      cases absent
    · rintro ⟨other, above, below, -⟩
      exact absurd below (not_lt.mpr above)
  | succ depth inductionHypothesis =>
    rw [siblingIndices, List.mem_cons, library.sibling, library.parent, Nat.div_div_eq_div_mul,
      ← pow_succ, inductionHypothesis]
    constructor
    · rintro (rfl | ⟨other, above, below, rfl⟩)
      · exact ⟨level, le_rfl, by omega, rfl⟩
      · exact ⟨other, by omega, by omega, rfl⟩
    · rintro ⟨other, above, below, rfl⟩
      rcases Nat.eq_or_lt_of_le above with rfl | later
      · exact Or.inl rfl
      · exact Or.inr ⟨other, later, by omega, rfl⟩

/-- Exactly the siblings on the paths of the blocks are asked for. -/
theorem neededIndices_eq (library : ChainLibrary.Correct) {blockNums : List BlockNumber}
    {forest : ℕ} (present : ∀ blockNum ∈ blockNums, blockNum < forest) :
    ∃ nodeIndices, neededIndices blockNums forest = some nodeIndices ∧
      ∀ index, index ∈ nodeIndices ↔ ∃ blockNum ∈ blockNums, ∃ level,
        level < treeHeight forest blockNum ∧
          index = inOrderIndex level (MountainRange.sibling (blockNum / 2 ^ level)) := by
  have general : ∀ start : Finset ℕ, ∃ nodeIndices, blockNums.foldlM (fun nodeIndices blockNum =>
      (mmrMerklePathLen blockNum forest).map fun pathDepth =>
        nodeIndices ∪ (siblingIndices pathDepth (ChainLibrary.fromLeafPos blockNum)).toFinset)
          start = some nodeIndices ∧
      ∀ index, index ∈ nodeIndices ↔ index ∈ start ∨ ∃ blockNum ∈ blockNums, ∃ level,
        level < treeHeight forest blockNum ∧
          index = inOrderIndex level (MountainRange.sibling (blockNum / 2 ^ level)) := by
    induction blockNums with
    | nil => exact fun start => ⟨start, rfl, fun index => by simp⟩
    | cons blockNum rest inductionHypothesis =>
      intro start
      obtain ⟨nodeIndices, found, members⟩ := inductionHypothesis
        (fun other listed => present other (List.mem_cons_of_mem blockNum listed))
        (start ∪ (siblingIndices (treeHeight forest blockNum)
          (ChainLibrary.fromLeafPos blockNum)).toFinset)
      refine ⟨nodeIndices, ?_, fun index => ?_⟩
      · rw [List.foldlM_cons, mmrMerklePathLen_eq (present blockNum List.mem_cons_self)]
        exact found
      · have own := mem_siblingIndices_iff library blockNum (treeHeight forest blockNum) 0 index
        rw [pow_zero, Nat.div_one, Nat.zero_add, ← library.leaf] at own
        rw [members, Finset.mem_union, List.mem_toFinset, own, or_assoc]
        simp only [List.mem_cons, exists_eq_or_imp, Nat.zero_le, true_and]
  obtain ⟨nodeIndices, found, members⟩ := general ∅
  refine ⟨nodeIndices, found, fun index => (members index).trans ?_⟩
  rw [or_iff_right (Finset.notMem_empty index)]

/-- A walk through nodes that hold a path, and nothing at its end, gives the path. -/
theorem siblingsUpwards_eq (library : ChainLibrary.Correct) {mmrNodes : ExtTreeMap ℕ Word}
    {position height : ℕ}
    (held : ∀ level, level < height →
      mmrNodes[inOrderIndex level (MountainRange.sibling (position / 2 ^ level))]? =
        some (node merge leaf level (MountainRange.sibling (position / 2 ^ level))))
    (ended : mmrNodes[inOrderIndex height (MountainRange.sibling (position / 2 ^ height))]? = none)
    {steps level : ℕ} (enough : height < level + steps) (below : level ≤ height) :
    siblingsUpwards mmrNodes steps (inOrderIndex level (position / 2 ^ level)) =
      some ((List.range' level (height - level)).map fun other =>
        node merge leaf other (MountainRange.sibling (position / 2 ^ other))) := by
  induction steps generalizing level with
  | zero => exact absurd enough (not_lt.mpr below)
  | succ steps inductionHypothesis =>
    rw [siblingsUpwards, library.sibling]
    rcases Nat.eq_or_lt_of_le below with rfl | before
    · rw [ended, Nat.sub_self]
      rfl
    · rw [held level before, library.parent, Nat.div_div_eq_div_mul, ← pow_succ]
      dsimp only
      rw [inductionHypothesis (by omega) before, Option.map_some,
        show height - level = height - (level + 1) + 1 by omega, List.range'_succ]
      rfl

omit [ChainLibrary] in
theorem treeHeight_le_log2 {position : ℕ} (present : position < count) :
    treeHeight count position ≤ count.log2 := by
  rw [Nat.le_log2 (Nat.ne_of_gt (Nat.zero_lt_of_lt present))]
  exact Nat.ge_two_pow_of_testBit (peak_of_leaf present).1

omit [ChainLibrary] in
theorem mapM_eq_some_map {α β : Type} {convert : α → Option β} {result : α → β} {items : List α}
    (converts : ∀ item ∈ items, convert item = some (result item)) :
    items.mapM convert = some (items.map result) := by
  induction items with
  | nil => rfl
  | cons item rest inductionHypothesis =>
    rw [List.mapM_cons, converts item List.mem_cons_self,
      inductionHypothesis fun other listed => converts other (List.mem_cons_of_mem item listed)]
    rfl

/-- For every block the path in the forest is returned, whatever else is stored. -/
theorem getAuthenticationPathForBlocks_exact (library : ChainLibrary.Correct)
    (merge : Word → Word → Word) (leaf : ℕ → Word) {chain : ChainData}
    {blockNums : List BlockNumber} {forest : ℕ}
    (present : ∀ blockNum ∈ blockNums, blockNum < forest)
    (stored : ∀ blockNum ∈ blockNums,
      Chain.HasNodes chain.partialBlockchainNodes (path merge leaf forest blockNum))
    {steps : ℕ} (enough : forest.log2 < steps) :
    getAuthenticationPathForBlocks steps chain blockNums forest =
      some (blockNums.map fun blockNum => (path merge leaf forest blockNum).map Prod.snd) := by
  obtain ⟨nodeIndices, found, members⟩ := neededIndices_eq library present
  unfold getAuthenticationPathForBlocks
  rw [found, Option.bind_eq_bind, Option.bind_some]
  refine mapM_eq_some_map fun blockNum listed => ?_
  have lookup (index : ℕ) : (chain.partialBlockchainNodesOfList nodeIndices)[index]? =
      if index ∈ nodeIndices then chain.partialBlockchainNodes[index]? else none := by
    unfold partialBlockchainNodesOfList
    rw [OrderedMap.getElem?_filter_key]
    simp only [decide_eq_true_eq]
  have height := treeHeight_le_log2 (present blockNum listed)
  have held : ∀ level, level < treeHeight forest blockNum →
      (chain.partialBlockchainNodesOfList nodeIndices)[
        inOrderIndex level (MountainRange.sibling (blockNum / 2 ^ level))]? =
          some (node merge leaf level (MountainRange.sibling (blockNum / 2 ^ level))) := by
    intro level below
    rw [lookup, if_pos ((members _).mpr ⟨blockNum, listed, level, below, rfl⟩)]
    exact stored blockNum listed _ (List.mem_map.mpr ⟨level, List.mem_range.mpr below, rfl⟩)
  have ended : (chain.partialBlockchainNodesOfList nodeIndices)[
      inOrderIndex (treeHeight forest blockNum)
        (MountainRange.sibling (blockNum / 2 ^ treeHeight forest blockNum))]? = none := by
    rw [lookup, if_neg]
    intro needed
    obtain ⟨other, otherListed, level, below, same⟩ := (members _).mp needed
    obtain ⟨rfl, place⟩ := inOrderIndex_injective same
    -- a node on the path of a block is inside the forest, and the sibling of a peak is not
    have inside := inside_sibling (present other otherListed) below
    rw [← place] at inside
    exact not_inside_sibling_peak (present blockNum listed) inside
  have walk : siblingsUpwards _ steps (inOrderIndex 0 (blockNum / 2 ^ 0)) = _ :=
    siblingsUpwards_eq library held ended (by omega) (Nat.zero_le _)
  rw [pow_zero, Nat.div_one, Nat.sub_zero, ← List.range_eq_range', ← library.leaf] at walk
  rw [walk]
  unfold path
  rw [List.map_map]
  rfl

/-! ### The partial MMR of a transaction -/

section Mmr

variable {Mmr Delta : Type} [MmrLibrary Mmr Delta]

/-- Tracks a block with its path. -/
def trackWithPath (mmr : Mmr) (block : BlockHeader × List Word) : Except ClientError Mmr :=
  match MmrLibrary.track block.1.blockNum (ChainLibrary.headerCommitment block.1) block.2 mmr with
  | .ok () tracked => .ok tracked
  | .error message _ => .error (.mmrError message)

/-- Builds the MMR of a forest that authenticates some blocks. The forest is given by the number of
the block whose row has its peaks. -/
def buildPartialMmrWithPaths (steps : ℕ) (chain : ChainData) (forest : BlockNumber)
    (authenticatedBlocks : List BlockHeader) : Except ClientError Mmr := do
  let currentPeaks := chain.partialBlockchainPeaksByBlockNum forest
  let mmr : Mmr ← mmrResult (MmrLibrary.fromPeaks currentPeaks.1 currentPeaks.2)
  match chain.getAuthenticationPathForBlocks steps (authenticatedBlocks.map BlockHeader.blockNum)
      (MmrLibrary.numLeaves mmr) with
  | none => throw (.aborted "argument of integer logarithm must be positive")
  | some authenticationPaths =>
    (authenticatedBlocks.zip authenticationPaths).foldlM trackWithPath mmr

variable {chain : Chain} {deltaOf : ℕ → ℕ → Delta} {forest : ℕ}

/-- Blocks are tracked one after the other. -/
theorem foldlM_trackWithPath (correct : MmrLibrary.Correct Mmr chain deltaOf)
    {blockNums : List BlockNumber} (distinct : blockNums.Nodup)
    (present : ∀ blockNum ∈ blockNums, blockNum < forest) {mmr : Mmr} {tracked : Set BlockNumber}
    (represents : chain.Represents mmr forest tracked)
    (untracked : ∀ blockNum ∈ blockNums, blockNum ∉ tracked) :
    ∃ next, (blockNums.map fun blockNum =>
        (chain.header blockNum, (chain.path forest blockNum).map Prod.snd)).foldlM trackWithPath
          mmr = .ok next ∧
      chain.Represents next forest (tracked ∪ {blockNum | blockNum ∈ blockNums}) := by
  induction blockNums generalizing mmr tracked with
  | nil =>
    refine ⟨mmr, rfl, ?_⟩
    rw [show {blockNum | blockNum ∈ ([] : List BlockNumber)} = ∅ from
      Set.eq_empty_of_forall_notMem fun _ => List.not_mem_nil, Set.union_empty]
    exact represents
  | cons blockNum rest inductionHypothesis =>
    obtain ⟨first, distinct⟩ := List.nodup_cons.mp distinct
    obtain ⟨middle, done, after⟩ := correct.track represents (present blockNum List.mem_cons_self)
      (untracked blockNum List.mem_cons_self)
    obtain ⟨next, finished, final⟩ := inductionHypothesis distinct
      (fun other listed => present other (List.mem_cons_of_mem blockNum listed)) after
      (fun other listed => by
        rintro (rfl | already)
        · exact first listed
        · exact untracked other (List.mem_cons_of_mem blockNum listed) already)
    refine ⟨next, ?_, ?_⟩
    · rw [List.map_cons, List.foldlM_cons]
      refine bind_eq_ok.mpr ⟨middle, ?_, finished⟩
      unfold trackWithPath
      dsimp only
      rw [chain.numbered, show ChainLibrary.headerCommitment (chain.header blockNum) =
        chain.leaf blockNum from rfl, done]
    · have same : {other | other ∈ blockNum :: rest} = insert blockNum {other | other ∈ rest} :=
        Set.ext fun _ => List.mem_cons
      rw [Set.insert_union, ← Set.union_insert] at final
      rw [same]
      exact final

/-- The partial MMR of a transaction authenticates its blocks. -/
theorem buildPartialMmrWithPaths_represents (library : ChainLibrary.Correct)
    (correct : MmrLibrary.Correct Mmr chain deltaOf) {data : ChainData} {current : StoredHeader}
    (found : data.blockHeaders[forest]? = some current)
    (currentPeaks : current.partialBlockchainPeaks = chain.peaks forest)
    {blockNums : List BlockNumber} (distinct : blockNums.Nodup)
    (present : ∀ blockNum ∈ blockNums, blockNum < forest)
    (stored : ∀ blockNum ∈ blockNums,
      Chain.HasNodes data.partialBlockchainNodes (chain.path forest blockNum))
    {steps : ℕ} (enough : forest.log2 < steps) :
    ∃ mmr : Mmr, buildPartialMmrWithPaths steps data forest (blockNums.map chain.header) = .ok mmr ∧
      chain.Represents mmr forest {blockNum | blockNum ∈ blockNums} := by
  obtain ⟨start, built, represents⟩ := correct.fromPeaks forest
  obtain ⟨next, tracked, final⟩ := foldlM_trackWithPath correct distinct present represents
    fun _ _ => Set.notMem_empty _
  rw [Set.empty_union] at final
  refine ⟨next, ?_, final⟩
  have numbers : (blockNums.map chain.header).map BlockHeader.blockNum = blockNums := by
    rw [List.map_map]
    exact (List.map_congr_left fun blockNum _ => chain.numbered blockNum).trans (List.map_id _)
  have paths := getAuthenticationPathForBlocks_exact library chain.merge chain.leaf present stored
    enough
  unfold buildPartialMmrWithPaths partialBlockchainPeaksByBlockNum
  rw [found]
  dsimp only
  rw [currentPeaks, built]
  refine bind_eq_ok.mpr ⟨start, rfl, ?_⟩
  rw [represents.numLeaves, numbers, paths]
  dsimp only
  rw [List.zip_map']
  exact tracked

end Mmr

end ChainData

/-! ### A forest with a longer path in the store -/

namespace Sample

open ChainData

/-- The path of block 0 in the forest with three blocks, and the sibling of block 2 in larger
forests. -/
def storedNodes : ChainData :=
  ⟨∅, ExtTreeMap.ofList [entry Nat.pair id 0 1, entry Nat.pair id 0 3]⟩

/-- The path of block 2 is empty, although a sibling is stored. -/
theorem getAuthenticationPathForBlocks_stored :
    getAuthenticationPathForBlocks 2 storedNodes [2, 0] 3 = some [[], [1]] :=
  getAuthenticationPathForBlocks_exact chainLibrary_correct Nat.pair id (by decide)
    (show ∀ blockNum ∈ [2, 0], Chain.HasNodes storedNodes.partialBlockchainNodes
      (path Nat.pair id 3 blockNum) by
        intro blockNum listed
        rcases List.mem_pair.mp listed with rfl | rfl
        · exact fun _ absent => (nomatch absent)
        · intro node listed
          obtain rfl := List.mem_singleton.mp listed
          rfl) (by decide)

/-- The path of block 1 has two nodes in the forest with four blocks, and one with three. -/
theorem adjustMerklePathForForest_shorter :
    ∃ pathNodes, adjustMerklePathForForest ((path Nat.pair id 4 1).map Prod.snd) 1 3 =
        .ok pathNodes ∧ pathNodes = path Nat.pair id 3 1 ∧
      rootOf Nat.pair 1 1 (pathNodes.map Prod.snd) ∈ peaks Nat.pair id 3 := by
  obtain ⟨pathNodes, adjusted, same, -, peak, -⟩ :=
    (adjustMerklePathForForest_exact chainLibrary_correct).1 Nat.pair id 1 3 4 (by decide)
      (by decide)
  exact ⟨pathNodes, adjusted, same, peak⟩

end Sample

end MidenClient
