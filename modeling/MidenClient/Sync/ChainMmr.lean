/-
This file says what the client relies on when it uses the MMR library: its operations keep a
partial MMR of the chain, with the peaks of the chain so far and the nodes that prove the
tracked blocks.

The sample at the end knows the whole chain, and takes only what fits it.
-/

import MidenClient.Library.MountainRange
import MidenClient.Sync.ChainSync

namespace MidenClient

open Std (ExtTreeMap)
open MountainRange

/-- The headers of the chain. The MMR of the chain has their commitments as leaves. -/
structure Chain where
  header : BlockNumber → BlockHeader
  numbered : ∀ blockNum, (header blockNum).blockNum = blockNum
  merge : Word → Word → Word

namespace Chain

variable [ChainLibrary] (chain : Chain)

def leaf (blockNum : BlockNumber) : Word :=
  ChainLibrary.headerCommitment (chain.header blockNum)

/-- The peaks of the MMR with this many leaves. -/
def peaks (count : ℕ) : List Word :=
  MountainRange.peaks chain.merge chain.leaf count

/-- The path of a block in the MMR with this many leaves. -/
def path (count : ℕ) (blockNum : BlockNumber) : List MmrNode :=
  MountainRange.path chain.merge chain.leaf count blockNum

/-- A block and its path, as the store keeps them. -/
def proofNodes (count : ℕ) (blockNum : BlockNumber) : List MmrNode :=
  MountainRange.proofNodes chain.merge chain.leaf count blockNum

def IsNode (count : ℕ) (node : MmrNode) : Prop :=
  MountainRange.IsNode chain.merge chain.leaf count node

/-- All of the nodes are there. -/
def HasNodes (nodes : ExtTreeMap ℕ Word) (needed : List MmrNode) : Prop :=
  ∀ node ∈ needed, nodes[node.1]? = some node.2

/-- The partial MMR of the first blocks of the chain, with some blocks tracked. -/
structure Represents {Mmr Delta : Type} [MmrLibrary Mmr Delta] (mmr : Mmr) (count : ℕ)
    (tracked : Set BlockNumber) : Prop where
  numLeaves : MmrLibrary.numLeaves mmr = count
  peaks : MmrLibrary.peaks mmr = chain.peaks count
  isTracked : ∀ blockNum, MmrLibrary.isTracked mmr blockNum = true ↔ blockNum ∈ tracked
  present : ∀ blockNum ∈ tracked, blockNum < count
  nodes : ∀ blockNum ∈ tracked,
    HasNodes (MmrLibrary.nodes mmr) (chain.proofNodes count blockNum)
  genuine : ∀ (index : ℕ) (value : Word), (MmrLibrary.nodes mmr)[index]? = some value →
    chain.IsNode count (index, value)

end Chain

/-- Every node of the MMR after an operation was there before, or is among those returned. -/
def Reported {Mmr Delta : Type} [MmrLibrary Mmr Delta] (before after : Mmr)
    (returned : List MmrNode) : Prop :=
  ∀ (index : ℕ) (value : Word), (MmrLibrary.nodes after)[index]? = some value →
    (MmrLibrary.nodes before)[index]? = some value ∨ (index, value) ∈ returned

/-- The forest functions and in-order indices of the library. -/
structure ChainLibrary.Correct [ChainLibrary] : Prop where
  tree : ∀ {count position : ℕ}, position < count →
    leafToCorrespondingTree count position = some (treeHeight count position)
  rightmost : ∀ {count level position : ℕ}, Inside count level position →
    inOrderIndex level position ≤ rightmostInOrderIndex count
  leaf : ∀ position : ℕ, fromLeafPos position = inOrderIndex 0 position
  sibling : ∀ level position : ℕ, ChainLibrary.sibling (inOrderIndex level position) =
    inOrderIndex level (MountainRange.sibling position)
  parent : ∀ level position : ℕ, ChainLibrary.parent (inOrderIndex level position) =
    inOrderIndex (level + 1) (position / 2)

/-- The operations of the library keep a partial MMR of the chain. -/
structure MmrLibrary.Correct (Mmr : Type) {Delta : Type} [ChainLibrary] [MmrLibrary Mmr Delta]
    (chain : Chain) (deltaOf : ℕ → ℕ → Delta) : Prop where
  fromPeaks : ∀ count : ℕ, ∃ mmr : Mmr, fromPeaks count (chain.peaks count) = .ok mmr ∧
    chain.Represents mmr count ∅
  fromParts : ∀ (count : ℕ) (nodes : ExtTreeMap ℕ Word) (tracked : Finset ℕ),
    (∀ blockNum ∈ tracked, blockNum < count ∧
      Chain.HasNodes nodes (chain.proofNodes count blockNum)) →
    (∀ (index : ℕ) (value : Word), nodes[index]? = some value →
      chain.IsNode count (index, value)) →
    ∃ mmr : Mmr, fromParts count (chain.peaks count) nodes tracked = .ok mmr ∧
      chain.Represents mmr count tracked ∧
        ∀ (index : ℕ) (value : Word), (MmrLibrary.nodes mmr)[index]? = some value →
          nodes[index]? = some value
  apply : ∀ {mmr : Mmr} {count target : ℕ} {tracked : Set ℕ},
    chain.Represents mmr count tracked → count ≤ target →
    ∃ nodes next, apply (deltaOf count target) mmr = .ok nodes next ∧
      chain.Represents next target tracked ∧ Reported mmr next nodes ∧
        ∀ node ∈ nodes, chain.IsNode target node
  add : ∀ {mmr : Mmr} {count : ℕ} {tracked : Set ℕ} (track : Bool),
    chain.Represents mmr count tracked →
    chain.Represents (add (chain.leaf count) track mmr).2 (count + 1)
        (if track then insert count tracked else tracked) ∧
      Reported mmr (add (chain.leaf count) track mmr).2 (add (chain.leaf count) track mmr).1 ∧
        ∀ node ∈ (add (chain.leaf count) track mmr).1, chain.IsNode (count + 1) node
  track : ∀ {mmr : Mmr} {count : ℕ} {tracked : Set ℕ} {blockNum : ℕ},
    chain.Represents mmr count tracked → blockNum < count → blockNum ∉ tracked →
    ∃ next, track blockNum (chain.leaf blockNum) ((chain.path count blockNum).map Prod.snd) mmr =
      .ok () next ∧ chain.Represents next count (insert blockNum tracked)

/-! ### A sample -/

namespace Sample

/-- Commitments pair up block number and note root. -/
scoped instance chainLibrary : ChainLibrary where
  headerCommitment header := Nat.pair header.blockNum header.noteRoot
  leafToCorrespondingTree count position :=
    if position < count then some (treeHeight count position) else none
  hasSingleLeafTree count := count % 2 = 1
  rightmostInOrderIndex count := 2 * count - 1
  fromLeafPos position := inOrderIndex 0 position
  sibling index :=
    inOrderIndex (locate index index).1 (MountainRange.sibling (locate index index).2)
  parent index := inOrderIndex ((locate index index).1 + 1) ((locate index index).2 / 2)

theorem chainLibrary_correct : ChainLibrary.Correct where
  tree present := if_pos present
  rightmost {count level position} inside := by
    have isNode : IsNode Nat.pair id count (entry Nat.pair id level position) :=
      ⟨level, position, inside, rfl⟩
    exact isNode.index_le
  leaf _ := rfl
  sibling level position := by
    show inOrderIndex _ _ = _
    rw [locate_inOrderIndex position (level_le_inOrderIndex level position)]
  parent level position := by
    show inOrderIndex _ _ = _
    rw [locate_inOrderIndex position (level_le_inOrderIndex level position)]

/-- Every block has the same note root. -/
def chain : Chain where
  header blockNum := ⟨blockNum, 7, 0⟩
  numbered _ := rfl
  merge := Nat.pair

/-- A partial MMR of the sample chain. -/
structure Mmr where
  count : ℕ
  tracked : Finset ℕ
  nodes : ExtTreeMap ℕ Word

namespace Mmr

/-- What proves the tracked blocks among the first ones. -/
def needed (count : ℕ) (tracked : Finset ℕ) : List MmrNode :=
  ((List.range count).filter (· ∈ tracked)).flatMap (chain.proofNodes count)

/-- The MMR with another number of leaves and other tracked blocks. -/
def grow (mmr : Mmr) (count : ℕ) (tracked : Finset ℕ) : Mmr :=
  ⟨count, tracked, OrderedMap.insertAll mmr.nodes (needed count tracked)⟩

end Mmr

/-- A delta names the numbers of leaves before and after. -/
scoped instance mmrLibrary : MmrLibrary Mmr (ℕ × ℕ) where
  numLeaves := Mmr.count
  peaks mmr := chain.peaks mmr.count
  nodes := Mmr.nodes
  isTracked mmr blockNum := blockNum ∈ mmr.tracked
  fromPeaks count peaks :=
    if peaks = chain.peaks count then .ok ⟨count, ∅, ∅⟩ else .error "invalid peaks"
  fromParts count peaks nodes tracked :=
    if peaks = chain.peaks count ∧ ∀ blockNum ∈ tracked, blockNum < count ∧
        ∀ node ∈ chain.proofNodes count blockNum, nodes[node.1]? = some node.2 then
      .ok ⟨count, tracked, nodes⟩
    else .error "inconsistent partial MMR"
  apply delta mmr :=
    if mmr.count = delta.1 ∧ delta.1 ≤ delta.2 then
      .ok (Mmr.needed delta.2 mmr.tracked) (mmr.grow delta.2 mmr.tracked)
    else .error "invalid update" mmr
  add _ track mmr :=
    let tracked := if track then insert mmr.count mmr.tracked else mmr.tracked
    (Mmr.needed (mmr.count + 1) tracked, mmr.grow (mmr.count + 1) tracked)
  track blockNum leaf path mmr :=
    if blockNum < mmr.count ∧ leaf = chain.leaf blockNum ∧
        path = (chain.path mmr.count blockNum).map Prod.snd then
      .ok () (mmr.grow mmr.count (insert blockNum mmr.tracked))
    else .error "invalid path" mmr

namespace Mmr

theorem mem_needed_iff {count : ℕ} {tracked : Finset ℕ} {node : MmrNode} :
    node ∈ needed count tracked ↔
      ∃ blockNum ∈ tracked, blockNum < count ∧ node ∈ chain.proofNodes count blockNum := by
  unfold needed
  simp only [List.mem_flatMap, List.mem_filter, List.mem_range, decide_eq_true_eq]
  constructor
  · rintro ⟨blockNum, ⟨present, member⟩, listed⟩
    exact ⟨blockNum, member, present, listed⟩
  · rintro ⟨blockNum, member, present, listed⟩
    exact ⟨blockNum, ⟨present, member⟩, listed⟩

theorem isNode_of_mem_needed {count : ℕ} {tracked : Finset ℕ} {node : MmrNode}
    (member : node ∈ needed count tracked) : chain.IsNode count node := by
  obtain ⟨blockNum, _, present, listed⟩ := mem_needed_iff.mp member
  exact isNode_of_mem_proofNodes present listed

theorem grow_reported (mmr : Mmr) (count : ℕ) (tracked : Finset ℕ) :
    Reported mmr (mmr.grow count tracked) (needed count tracked) :=
  fun _ _ found => OrderedMap.insertAll_eq_some found

theorem grow_represents {mmr : Mmr} {count target : ℕ} {before : Set ℕ}
    (represents : chain.Represents mmr count before) (grows : count ≤ target)
    {tracked : Finset ℕ} (present : ∀ blockNum ∈ tracked, blockNum < target) :
    chain.Represents (mmr.grow target tracked) target tracked where
  numLeaves := rfl
  peaks := rfl
  isTracked _ := decide_eq_true_iff
  present := present
  nodes blockNum member node listed :=
    OrderedMap.insertAll_of_mem
      (fun _ left _ right same => (isNode_of_mem_needed left).eq_of_index
        (isNode_of_mem_needed right) same)
      (mem_needed_iff.mpr ⟨blockNum, member, present blockNum member, listed⟩)
  genuine index value found := by
    rcases OrderedMap.insertAll_eq_some found with old | listed
    · exact (represents.genuine index value old).mono grows
    · exact isNode_of_mem_needed listed

/-- The tracked blocks of an MMR that represents the chain. -/
theorem tracked_eq {mmr : Mmr} {count : ℕ} {tracked : Set ℕ}
    (represents : chain.Represents mmr count tracked) : (mmr.tracked : Set ℕ) = tracked :=
  Set.ext fun blockNum => Iff.trans decide_eq_true_iff.symm (represents.isTracked blockNum)

end Mmr

theorem mmrLibrary_correct : MmrLibrary.Correct Mmr chain Prod.mk where
  fromPeaks count := by
    refine ⟨⟨count, ∅, ∅⟩, if_pos rfl, rfl, rfl, fun _ => ?_, fun _ absent => absent.elim,
      fun _ absent => absent.elim, fun index value found => ?_⟩
    · show decide _ = true ↔ _
      simp
    · rw [show MmrLibrary.nodes (⟨count, ∅, ∅⟩ : Mmr) = ∅ from rfl] at found
      simp at found
  fromParts count nodes tracked complete genuine :=
    ⟨⟨count, tracked, nodes⟩, if_pos ⟨rfl, complete⟩,
      ⟨rfl, rfl, fun _ => decide_eq_true_iff, fun blockNum member => (complete blockNum member).1,
        fun blockNum member => (complete blockNum member).2, genuine⟩, fun _ _ found => found⟩
  apply {mmr count target tracked} represents grows := by
    refine ⟨_, _, if_pos ⟨represents.numLeaves, grows⟩, ?_, mmr.grow_reported _ _,
      fun _ listed => Mmr.isNode_of_mem_needed listed⟩
    obtain rfl := Mmr.tracked_eq represents
    exact Mmr.grow_represents represents grows fun blockNum member =>
      Nat.lt_of_lt_of_le (represents.present blockNum member) grows
  add {mmr count tracked} track represents := by
    obtain rfl := Mmr.tracked_eq represents
    obtain rfl : mmr.count = count := represents.numLeaves
    refine ⟨?_, mmr.grow_reported _ _, fun _ listed => Mmr.isNode_of_mem_needed listed⟩
    have moved : chain.Represents
        (mmr.grow (mmr.count + 1) (if track then insert mmr.count mmr.tracked else mmr.tracked))
        (mmr.count + 1)
        (↑(if track then insert mmr.count mmr.tracked else mmr.tracked) : Set ℕ) :=
      Mmr.grow_represents represents (Nat.le_succ mmr.count) ?_
    · cases track
      · exact moved
      · simp only [if_true, Finset.coe_insert] at moved
        exact moved
    · intro blockNum member
      split at member
      · rcases Finset.mem_insert.mp member with rfl | old
        · exact Nat.lt_succ_self _
        · exact Nat.lt_succ_of_lt (represents.present blockNum old)
      · exact Nat.lt_succ_of_lt (represents.present blockNum member)
  track {mmr count tracked blockNum} represents present _ := by
    obtain rfl := Mmr.tracked_eq represents
    obtain rfl : mmr.count = count := represents.numLeaves
    refine ⟨_, if_pos ⟨present, rfl, rfl⟩, ?_⟩
    rw [← Finset.coe_insert]
    refine Mmr.grow_represents represents le_rfl fun other member => ?_
    rcases Finset.mem_insert.mp member with rfl | old
    · exact present
    · exact represents.present other old

end Sample

end MidenClient
