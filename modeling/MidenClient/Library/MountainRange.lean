/-
This file describes a Merkle mountain range: a list of leaves under the perfect trees whose
sizes are the powers of two in the number of leaves, from the largest to the smallest.

A node stands on a level and at a position of that level, whatever the number of leaves, and
is numbered by the in-order index of the pair. More leaves therefore change no node. They
only add nodes, and make the authentication path of a leaf longer.
-/

import Mathlib

namespace MountainRange

universe u

variable {Digest : Type u} (merge : Digest → Digest → Digest) (leaf : ℕ → Digest)

/-! ### Nodes and indices -/

/-- The node at a position of a level. It covers the leaves from `position * 2 ^ level` on. -/
def node : ℕ → ℕ → Digest
  | 0, position => leaf position
  | level + 1, position => merge (node level (2 * position)) (node level (2 * position + 1))

/-- The in-order index of a node; the leaves have the odd indices. -/
def inOrderIndex (level position : ℕ) : ℕ :=
  2 ^ level * (2 * position + 1)

/-- The position of the other child of the parent. -/
def sibling (position : ℕ) : ℕ :=
  if position % 2 = 0 then position + 1 else position - 1

/-- A node with its index. -/
def entry (level position : ℕ) : ℕ × Digest :=
  (inOrderIndex level position, node merge leaf level position)

/-- The level of the peak above a leaf. -/
def treeHeight (count position : ℕ) : ℕ :=
  Nat.log2 (count ^^^ position)

/-- The peaks, from the largest tree to the smallest. -/
def peaks (count : ℕ) : List Digest :=
  ((List.range count.size).reverse.filter count.testBit).map fun level =>
    node merge leaf level (count / 2 ^ level - 1)

/-- The nodes that authenticate a leaf, from the bottom up. -/
def path (count position : ℕ) : List (ℕ × Digest) :=
  (List.range (treeHeight count position)).map fun level =>
    entry merge leaf level (sibling (position / 2 ^ level))

/-- All leaves below the node are among the first `count` ones. -/
def Inside (count level position : ℕ) : Prop :=
  (position + 1) * 2 ^ level ≤ count

/-- The indexed digest is a node of the range with `count` leaves. -/
def IsNode (count : ℕ) (found : ℕ × Digest) : Prop :=
  ∃ level position, Inside count level position ∧ found = entry merge leaf level position

/-- What proves a leaf: its own entry and the nodes of its path. -/
def proofNodes (count position : ℕ) : List (ℕ × Digest) :=
  entry merge leaf 0 position :: path merge leaf count position

/-! ### An index determines its node -/

theorem inOrderIndex_injective {level position other place : ℕ}
    (same : inOrderIndex level position = inOrderIndex other place) :
    level = other ∧ position = place := by
  unfold inOrderIndex at same
  induction level generalizing other with
  | zero =>
    cases other with
    | zero => omega
    | succ other =>
      rw [pow_succ', mul_assoc] at same
      omega
  | succ level inductionHypothesis =>
    cases other with
    | zero =>
      rw [pow_succ', mul_assoc] at same
      omega
    | succ other =>
      rw [pow_succ', pow_succ', mul_assoc, mul_assoc] at same
      obtain ⟨levels, positions⟩ := inductionHypothesis (Nat.eq_of_mul_eq_mul_left (by omega) same)
      exact ⟨congrArg _ levels, positions⟩

/-- The level and the position of an index, found by halving it; the fuel bounds the level. -/
def locate : ℕ → ℕ → ℕ × ℕ
  | 0, index => (0, index / 2)
  | fuel + 1, index =>
    if index % 2 = 1 then (0, index / 2)
    else ((locate fuel (index / 2)).1 + 1, (locate fuel (index / 2)).2)

theorem locate_inOrderIndex {fuel level : ℕ} (position : ℕ) (enough : level ≤ fuel) :
    locate fuel (inOrderIndex level position) = (level, position) := by
  induction level generalizing fuel with
  | zero =>
    unfold inOrderIndex
    cases fuel with
    | zero => exact Prod.ext rfl (by show _ / 2 = _; omega)
    | succ fuel =>
      rw [locate, if_pos (by omega)]
      exact Prod.ext rfl (by show _ / 2 = _; omega)
  | succ level inductionHypothesis =>
    cases fuel with
    | zero => exact absurd enough (Nat.not_succ_le_zero level)
    | succ fuel =>
      have double : inOrderIndex (level + 1) position = 2 * inOrderIndex level position := by
        unfold inOrderIndex
        rw [pow_succ', mul_assoc]
      have half : inOrderIndex (level + 1) position / 2 = inOrderIndex level position := by omega
      rw [locate, if_neg (by omega), half, inductionHypothesis (Nat.le_of_succ_le_succ enough)]

theorem level_le_inOrderIndex (level position : ℕ) : level ≤ inOrderIndex level position :=
  le_trans Nat.lt_two_pow_self.le (Nat.le_mul_of_pos_right _ (Nat.succ_pos _))

variable {merge leaf}

theorem IsNode.eq_of_index {count other : ℕ} {first second : ℕ × Digest}
    (left : IsNode merge leaf count first) (right : IsNode merge leaf other second)
    (same : first.1 = second.1) : first = second := by
  obtain ⟨level, position, _, rfl⟩ := left
  obtain ⟨otherLevel, place, _, rfl⟩ := right
  obtain ⟨levels, positions⟩ := inOrderIndex_injective same
  rw [levels, positions]

/-- Nodes stay nodes when leaves are added. -/
theorem IsNode.mono {count more : ℕ} (grows : count ≤ more) {found : ℕ × Digest}
    (holds : IsNode merge leaf count found) : IsNode merge leaf more found := by
  obtain ⟨level, position, inside, same⟩ := holds
  exact ⟨level, position, le_trans inside grows, same⟩

/-- The nodes of a range are numbered up to the index of its last leaf. -/
theorem IsNode.index_le {count : ℕ} {found : ℕ × Digest} (holds : IsNode merge leaf count found) :
    found.1 ≤ 2 * count - 1 := by
  obtain ⟨level, position, inside, rfl⟩ := holds
  have positive : 0 < 2 ^ level := Nat.two_pow_pos level
  have bound : inOrderIndex level position + 2 ^ level = 2 * ((position + 1) * 2 ^ level) := by
    unfold inOrderIndex
    ring
  have twice := Nat.mul_le_mul_left 2 inside
  show inOrderIndex level position ≤ _
  omega

theorem isNode_leaf {count position : ℕ} (present : position < count) :
    IsNode merge leaf count (entry merge leaf 0 position) :=
  ⟨0, position, by unfold Inside; omega, rfl⟩

/-! ### Paths -/

/-- The height of the tree of a leaf, one level down. -/
theorem treeHeight_eq (count position : ℕ) :
    treeHeight count position =
      if count / 2 = position / 2 then 0 else treeHeight (count / 2) (position / 2) + 1 := by
  unfold treeHeight
  have halves : (count ^^^ position) / 2 = count / 2 ^^^ position / 2 := Nat.xor_div_two
  rw [Nat.log2_def]
  by_cases same : count / 2 = position / 2
  · rw [if_pos same, if_neg]
    rw [same, Nat.xor_self] at halves
    omega
  · rw [if_neg same, if_pos, halves]
    have differ : count / 2 ^^^ position / 2 ≠ 0 := fun zero => same (Nat.xor_eq_zero_iff.mp zero)
    omega

/-- The siblings on the way to the peak are inside the range. -/
theorem inside_sibling {count position level : ℕ} (present : position < count)
    (below : level < treeHeight count position) :
    Inside count level (sibling (position / 2 ^ level)) := by
  induction level generalizing count position with
  | zero =>
    rw [treeHeight_eq] at below
    unfold Inside sibling
    split at below <;> split <;> omega
  | succ level inductionHypothesis =>
    rw [treeHeight_eq] at below
    split at below
    · omega
    · rename_i differ
      have inside : Inside (count / 2) level (sibling (position / 2 / 2 ^ level)) :=
        inductionHypothesis (by omega) (by omega)
      unfold Inside at inside ⊢
      rw [Nat.div_div_eq_div_mul, ← pow_succ'] at inside
      have doubled : (sibling (position / 2 ^ (level + 1)) + 1) * 2 ^ (level + 1) =
          (sibling (position / 2 ^ (level + 1)) + 1) * 2 ^ level * 2 := by
        rw [pow_succ, mul_assoc]
      omega

/-- A leaf's tree only grows when leaves are added. -/
theorem treeHeight_mono {count more position : ℕ} (present : position < count)
    (grows : count ≤ more) : treeHeight count position ≤ treeHeight more position := by
  induction count using Nat.strong_induction_on generalizing more position with
  | _ count inductionHypothesis =>
    rw [treeHeight_eq count, treeHeight_eq more]
    split
    · exact Nat.zero_le _
    · rename_i differ
      rw [if_neg (by omega)]
      have half : treeHeight (count / 2) (position / 2) ≤ treeHeight (more / 2) (position / 2) :=
        inductionHypothesis (count / 2) (by omega) (by omega) (by omega)
      exact Nat.add_le_add_right half 1

theorem isNode_of_mem_path {count position : ℕ} (present : position < count)
    {found : ℕ × Digest} (member : found ∈ path merge leaf count position) :
    IsNode merge leaf count found := by
  obtain ⟨level, below, rfl⟩ := List.mem_map.mp member
  exact ⟨level, _, inside_sibling present (List.mem_range.mp below), rfl⟩

theorem isNode_of_mem_proofNodes {count position : ℕ} (present : position < count)
    {found : ℕ × Digest} (member : found ∈ proofNodes merge leaf count position) :
    IsNode merge leaf count found := by
  rcases List.mem_cons.mp member with rfl | onPath
  · exact isNode_leaf present
  · exact isNode_of_mem_path present onPath

/-- The path in a smaller range is the lower part of the path in a larger one. -/
theorem path_take {count more position : ℕ} (present : position < count) (grows : count ≤ more) :
    (path merge leaf more position).take (treeHeight count position) =
      path merge leaf count position := by
  unfold path
  rw [← List.map_take, List.take_range, Nat.min_eq_left (treeHeight_mono present grows)]

/-! ### Peaks -/

/-- The root that a leaf and the nodes of its path give. -/
def rootOf (merge : Digest → Digest → Digest) : ℕ → Digest → List Digest → Digest
  | _, value, [] => value
  | position, value, other :: rest =>
    rootOf merge (position / 2)
      (if position % 2 = 0 then merge value other else merge other value) rest

/-- Nodes of a path lead from one level to another. -/
theorem rootOf_siblings (position level length : ℕ) :
    rootOf merge (position / 2 ^ level) (node merge leaf level (position / 2 ^ level))
        ((List.range' level length).map fun other =>
          node merge leaf other (sibling (position / 2 ^ other))) =
      node merge leaf (level + length) (position / 2 ^ (level + length)) := by
  induction length generalizing level with
  | zero => rfl
  | succ length inductionHypothesis =>
    have above := inductionHypothesis (level + 1)
    rw [Nat.add_right_comm, Nat.add_assoc] at above
    rw [List.range'_succ, List.map_cons, rootOf, ← above, Nat.div_div_eq_div_mul, ← pow_succ]
    refine congrArg (rootOf merge _ · _) ?_
    rw [pow_succ, ← Nat.div_div_eq_div_mul]
    generalize position / 2 ^ level = place
    show _ = merge (node merge leaf level (2 * (place / 2)))
      (node merge leaf level (2 * (place / 2) + 1))
    unfold sibling
    split
    · rw [show 2 * (place / 2) = place by omega]
    · rw [show 2 * (place / 2) = place - 1 by omega, show place - 1 + 1 = place by omega]

/-- The tree of a leaf is one of the trees of the range. -/
theorem peak_of_leaf {count position : ℕ} (present : position < count) :
    count.testBit (treeHeight count position) = true ∧
      count / 2 ^ treeHeight count position = position / 2 ^ treeHeight count position + 1 := by
  induction count using Nat.strong_induction_on generalizing position with
  | _ count inductionHypothesis =>
    rw [treeHeight_eq]
    split
    · rename_i same
      rw [Nat.testBit_zero, pow_zero, Nat.div_one, Nat.div_one, decide_eq_true_eq]
      omega
    · rename_i differ
      obtain ⟨bit, peak⟩ := @inductionHypothesis (count / 2) (by omega) (position / 2) (by omega)
      rw [Nat.testBit_succ, pow_succ', ← Nat.div_div_eq_div_mul, ← Nat.div_div_eq_div_mul]
      exact ⟨bit, peak⟩

/-- The path of a leaf recomputes the root of its tree. -/
theorem rootOf_path (count position : ℕ) :
    rootOf merge position (leaf position) ((path merge leaf count position).map Prod.snd) =
      node merge leaf (treeHeight count position) (position / 2 ^ treeHeight count position) := by
  have root := @rootOf_siblings Digest merge leaf position 0 (treeHeight count position)
  rw [pow_zero, Nat.div_one, Nat.zero_add, ← List.range_eq_range'] at root
  unfold path
  rw [List.map_map]
  exact root

/-- The root of the tree of a leaf is a peak. -/
theorem peak_mem_peaks {count position : ℕ} (present : position < count) :
    node merge leaf (treeHeight count position) (position / 2 ^ treeHeight count position) ∈
      peaks merge leaf count := by
  obtain ⟨bit, peak⟩ := peak_of_leaf present
  refine List.mem_map.mpr ⟨treeHeight count position, List.mem_filter.mpr ⟨?_, bit⟩, ?_⟩
  · rw [List.mem_reverse, List.mem_range, Nat.lt_size]
    exact Nat.ge_two_pow_of_testBit bit
  · rw [peak, Nat.add_sub_cancel]

/-- The sibling of a peak reaches over the end of the range. -/
theorem not_inside_sibling_peak {count position : ℕ} (present : position < count) :
    ¬Inside count (treeHeight count position)
      (sibling (position / 2 ^ treeHeight count position)) := by
  obtain ⟨bit, peak⟩ := peak_of_leaf present
  rw [Nat.testBit_eq_decide_div_mod_eq, decide_eq_true_eq, peak] at bit
  have even : position / 2 ^ treeHeight count position % 2 = 0 := by omega
  unfold Inside sibling
  rw [if_pos even, ← peak, not_le, Nat.add_comm, ← Nat.div_lt_iff_lt_mul (Nat.two_pow_pos _)]
  omega

/-! ### Splitting the leaves into trees -/

/-- The depths of the trees, from the largest to the smallest: the places of the ones among the
binary digits. -/
def treeDepths (count : ℕ) : List ℕ :=
  (List.range count.size).reverse.filter count.testBit

/-- The depth of the tree that a leaf gets into, when trees of some depths take leaves one after the
other. -/
def depthOfLeaf : List ℕ → ℕ → Option ℕ
  | [], _ => none
  | depth :: rest, position =>
    if position < 2 ^ depth then some depth else depthOfLeaf rest (position - 2 ^ depth)

theorem testBit_of_lt_two_pow {rest level index : ℕ} (below : rest < 2 ^ level)
    (beyond : level ≤ index) : rest.testBit index = false :=
  Nat.testBit_lt_two_pow (below.trans_le (Nat.pow_le_pow_right Nat.two_pos beyond))

/-- The first tree takes as many leaves as its power of two, and the others share the rest. -/
theorem treeDepths_two_pow_add {level rest : ℕ} (below : rest < 2 ^ level) :
    treeDepths (2 ^ level + rest) = level :: treeDepths rest := by
  have size : (2 ^ level + rest).size = level + 1 := by
    refine le_antisymm (Nat.size_le.mpr ?_) (Nat.lt_size.mpr (Nat.le_add_right _ _))
    rw [pow_succ]
    omega
  have digit : (2 ^ level + rest).testBit level = true := by
    rw [Nat.testBit_two_pow_add_eq, testBit_of_lt_two_pow below le_rfl]
    rfl
  have others : (List.range level).reverse.filter (2 ^ level + rest).testBit =
      (List.range level).reverse.filter rest.testBit := by
    refine List.filter_congr fun index listed => ?_
    exact Nat.testBit_two_pow_add_gt (List.mem_range.mp (List.mem_reverse.mp listed)) rest
  have sizeRest : rest.size ≤ level := Nat.size_le.mpr below
  have noneAbove : (List.range level).reverse.filter rest.testBit = treeDepths rest := by
    obtain ⟨gap, rfl⟩ := Nat.exists_eq_add_of_le sizeRest
    unfold treeDepths
    rw [List.range_add, List.reverse_append, List.filter_append]
    have zeros : ((List.range gap).map (rest.size + ·)).reverse.filter rest.testBit = [] := by
      refine List.filter_eq_nil_iff.mpr fun index listed => ?_
      obtain ⟨above, -, rfl⟩ := List.mem_map.mp (List.mem_reverse.mp listed)
      rw [testBit_of_lt_two_pow (Nat.lt_size_self rest) (Nat.le_add_right _ _)]
      exact Bool.false_ne_true
    rw [zeros, List.nil_append]
  unfold treeDepths at noneAbove ⊢
  rw [size, List.range_succ, List.reverse_concat, List.filter_cons, if_pos digit, others, noneAbove]

/-- All leaves get into trees. -/
theorem sum_treeDepths (count : ℕ) : ((treeDepths count).map (2 ^ ·)).sum = count := by
  induction count using Nat.strong_induction_on with
  | _ count inductionHypothesis =>
    by_cases empty : count = 0
    · subst empty
      rfl
    · obtain ⟨rest, split⟩ := Nat.exists_eq_add_of_le (Nat.log2_self_le empty)
      have upper := (Nat.log2_lt empty).mp (Nat.lt_succ_self _)
      have positive := Nat.two_pow_pos count.log2
      rw [pow_succ] at upper
      have others := inductionHypothesis rest (by omega)
      rw [split, treeDepths_two_pow_add (by omega), List.map_cons, List.sum_cons, others]

/-- The leaves of the first tree differ from the count in its digit. -/
theorem treeHeight_of_lt {level rest position : ℕ} (below : rest < 2 ^ level)
    (present : position < 2 ^ level) : treeHeight (2 ^ level + rest) position = level := by
  have digit : ((2 ^ level + rest) ^^^ position).testBit level = true := by
    rw [Nat.testBit_xor, Nat.testBit_two_pow_add_eq, testBit_of_lt_two_pow below le_rfl,
      testBit_of_lt_two_pow present le_rfl]
    rfl
  have large := Nat.ge_two_pow_of_testBit digit
  have positive := Nat.two_pow_pos level
  refine (Nat.log2_eq_iff (by omega)).mpr ⟨large, Nat.xor_lt_two_pow ?_ ?_⟩
  · rw [pow_succ]
    omega
  · rw [pow_succ]
    omega

/-- The first tree does not matter for the leaves behind it. -/
theorem treeHeight_two_pow_add {level rest position : ℕ} (below : rest < 2 ^ level)
    (present : position < rest) :
    treeHeight (2 ^ level + rest) (2 ^ level + position) = treeHeight rest position := by
  have same : (2 ^ level + rest) ^^^ (2 ^ level + position) = rest ^^^ position := by
    refine Nat.eq_of_testBit_eq fun index => ?_
    rw [Nat.testBit_xor, Nat.testBit_xor]
    rcases lt_trichotomy index level with under | rfl | above
    · rw [Nat.testBit_two_pow_add_gt under, Nat.testBit_two_pow_add_gt under]
    · rw [Nat.testBit_two_pow_add_eq, Nat.testBit_two_pow_add_eq]
      exact Bool.not_bne_not ..
    · have small : ∀ place, place < 2 ^ level → 2 ^ level + place < 2 ^ (level + 1) := by
        intro place fits
        rw [pow_succ]
        omega
      have inside := present.trans below
      rw [testBit_of_lt_two_pow (small rest below) above,
        testBit_of_lt_two_pow (small position inside) above,
        testBit_of_lt_two_pow below above.le, testBit_of_lt_two_pow inside above.le]
  unfold treeHeight
  rw [same]

/-- Dealing out the leaves to the trees gives every leaf a tree of its height. -/
theorem depthOfLeaf_treeDepths {count position : ℕ} (present : position < count) :
    depthOfLeaf (treeDepths count) position = some (treeHeight count position) := by
  induction count using Nat.strong_induction_on generalizing position with
  | _ count inductionHypothesis =>
    have filled : count ≠ 0 := by omega
    obtain ⟨rest, split⟩ := Nat.exists_eq_add_of_le (Nat.log2_self_le filled)
    have upper := (Nat.log2_lt filled).mp (Nat.lt_succ_self _)
    have positive := Nat.two_pow_pos count.log2
    rw [pow_succ] at upper
    generalize count.log2 = level at split upper positive
    subst split
    rw [treeDepths_two_pow_add (by omega), depthOfLeaf]
    by_cases first : position < 2 ^ level
    · rw [if_pos first, treeHeight_of_lt (by omega) first]
    · obtain ⟨place, rfl⟩ := Nat.exists_eq_add_of_le (not_lt.mp first)
      rw [if_neg first, Nat.add_sub_cancel_left, treeHeight_two_pow_add (by omega) (by omega)]
      exact inductionHypothesis rest (by omega) (by omega)

end MountainRange
