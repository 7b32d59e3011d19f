/-
This file follows the forest of account trees through every sequence of its calls
(`rust-client/src/store/smt_forest.rs`).

A call decrements the counts of whole root lists, one root after the other. Since the counts
are the numbers of references, every such decrement finds a count to lower, and the roots whose
count reaches zero are those that no list holds any more.
-/

import MidenClient.Library.Fallible
import MidenClient.Store.RootCounts

namespace MidenClient

open Std (ExtTreeMap)

namespace AccountSmtForest

/-! ### Decrements -/

/-- Every root finds a count that can be lowered when its turn comes. -/
def FindsCounts : ExtTreeMap Word ℕ → List Word → Prop
  | _, [] => True
  | counts, root :: rest =>
    (∃ count, counts[root]? = some (count + 1)) ∧
      FindsCounts (decrementRefcount counts root).1 rest

theorem decrementRefcounts_append (counts : ExtTreeMap Word ℕ) (first second : List Word) :
    decrementRefcounts counts (first ++ second) =
      ((decrementRefcounts (decrementRefcounts counts first).1 second).1,
        (decrementRefcounts counts first).2 ++
          (decrementRefcounts (decrementRefcounts counts first).1 second).2) := by
  induction second using List.reverseRecOn with
  | nil => simp [decrementRefcounts]
  | append_singleton second last inductionHypothesis =>
    unfold decrementRefcounts at inductionHypothesis ⊢
    rw [← List.append_assoc, List.foldl_append, inductionHypothesis, List.foldl_append]
    simp only [List.foldl_cons, List.foldl_nil]
    split
    · rw [List.append_assoc]
    · rfl

theorem CountsAre.findsCounts {counts : ExtTreeMap Word ℕ} {held : Word → ℕ}
    (exact_ : CountsAre counts held) {roots : List Word}
    (present : ∀ root, roots.count root ≤ held root) : FindsCounts counts roots := by
  induction roots generalizing counts held with
  | nil => trivial
  | cons first rest inductionHypothesis =>
    have held_first : 0 < held first := by
      have listed := present first
      rw [List.count_cons_self] at listed
      omega
    refine ⟨⟨held first - 1, ?_⟩,
      inductionHypothesis (exact_.decrementOne held_first) fun root => ?_⟩
    · rw [exact_ first, storedCount, if_neg held_first.ne', Nat.sub_add_cancel held_first]
    · have listed := present root
      rw [List.count_cons] at listed
      simp only [beq_iff_eq] at listed
      omega

theorem mem_popped_singleton {counts : ExtTreeMap Word ℕ} {last : Word} {count : ℕ}
    (found : counts[last]? = some (count + 1)) (root : Word) :
    root ∈ (decrementRefcounts counts [last]).2 ↔ root = last ∧ count = 0 := by
  unfold decrementRefcounts decrementRefcount
  rw [List.foldl_cons, List.foldl_nil]
  dsimp only
  rw [found]
  dsimp only
  cases count with
  | zero => simp
  | succ count => simp

/-- The popped roots are those of which every reference is given up. -/
theorem CountsAre.mem_popped_iff {counts : ExtTreeMap Word ℕ} {held : Word → ℕ}
    (exact_ : CountsAre counts held) {roots : List Word}
    (present : ∀ root, roots.count root ≤ held root) (root : Word) :
    root ∈ (decrementRefcounts counts roots).2 ↔
      0 < roots.count root ∧ roots.count root = held root := by
  induction roots using List.reverseRecOn with
  | nil => simp [decrementRefcounts]
  | append_singleton roots last inductionHypothesis =>
    have fewer (other : Word) : roots.count other + [last].count other ≤ held other := by
      rw [← List.count_append]
      exact present other
    have before := inductionHypothesis fun other => (Nat.le_add_right _ _).trans (fewer other)
    have counted := exact_.decrement fun other => (Nat.le_add_right _ _).trans (fewer other)
    have listed := fewer last
    rw [List.count_singleton_self] at listed
    have found : (decrementRefcounts counts roots).1[last]? =
        some (held last - roots.count last - 1 + 1) := by
      rw [counted last, Nat.sub_add_cancel (Nat.le_sub_of_add_le' listed)]
      exact if_neg (Nat.sub_pos_of_lt listed).ne'
    rw [decrementRefcounts_append, List.mem_append, before, mem_popped_singleton found,
      List.count_append]
    by_cases same : root = last
    · rw [same, List.count_singleton_self, eq_self, true_and]
      omega
    · rw [List.count_singleton, if_neg (by simpa using Ne.symm same)]
      simp [same]

/-! ### Calls -/

/-- A call that changes which roots are tracked. -/
inductive RootCall where
  | stageRoots (id : AccountId) (newRoots : List Word)
  | commitRoots (id : AccountId)
  | discardRoots (id : AccountId)
  | replaceRoots (id : AccountId) (newRoots : List Word)

/-- Any call that changes the forest; the calls besides those on roots only add trees. -/
inductive ForestCall where
  | track (call : RootCall)
  | updateAssetNodes (root : Word) (newAssets : List Asset) (removedVaultKeys : List AssetVaultKey)
  | updateStorageMapNodes (root : Word) (entries : List (StorageMapKey × Word))
  | insertAccountState (account : Account)

/-- Only a replacement can fail: it asserts that nothing is pending. -/
def track (forest : AccountSmtForest) : RootCall → Except StoreError AccountSmtForest
  | .stageRoots id newRoots => .ok (forest.stageRoots id newRoots)
  | .commitRoots id => .ok (forest.commitRoots id)
  | .discardRoots id => .ok (forest.discardRoots id)
  | .replaceRoots id newRoots => forest.replaceRoots id newRoots

def perform [ProtocolLibrary] (forest : AccountSmtForest) :
    ForestCall → Except StoreError AccountSmtForest
  | .track call => forest.track call
  | .updateAssetNodes root newAssets removedVaultKeys =>
    (forest.updateAssetNodes root newAssets removedVaultKeys).map Prod.fst
  | .updateStorageMapNodes root entries =>
    (forest.updateStorageMapNodes root entries).map Prod.fst
  | .insertAccountState account => .ok (forest.insertAccountState account)

/-- The counts from which a call starts to decrement, and the roots it decrements. -/
def releases (forest : AccountSmtForest) : RootCall → ExtTreeMap Word ℕ × List Word
  | .stageRoots _ newRoots => (incrementRefcounts forest.rootRefcounts newRoots, [])
  | .commitRoots id =>
    (forest.rootRefcounts, ((forest.pendingOldRoots[id]?).getD []).reverse.flatten)
  | .discardRoots id => (forest.rootRefcounts, (forest.accountRoots[id]?).getD [])
  | .replaceRoots id newRoots =>
    (incrementRefcounts forest.rootRefcounts newRoots, (forest.accountRoots[id]?).getD [])

/-- The roots that a call pops from the underlying forest. -/
def popped (forest : AccountSmtForest) (call : RootCall) : List Word :=
  (decrementRefcounts (forest.releases call).1 (forest.releases call).2).2

variable {forest next : AccountSmtForest} {call : RootCall}

theorem foldl_release_releases (lists : List (List Word)) (forest : AccountSmtForest) :
    (lists.foldl release forest).rootRefcounts =
        (decrementRefcounts forest.rootRefcounts lists.flatten).1 ∧
      (lists.foldl release forest).forest.roots = forest.forest.roots \
        (decrementRefcounts forest.rootRefcounts lists.flatten).2.toFinset := by
  induction lists generalizing forest with
  | nil => exact ⟨rfl, Finset.sdiff_empty.symm⟩
  | cons roots rest inductionHypothesis =>
    obtain ⟨counts, popped⟩ := inductionHypothesis (forest.release roots)
    rw [List.foldl_cons, List.flatten_cons, decrementRefcounts_append, counts, popped,
      List.toFinset_append]
    exact ⟨rfl, sdiff_sdiff_left⟩

theorem discardRoots_roots (forest : AccountSmtForest) (id : AccountId) :
    (forest.discardRoots id).forest.roots = forest.forest.roots \
      (decrementRefcounts forest.rootRefcounts
        ((forest.accountRoots[id]?).getD [])).2.toFinset := by
  have cleaned (released : AccountSmtForest) :
      (if released.pendingOldRoots[id]? = some [] then
        { released with pendingOldRoots := released.pendingOldRoots.erase id }
      else released).forest = released.forest := by
    split
    · rfl
    · rfl
  unfold discardRoots
  dsimp only
  rw [cleaned]
  rcases forest.accountRoots[id]? with _ | roots <;>
    rcases forest.pendingOldRoots[id]? with _ | ⟨_ | ⟨top, rest⟩⟩
  · exact Finset.sdiff_empty.symm
  · exact Finset.sdiff_empty.symm
  · exact Finset.sdiff_empty.symm
  · rfl
  · rfl
  · rfl

/-- What a call does to the counts and to the underlying forest. -/
theorem track_releases (tracked : forest.track call = .ok next) :
    next.rootRefcounts =
        (decrementRefcounts (forest.releases call).1 (forest.releases call).2).1 ∧
      next.forest.roots = forest.forest.roots \ (forest.popped call).toFinset := by
  cases call with
  | stageRoots id newRoots =>
    cases tracked
    exact ⟨rfl, Finset.sdiff_empty.symm⟩
  | commitRoots id =>
    cases tracked
    show (forest.commitRoots id).rootRefcounts = (decrementRefcounts forest.rootRefcounts
        ((forest.pendingOldRoots[id]?).getD []).reverse.flatten).1 ∧
      (forest.commitRoots id).forest.roots = forest.forest.roots \ (decrementRefcounts
        forest.rootRefcounts ((forest.pendingOldRoots[id]?).getD []).reverse.flatten).2.toFinset
    unfold commitRoots
    cases forest.pendingOldRoots[id]? with
    | none => exact ⟨rfl, Finset.sdiff_empty.symm⟩
    | some stack =>
      exact foldl_release_releases stack.reverse
        { forest with pendingOldRoots := forest.pendingOldRoots.erase id }
  | discardRoots id =>
    cases tracked
    exact ⟨forest.discardRoots_rootRefcounts id, forest.discardRoots_roots id⟩
  | replaceRoots id newRoots =>
    refine ⟨(replaceRoots_eq_ok tracked).2.2.2, ?_⟩
    replace tracked : forest.replaceRoots id newRoots = .ok next := tracked
    unfold replaceRoots at tracked
    split at tracked
    · cases tracked
    · cases tracked
      show _ = forest.forest.roots \ (decrementRefcounts
        (incrementRefcounts forest.rootRefcounts newRoots)
        ((forest.accountRoots[id]?).getD [])).2.toFinset
      cases forest.accountRoots[id]? with
      | none => exact Finset.sdiff_empty.symm
      | some oldRoots => rfl

/-! ### What a call pops -/

theorem WellCounted.track (well : forest.WellCounted) (tracked : forest.track call = .ok next) :
    next.WellCounted := by
  cases call with
  | stageRoots id newRoots =>
    cases tracked
    exact well.stageRoots id newRoots
  | commitRoots id =>
    cases tracked
    exact well.commitRoots id
  | discardRoots id =>
    cases tracked
    exact well.discardRoots id
  | replaceRoots id newRoots => exact well.replaceRoots tracked

theorem storedCount_injective : Function.Injective storedCount := by
  intro first second same
  rw [← storedCount_getD first, same, storedCount_getD]

/-- The counts from which a call decrements cover the references, which cover what it releases. -/
theorem WellCounted.releases (well : forest.WellCounted) (call : RootCall) :
    ∃ held, CountsAre (forest.releases call).1 held ∧
      ∀ root, (forest.releases call).2.count root ≤ forest.references root ∧
        forest.references root ≤ held root := by
  have current (id : AccountId) (root : Word) :
      ((forest.accountRoots[id]?).getD []).count root ≤ forest.references root :=
    (Nat.le_add_right _ _).trans (forest.own_le_references id root)
  cases call with
  | stageRoots id newRoots =>
    exact ⟨_, well.counted.increment newRoots, fun root => ⟨Nat.zero_le _, Nat.le_add_right _ _⟩⟩
  | commitRoots id =>
    refine ⟨_, well.counted, fun root => ⟨?_, le_rfl⟩⟩
    refine (List.Perm.count_eq (List.reverse_perm _).flatten root).trans_le ?_
    exact (Nat.le_add_left _ _).trans (forest.own_le_references id root)
  | discardRoots id => exact ⟨_, well.counted, fun root => ⟨current id root, le_rfl⟩⟩
  | replaceRoots id newRoots =>
    exact ⟨_, well.counted.increment newRoots, fun root =>
      ⟨current id root, Nat.le_add_right _ _⟩⟩

/-- A call lowers every count it means to, and pops the roots it leaves without a reference. -/
theorem WellCounted.popped_iff (well : forest.WellCounted)
    (tracked : forest.track call = .ok next) :
    FindsCounts (forest.releases call).1 (forest.releases call).2 ∧
      ∀ root, root ∈ forest.popped call ↔
        0 < forest.references root ∧ next.references root = 0 := by
  obtain ⟨held, counted, listed⟩ := well.releases call
  have present := fun root => (listed root).1.trans (listed root).2
  refine ⟨counted.findsCounts present, fun root => ?_⟩
  have left : next.references root = held root - (forest.releases call).2.count root := by
    apply storedCount_injective
    rw [← (well.track tracked).counted root, (track_releases tracked).1]
    exact counted.decrement present root
  obtain ⟨few, covered⟩ := listed root
  rw [popped, counted.mem_popped_iff present, left]
  omega

/-- Discarding what was just staged over registered roots changes nothing. -/
theorem WellCounted.discardRoots_stageRoots (well : forest.WellCounted) {id : AccountId}
    (newRoots : List Word) (registered : forest.getRoots id ≠ none) :
    ((forest.stageRoots id newRoots).discardRoots id).SameRegistration forest := by
  refine (sameRegistration_iff well ((well.stageRoots id newRoots).discardRoots id)).mpr
    fun other => ?_
  rw [rootStack_discardRoots, rootStack_stageRoots, rootStack_stageRoots, if_pos rfl]
  by_cases same : id = other
  · subst same
    obtain ⟨roots, found⟩ := Option.ne_none_iff_exists'.mp registered
    rw [if_pos rfl]
    unfold RootStack.discard RootStack.stage rootStack
    rw [show forest.accountRoots[id]? = some roots from found]
    rfl
  · rw [if_neg same, if_neg same]

/-! ### Runs -/

section Library

variable [ProtocolLibrary]

theorem WellCounted.perform (well : forest.WellCounted) {call : ForestCall}
    (performed : forest.perform call = .ok next) : next.WellCounted := by
  cases call with
  | track call => exact well.track performed
  | updateAssetNodes root newAssets removedVaultKeys =>
    replace performed : (forest.updateAssetNodes root newAssets removedVaultKeys).map Prod.fst =
        .ok next := performed
    rcases done : forest.updateAssetNodes root newAssets removedVaultKeys with
      reason | ⟨updated, newRoot⟩
    · rw [done] at performed
      cases performed
    · rw [done] at performed
      cases performed
      exact well.congr (updateAssetNodes_sameRegistration done (.refl forest))
  | updateStorageMapNodes root entries =>
    replace performed : (forest.updateStorageMapNodes root entries).map Prod.fst = .ok next :=
      performed
    rcases done : forest.updateStorageMapNodes root entries with reason | ⟨updated, newRoot⟩
    · rw [done] at performed
      cases performed
    · rw [done] at performed
      cases performed
      exact well.congr (updateStorageMapNodes_sameRegistration done (.refl forest))
  | insertAccountState account =>
    cases performed
    exact well.congr (forest.insertAccountState_sameRegistration account)

/-- In every run the count of a root is the number of its occurrences in all registered and all
replaced lists. A call lowers positive counts only, pops exactly the roots that it leaves without
an occurrence, and a discard directly after staging over registered roots restores what is
tracked. -/
theorem run_counts_references (calls : List ForestCall) (forest : AccountSmtForest)
    (ran : calls.foldlM perform new = .ok forest) :
    (∀ root : Word, (forest.rootRefcounts[root]?).getD 0 = forest.references root) ∧
      (∀ (call : RootCall) (next : AccountSmtForest), forest.track call = .ok next →
        next.rootRefcounts =
            (decrementRefcounts (forest.releases call).1 (forest.releases call).2).1 ∧
          FindsCounts (forest.releases call).1 (forest.releases call).2 ∧
          next.forest.roots = forest.forest.roots \ (forest.popped call).toFinset ∧
          ∀ root, root ∈ forest.popped call ↔
            0 < forest.references root ∧ next.references root = 0) ∧
      ∀ (id : AccountId) (newRoots : List Word), forest.getRoots id ≠ none →
        ((forest.stageRoots id newRoots).discardRoots id).SameRegistration forest := by
  have well : forest.WellCounted :=
    Fallible.foldlM_invariant (fun _ forest => forest.WellCounted) perform
      (fun call rest forest next well performed => well.perform performed) calls new forest
      wellCounted_new ran
  refine ⟨fun root => ?_, fun call next tracked => ?_, fun id newRoots registered => ?_⟩
  · rw [well.counted root, storedCount_getD]
  · obtain ⟨counts, roots⟩ := track_releases tracked
    obtain ⟨lowers, pops⟩ := well.popped_iff tracked
    exact ⟨counts, lowers, roots, pops⟩
  · exact well.discardRoots_stageRoots newRoots registered

end Library

end AccountSmtForest

namespace Sample

open AccountSmtForest

/-- Two versions of an account that share a root, an account with a root of the second version, and
one that has the shared root twice. -/
def stagedTwice : List ForestCall :=
  [.track (.stageRoots 7 [1, 2]), .track (.stageRoots 7 [1, 3]), .track (.stageRoots 8 [3]),
    .track (.replaceRoots 9 [1, 1])]

/-- Each occurrence counts. A commit of the second version pops the root that only the first one
has, and what is staged for the other account next can be discarded. -/
theorem run_counts_references_stagedTwice :
    ∃ forest next, stagedTwice.foldlM perform new = .ok forest ∧
      forest.track (.commitRoots 7) = .ok next ∧
      (forest.rootRefcounts[(1 : Word)]?).getD 0 = forest.references 1 ∧
      forest.references 1 = 4 ∧
      2 ∈ forest.popped (.commitRoots 7) ∧ 1 ∉ forest.popped (.commitRoots 7) ∧
      ((forest.stageRoots 8 [2]).discardRoots 8).SameRegistration forest := by
  obtain ⟨forest, ran, counted, others, registered⟩ : ∃ forest,
      stagedTwice.foldlM perform new = .ok forest ∧ forest.references 1 = 4 ∧
        (forest.references 2 = 1 ∧ (forest.commitRoots 7).references 2 = 0 ∧
          (forest.commitRoots 7).references 1 = 3) ∧ forest.getRoots 8 ≠ none :=
    ⟨_, rfl, by decide, by decide, by decide⟩
  obtain ⟨counts, tracks, restores⟩ := run_counts_references stagedTwice forest ran
  obtain ⟨-, -, -, pops⟩ := tracks (.commitRoots 7) (forest.commitRoots 7) rfl
  refine ⟨forest, forest.commitRoots 7, ran, rfl, counts 1, counted, (pops 2).mpr ?_,
    fun popped => ?_,
    restores 8 [2] registered⟩
  · exact ⟨by rw [others.1]; decide, others.2.1⟩
  · have gone := ((pops 1).mp popped).2
    rw [others.2.2] at gone
    cases gone

end Sample

end MidenClient
