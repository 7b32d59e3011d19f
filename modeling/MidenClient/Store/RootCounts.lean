/-
This file says what the forest of account trees keeps for each account, and that its
reference counts are right.

For one account the forest keeps the registered root list and the replaced lists that
wait for their transactions. Every operation of the forest changes the lists of one
account, as a stack. The count of a root is the number of times it occurs in all lists of
all accounts, so the lists determine the counts, and a listed root is never popped.
-/

import MidenClient.Library.OrderedMap
import MidenClient.Store.SmtForest

namespace MidenClient

open Std (ExtTreeMap)

/-! ### The lists of one account -/

/-- The root lists of one account: the registered one, and the replaced ones with the most
recent first. -/
@[ext]
structure RootStack where
  current : Option (List Word)
  old : List (List Word)

namespace RootStack

/-- The registered list is kept below the new one. -/
def stage (roots : RootStack) (newRoots : List Word) : RootStack :=
  ⟨some newRoots, roots.current.toList ++ roots.old⟩

/-- The replaced lists are given up. -/
def commit (roots : RootStack) : RootStack :=
  ⟨roots.current, []⟩

/-- The most recent replaced list comes back; without one nothing is registered. -/
def discard (roots : RootStack) : RootStack :=
  ⟨roots.old.head?, roots.old.tail⟩

def replace (roots : RootStack) (newRoots : List Word) : RootStack :=
  ⟨some newRoots, roots.old⟩

/-- How often a root occurs in the lists. -/
def references (roots : RootStack) (root : Word) : ℕ :=
  (roots.current.toList ++ roots.old).flatten.count root

theorem references_eq (roots : RootStack) (root : Word) :
    roots.references root =
      (roots.current.getD []).count root + roots.old.flatten.count root := by
  unfold references
  rw [List.flatten_append, List.count_append]
  rcases roots.current with _ | list
  · rfl
  · rw [Option.toList_some, List.flatten_singleton]
    rfl

/-- A staged list is always a difference. -/
theorem stage_ne (roots : RootStack) (newRoots : List Word) : roots.stage newRoots ≠ roots := by
  intro same
  have current := congrArg current same
  have old := congrArg (fun roots => roots.old.length) same
  unfold stage at current old
  dsimp only at current old
  rw [← current] at old
  simp at old

theorem old_discard_iterate (roots : RootStack) (count : ℕ) :
    (discard^[count] roots).old = roots.old.drop count := by
  induction count generalizing roots with
  | zero => rfl
  | succ count inductionHypothesis =>
    rw [Function.iterate_succ_apply, inductionHypothesis]
    show roots.old.tail.drop count = _
    rw [List.drop_tail]

/-- Without replaced lists a discard leaves nothing. -/
theorem discard_iterate_of_old_eq_nil {roots : RootStack} (empty : roots.old = []) {count : ℕ}
    (some_ : 0 < count) : discard^[count] roots = ⟨none, []⟩ := by
  obtain ⟨fewer, rfl⟩ := Nat.exists_eq_succ_of_ne_zero some_.ne'
  have first : roots.discard = ⟨none, []⟩ := by
    rw [discard, empty]
    rfl
  rw [Function.iterate_succ_apply, first]
  exact Function.iterate_fixed rfl fewer

/-- The lists after some discards and, possibly, a commit. -/
def settle (roots : RootStack) (discards : ℕ) (committed : Bool) : RootStack :=
  if committed then (discard^[discards] roots).commit else discard^[discards] roots

/-- Settling changes nothing when there is nothing to discard or to give up. -/
theorem settle_eq_iff (roots : RootStack) (discards : ℕ) (committed : Bool) :
    roots.settle discards committed = roots ↔
      (0 < discards → roots = ⟨none, []⟩) ∧ (committed = true → roots.old = []) := by
  unfold settle
  constructor
  · intro same
    have empty : 0 < discards ∨ committed = true → roots.old = [] := by
      intro settled
      cases committed with
      | true => exact (congrArg old same).symm
      | false =>
        have dropped := congrArg (fun roots => roots.old.length) same
        rw [if_neg (by simp), old_discard_iterate, List.length_drop] at dropped
        rw [← List.length_eq_zero_iff]
        have some_ := settled.resolve_right (by simp)
        omega
    refine ⟨fun some_ => ?_, fun isCommitted => empty (Or.inr isCommitted)⟩
    rw [discard_iterate_of_old_eq_nil (empty (Or.inl some_)) some_] at same
    rw [← same]
    split
    · rfl
    · rfl
  · rintro ⟨nothing, cleared⟩
    rcases Nat.eq_zero_or_pos discards with rfl | some_
    · split
      · rename_i isCommitted
        exact RootStack.ext rfl (cleared isCommitted).symm
      · rfl
    · rw [nothing some_, discard_iterate_of_old_eq_nil rfl some_]
      split
      · rfl
      · rfl

/-- A list that is registered after all is settled is no difference when it was registered
before, with no replaced list below it. -/
theorem replace_settle_eq_iff (roots : RootStack) (discards : ℕ) (committed : Bool)
    {newRoots : List Word} (free : (roots.settle discards committed).old = []) :
    (roots.settle discards committed).replace newRoots = roots ↔
      roots = ⟨some newRoots, []⟩ := by
  rw [replace, free]
  exact eq_comm

end RootStack

namespace AccountSmtForest

/-- The lists that the forest keeps for an account. -/
def rootStack (forest : AccountSmtForest) (id : AccountId) : RootStack :=
  ⟨forest.accountRoots[id]?, (forest.pendingOldRoots[id]?).getD []⟩

/-- How often a root occurs in the lists of all accounts. -/
def references (forest : AccountSmtForest) (root : Word) : ℕ :=
  OrderedMap.total (fun roots : List Word => roots.count root) forest.accountRoots +
    OrderedMap.total (fun stack : List (List Word) => stack.flatten.count root)
      forest.pendingOldRoots

/-- A count as it is stored: a root without references has no entry. -/
def storedCount (count : ℕ) : Option ℕ :=
  if count = 0 then none else some count

/-- The stored counts are the given ones. -/
def CountsAre (counts : ExtTreeMap Word ℕ) (held : Word → ℕ) : Prop :=
  ∀ root : Word, counts[root]? = storedCount (held root)

/-- The counts are the numbers of references, and no stack is kept empty. -/
structure WellCounted (forest : AccountSmtForest) : Prop where
  counted : CountsAre forest.rootRefcounts forest.references
  stacked : ∀ id : AccountId, forest.pendingOldRoots[id]? ≠ some []

theorem wellCounted_new : new.WellCounted where
  counted := fun _ => rfl
  stacked := fun _ empty => (by cases empty)

/-! ### Counting -/

theorem storedCount_getD (count : ℕ) : (storedCount count).getD 0 = count := by
  unfold storedCount
  split
  · rename_i zero
    rw [zero]
    rfl
  · rfl

theorem CountsAre.increment {counts : ExtTreeMap Word ℕ} {held : Word → ℕ}
    (exact_ : CountsAre counts held) (roots : List Word) :
    CountsAre (incrementRefcounts counts roots) fun root => held root + roots.count root := by
  unfold incrementRefcounts
  induction roots generalizing counts held with
  | nil => exact exact_
  | cons first rest inductionHypothesis =>
    rw [List.foldl_cons]
    have one : CountsAre (counts.alter first fun count => some (count.getD 0 + 1))
        fun root => held root + if first = root then 1 else 0 := by
      intro root
      beta_reduce
      rw [ExtTreeMap.getElem?_alter]
      by_cases same : first = root
      · rw [if_pos (Std.compare_eq_iff_eq.mpr same), if_pos same, exact_ first, storedCount_getD,
          same]
        rfl
      · rw [if_neg (by rwa [Std.compare_eq_iff_eq]), if_neg same]
        exact exact_ root
    intro root
    rw [inductionHypothesis one root]
    beta_reduce
    rw [List.count_cons, Nat.add_assoc, Nat.add_comm (ite _ _ _)]
    simp only [beq_iff_eq]

theorem CountsAre.decrementOne {counts : ExtTreeMap Word ℕ} {held : Word → ℕ}
    (exact_ : CountsAre counts held) {first : Word} (present : 0 < held first) :
    CountsAre (decrementRefcount counts first).1
      fun root => held root - if first = root then 1 else 0 := by
  have found : counts[first]? = some (held first) := by
    rw [exact_ first, storedCount, if_neg (Nat.pos_iff_ne_zero.mp present)]
  unfold decrementRefcount
  rw [found]
  dsimp only
  intro root
  beta_reduce
  split
  · rename_i last
    rw [ExtTreeMap.getElem?_erase]
    by_cases same : first = root
    · rw [if_pos (Std.compare_eq_iff_eq.mpr same), if_pos same, ← same, last]
      rfl
    · rw [if_neg (by rwa [Std.compare_eq_iff_eq]), if_neg same]
      exact exact_ root
  · rename_i more
    rw [ExtTreeMap.getElem?_insert]
    by_cases same : first = root
    · rw [if_pos (Std.compare_eq_iff_eq.mpr same), if_pos same, ← same, storedCount, if_neg more]
    · rw [if_neg (by rwa [Std.compare_eq_iff_eq]), if_neg same]
      exact exact_ root

/-- What is popped does not matter for the counts. -/
theorem decrementRefcounts_fst (counts : ExtTreeMap Word ℕ) (roots : List Word) :
    (decrementRefcounts counts roots).1 =
      roots.foldl (fun counts root => (decrementRefcount counts root).1) counts :=
  (List.foldl_hom Prod.fst fun _ _ => rfl).symm

theorem CountsAre.decrement {counts : ExtTreeMap Word ℕ} {held : Word → ℕ}
    (exact_ : CountsAre counts held) {roots : List Word}
    (present : ∀ root, roots.count root ≤ held root) :
    CountsAre (decrementRefcounts counts roots).1 fun root => held root - roots.count root := by
  rw [decrementRefcounts_fst]
  induction roots generalizing counts held with
  | nil => exact exact_
  | cons first rest inductionHypothesis =>
    rw [List.foldl_cons]
    have held_first : 0 < held first := by
      have listed := present first
      rw [List.count_cons_self] at listed
      omega
    have one := exact_.decrementOne held_first
    have fewer : ∀ root, rest.count root ≤ held root - if first = root then 1 else 0 := by
      intro root
      have listed := present root
      rw [List.count_cons] at listed
      simp only [beq_iff_eq] at listed
      omega
    intro root
    rw [inductionHypothesis one fewer]
    beta_reduce
    rw [List.count_cons, Nat.sub_sub, Nat.add_comm (ite _ _ _)]
    simp only [beq_iff_eq]

theorem CountsAre.release {forest : AccountSmtForest} {held : Word → ℕ}
    (exact_ : CountsAre forest.rootRefcounts held) {roots : List Word}
    (present : ∀ root, roots.count root ≤ held root) :
    CountsAre (forest.release roots).rootRefcounts fun root => held root - roots.count root :=
  exact_.decrement present

theorem CountsAre.foldl_release {forest : AccountSmtForest} {held : Word → ℕ}
    (exact_ : CountsAre forest.rootRefcounts held) {lists : List (List Word)}
    (present : ∀ root, lists.flatten.count root ≤ held root) :
    CountsAre (lists.foldl AccountSmtForest.release forest).rootRefcounts
      fun root => held root - lists.flatten.count root := by
  induction lists generalizing forest held with
  | nil => exact exact_
  | cons roots rest inductionHypothesis =>
    rw [List.foldl_cons]
    have split : ∀ root, roots.count root + rest.flatten.count root ≤ held root := by
      intro root
      rw [← List.count_append]
      exact present root
    have one := exact_.release fun root => (Nat.le_add_right _ _).trans (split root)
    intro root
    rw [inductionHypothesis one (fun other => Nat.le_sub_of_add_le (by
      rw [Nat.add_comm]
      exact split other)) root]
    beta_reduce
    rw [List.flatten_cons, List.count_append, Nat.sub_sub]

/-! ### Operations on the lists -/

variable {forest next : AccountSmtForest}

theorem foldl_release_pendingOldRoots (lists : List (List Word)) (forest : AccountSmtForest) :
    (lists.foldl release forest).pendingOldRoots = forest.pendingOldRoots := by
  induction lists generalizing forest with
  | nil => rfl
  | cons roots rest inductionHypothesis => exact inductionHypothesis _

theorem foldl_release_accountRoots (lists : List (List Word)) (forest : AccountSmtForest) :
    (lists.foldl release forest).accountRoots = forest.accountRoots := by
  induction lists generalizing forest with
  | nil => rfl
  | cons roots rest inductionHypothesis => exact inductionHypothesis _

theorem rootStack_stageRoots (forest : AccountSmtForest) (id : AccountId) (newRoots : List Word)
    (other : AccountId) :
    (forest.stageRoots id newRoots).rootStack other =
      if id = other then (forest.rootStack id).stage newRoots else forest.rootStack other := by
  unfold rootStack stageRoots RootStack.stage
  dsimp only
  rw [ExtTreeMap.getElem?_insert]
  by_cases same : id = other
  · subst same
    rw [if_pos Std.ReflCmp.compare_self, if_pos rfl]
    rcases forest.accountRoots[id]? with _ | oldRoots
    · rfl
    · rw [ExtTreeMap.getElem?_alter, if_pos Std.ReflCmp.compare_self]
      rfl
  · rw [if_neg (by rwa [Std.compare_eq_iff_eq]), if_neg same]
    rcases forest.accountRoots[id]? with _ | oldRoots
    · rfl
    · rw [ExtTreeMap.getElem?_alter, if_neg (by rwa [Std.compare_eq_iff_eq])]

theorem rootStack_commitRoots (forest : AccountSmtForest) (id other : AccountId) :
    (forest.commitRoots id).rootStack other =
      if id = other then (forest.rootStack id).commit else forest.rootStack other := by
  unfold rootStack commitRoots RootStack.commit
  rcases found : forest.pendingOldRoots[id]? with _ | stack
  · by_cases same : id = other
    · subst same
      rw [if_pos rfl, found]
      rfl
    · rw [if_neg same]
  · dsimp only
    rw [foldl_release_accountRoots, foldl_release_pendingOldRoots, ExtTreeMap.getElem?_erase]
    by_cases same : id = other
    · subst same
      rw [if_pos Std.ReflCmp.compare_self, if_pos rfl]
      rfl
    · rw [if_neg (by rwa [Std.compare_eq_iff_eq]), if_neg same]

/-- What a stack is after its top entry is taken off; an empty stack is removed. -/
def poppedStack : List (List Word) → Option (List (List Word))
  | _ :: first :: rest => some (first :: rest)
  | _ => none

/-- A discard in parts: a forest with the restored and released lists, of which an empty stack is
removed. -/
theorem discardRoots_parts (forest : AccountSmtForest) (id : AccountId) :
    ∃ popped : AccountSmtForest,
      forest.discardRoots id =
        (if popped.pendingOldRoots[id]? = some [] then
          { popped with pendingOldRoots := popped.pendingOldRoots.erase id }
        else popped) ∧
      (popped.pendingOldRoots = match forest.pendingOldRoots[id]? with
        | some (_ :: rest) => forest.pendingOldRoots.insert id rest
        | _ => forest.pendingOldRoots) ∧
      (popped.accountRoots = match forest.pendingOldRoots[id]? with
        | some (oldRoots :: _) => forest.accountRoots.insert id oldRoots
        | _ => forest.accountRoots.erase id) ∧
      popped.rootRefcounts =
        (decrementRefcounts forest.rootRefcounts ((forest.accountRoots[id]?).getD [])).1 := by
  refine ⟨_, rfl, ?_, ?_, ?_⟩ <;>
    rcases forest.accountRoots[id]? with _ | roots <;>
    rcases forest.pendingOldRoots[id]? with _ | ⟨_ | ⟨top, rest⟩⟩ <;> rfl

/-- The stacks after the most recent staged change is discarded. -/
theorem discardRoots_pendingOldRoots (forest : AccountSmtForest) (id accountId : AccountId) :
    (forest.discardRoots id).pendingOldRoots[accountId]? =
      if id = accountId then (forest.pendingOldRoots[accountId]?).bind poppedStack
      else forest.pendingOldRoots[accountId]? := by
  obtain ⟨popped, discarded, pushed, -, -⟩ := forest.discardRoots_parts id
  have cleaned : (forest.discardRoots id).pendingOldRoots[accountId]? =
      if id = accountId ∧ popped.pendingOldRoots[id]? = some [] then none
      else popped.pendingOldRoots[accountId]? := by
    rw [discarded]
    by_cases empty : popped.pendingOldRoots[id]? = some []
    · rw [if_pos empty, ExtTreeMap.getElem?_erase]
      simp only [Std.compare_eq_iff_eq, empty, and_true]
    · rw [if_neg empty, if_neg fun both => empty both.2]
  rw [cleaned]
  rcases stack : forest.pendingOldRoots[id]? with _ | ⟨_ | ⟨top, rest⟩⟩
  · rw [stack] at pushed
    have kept : popped.pendingOldRoots = forest.pendingOldRoots := pushed
    rw [kept, stack, if_neg (by simp)]
    split
    · rename_i same
      rw [← same, stack]
      rfl
    · rfl
  · rw [stack] at pushed
    have kept : popped.pendingOldRoots = forest.pendingOldRoots := pushed
    rw [kept, stack]
    split
    · rename_i same
      rw [if_pos same.1, ← same.1, stack]
      rfl
    · rename_i different
      rw [if_neg fun same => different ⟨same, rfl⟩]
  · rw [stack] at pushed
    rw [pushed]
    dsimp only
    rw [ExtTreeMap.getElem?_insert_self, ExtTreeMap.getElem?_insert]
    simp only [Std.compare_eq_iff_eq]
    by_cases same : id = accountId
    · rw [if_pos same, if_pos same, ← same, stack]
      cases rest with
      | nil => simp [poppedStack]
      | cons first others => simp [poppedStack]
    · rw [if_neg same, if_neg same, if_neg fun both => same both.1]

theorem discardRoots_accountRoots (forest : AccountSmtForest) (id other : AccountId) :
    (forest.discardRoots id).accountRoots[other]? =
      if id = other then (forest.rootStack id).old.head? else forest.accountRoots[other]? := by
  obtain ⟨popped, discarded, -, restored, -⟩ := forest.discardRoots_parts id
  have kept : (forest.discardRoots id).accountRoots = popped.accountRoots := by
    rw [discarded]
    split
    · rfl
    · rfl
  rw [kept, restored, rootStack]
  rcases forest.pendingOldRoots[id]? with _ | ⟨_ | ⟨top, rest⟩⟩
  · rw [ExtTreeMap.getElem?_erase]
    simp only [Std.compare_eq_iff_eq]
    rfl
  · rw [ExtTreeMap.getElem?_erase]
    simp only [Std.compare_eq_iff_eq]
    rfl
  · rw [ExtTreeMap.getElem?_insert]
    simp only [Std.compare_eq_iff_eq]
    rfl

theorem discardRoots_rootRefcounts (forest : AccountSmtForest) (id : AccountId) :
    (forest.discardRoots id).rootRefcounts =
      (decrementRefcounts forest.rootRefcounts ((forest.accountRoots[id]?).getD [])).1 := by
  obtain ⟨popped, discarded, -, -, counted⟩ := forest.discardRoots_parts id
  rw [discarded, ← counted]
  split
  · rfl
  · rfl

theorem rootStack_discardRoots (forest : AccountSmtForest) (id other : AccountId) :
    (forest.discardRoots id).rootStack other =
      if id = other then (forest.rootStack id).discard else forest.rootStack other := by
  have current := forest.discardRoots_accountRoots id other
  have old := forest.discardRoots_pendingOldRoots id other
  rw [rootStack, current, old]
  by_cases same : id = other
  · subst same
    rw [if_pos rfl, if_pos rfl, if_pos rfl]
    unfold RootStack.discard rootStack
    rcases forest.pendingOldRoots[id]? with _ | ⟨_ | ⟨top, _ | ⟨first, rest⟩⟩⟩ <;> rfl
  · rw [if_neg same, if_neg same, if_neg same]
    rfl

/-- What a successful replacement changes. -/
theorem replaceRoots_eq_ok {id : AccountId} {newRoots : List Word}
    (replaced : forest.replaceRoots id newRoots = .ok next) :
    forest.pendingOldRoots.contains id = false ∧
      next.pendingOldRoots = forest.pendingOldRoots ∧
      next.accountRoots = forest.accountRoots.insert id newRoots ∧
      next.rootRefcounts = (decrementRefcounts (incrementRefcounts forest.rootRefcounts newRoots)
        ((forest.accountRoots[id]?).getD [])).1 := by
  unfold replaceRoots at replaced
  split at replaced
  · cases replaced
  · rename_i absent
    refine ⟨Bool.eq_false_iff.mpr absent, ?_⟩
    cases replaced
    rcases forest.accountRoots[id]? with _ | oldRoots
    · exact ⟨rfl, rfl, rfl⟩
    · exact ⟨rfl, rfl, rfl⟩

theorem rootStack_replaceRoots {id : AccountId} {newRoots : List Word}
    (replaced : forest.replaceRoots id newRoots = .ok next) (other : AccountId) :
    next.rootStack other =
      if id = other then (forest.rootStack id).replace newRoots else forest.rootStack other := by
  obtain ⟨-, old, current, -⟩ := replaceRoots_eq_ok replaced
  rw [rootStack, old, current, ExtTreeMap.getElem?_insert]
  by_cases same : id = other
  · subst same
    rw [if_pos Std.ReflCmp.compare_self, if_pos rfl]
    rfl
  · rw [if_neg (by rwa [Std.compare_eq_iff_eq]), if_neg same]
    rfl

/-! ### The counts stay right -/

/-- The references of all accounts are those of one account and those of the others. -/
theorem references_eq_add (forest : AccountSmtForest) (id : AccountId) (root : Word) :
    forest.references root = (forest.rootStack id).references root +
      (OrderedMap.total (fun roots : List Word => roots.count root)
          (forest.accountRoots.erase id) +
        OrderedMap.total (fun stack : List (List Word) => stack.flatten.count root)
          (forest.pendingOldRoots.erase id)) := by
  rw [references, OrderedMap.total_eq_add_erase _ forest.accountRoots id,
    OrderedMap.total_eq_add_erase _ forest.pendingOldRoots id, RootStack.references_eq]
  have current : (forest.accountRoots[id]?).elim 0 (fun roots => roots.count root) =
      ((forest.rootStack id).current.getD []).count root := by
    unfold rootStack
    rcases forest.accountRoots[id]? with _ | roots <;> rfl
  have old : (forest.pendingOldRoots[id]?).elim 0 (fun stack => stack.flatten.count root) =
      (forest.rootStack id).old.flatten.count root := by
    unfold rootStack
    rcases forest.pendingOldRoots[id]? with _ | stack <;> rfl
  rw [current, old]
  omega

/-- When the lists of one account change, the counts have to change with them. -/
theorem WellCounted.of_lists (well : forest.WellCounted) (id : AccountId)
    (current : ∀ other, id ≠ other → next.accountRoots[other]? = forest.accountRoots[other]?)
    (old : ∀ other, id ≠ other → next.pendingOldRoots[other]? = forest.pendingOldRoots[other]?)
    (stacked : next.pendingOldRoots[id]? ≠ some []) {held : Word → ℕ}
    (counted : CountsAre next.rootRefcounts held)
    (balanced : ∀ root, held root + (forest.rootStack id).references root =
      forest.references root + (next.rootStack id).references root) : next.WellCounted where
  counted := by
    intro root
    have balance := balanced root
    rw [forest.references_eq_add id, ← OrderedMap.erase_congr current,
      ← OrderedMap.erase_congr old] at balance
    rw [counted root, next.references_eq_add id]
    congr 1
    omega
  stacked := by
    intro other
    by_cases same : id = other
    · rwa [← same]
    · rw [old other same]
      exact well.stacked other

theorem WellCounted.congr (well : forest.WellCounted) (same : next.SameRegistration forest) :
    next.WellCounted where
  counted := by
    intro root
    rw [same.rootRefcounts, references, same.accountRoots, same.pendingOldRoots]
    exact well.counted root
  stacked := by
    rw [same.pendingOldRoots]
    exact well.stacked

theorem WellCounted.stageRoots (well : forest.WellCounted) (id : AccountId)
    (newRoots : List Word) : (forest.stageRoots id newRoots).WellCounted := by
  refine well.of_lists id (fun other different => ?_) (fun other different => ?_) ?_
    (well.counted.increment newRoots) fun root => ?_
  · exact (ExtTreeMap.getElem?_insert).trans (if_neg (by rwa [Std.compare_eq_iff_eq]))
  · unfold AccountSmtForest.stageRoots
    dsimp only
    split
    · rw [ExtTreeMap.getElem?_alter, if_neg (by rwa [Std.compare_eq_iff_eq])]
    · rfl
  · unfold AccountSmtForest.stageRoots
    dsimp only
    split
    · rw [ExtTreeMap.getElem?_alter_self]
      simp
    · exact well.stacked id
  · rw [rootStack_stageRoots, if_pos rfl, RootStack.references_eq (RootStack.stage _ _)]
    show _ = forest.references root + (newRoots.count root +
      (forest.rootStack id).references root)
    omega

/-- The lists of an account are among the references. -/
theorem own_le_references (forest : AccountSmtForest) (id : AccountId) (root : Word) :
    ((forest.accountRoots[id]?).getD []).count root +
      (forest.rootStack id).old.flatten.count root ≤ forest.references root := by
  rw [forest.references_eq_add id, RootStack.references_eq]
  exact Nat.le_add_right _ _

theorem WellCounted.commitRoots (well : forest.WellCounted) (id : AccountId) :
    (forest.commitRoots id).WellCounted := by
  have lists := forest.rootStack_commitRoots id id
  rw [if_pos rfl] at lists
  unfold AccountSmtForest.commitRoots at lists ⊢
  rcases found : forest.pendingOldRoots[id]? with _ | stack
  · exact well
  · rw [found] at lists
    dsimp only at lists ⊢
    have own : (forest.rootStack id).old = stack := by
      rw [rootStack, found]
      rfl
    have reversed : ∀ root, stack.reverse.flatten.count root = stack.flatten.count root :=
      fun root => (List.reverse_perm stack).flatten.count_eq root
    have released := @CountsAre.foldl_release
      { forest with pendingOldRoots := forest.pendingOldRoots.erase id } forest.references
    have fewer : ∀ root, stack.reverse.flatten.count root ≤ forest.references root := by
      intro root
      have listed := forest.own_le_references id root
      rw [own] at listed
      rw [reversed]
      omega
    refine well.of_lists id (fun other different => ?_) (fun other different => ?_) ?_
      (released well.counted fewer) fun root => ?_
    · rw [foldl_release_accountRoots]
    · rw [foldl_release_pendingOldRoots, ExtTreeMap.getElem?_erase,
        if_neg (by rwa [Std.compare_eq_iff_eq])]
    · rw [foldl_release_pendingOldRoots, ExtTreeMap.getElem?_erase_self]
      simp
    · rw [lists, RootStack.references_eq, RootStack.references_eq, own, reversed]
      have listed := fewer root
      rw [reversed] at listed
      show _ = forest.references root + (((forest.rootStack id).current.getD []).count root + 0)
      omega

theorem WellCounted.discardRoots (well : forest.WellCounted) (id : AccountId) :
    (forest.discardRoots id).WellCounted := by
  have listed := forest.own_le_references id
  have fewer : ∀ root, ((forest.accountRoots[id]?).getD []).count root ≤
      forest.references root := fun root => (Nat.le_add_right _ _).trans (listed root)
  have counted : CountsAre (forest.discardRoots id).rootRefcounts fun root =>
      forest.references root - ((forest.accountRoots[id]?).getD []).count root := by
    rw [discardRoots_rootRefcounts]
    exact well.counted.decrement fewer
  refine well.of_lists id (fun other different => ?_) (fun other different => ?_) ?_ counted
    fun root => ?_
  · rw [discardRoots_accountRoots, if_neg different]
  · rw [discardRoots_pendingOldRoots, if_neg different]
  · rw [discardRoots_pendingOldRoots, if_pos rfl]
    rcases forest.pendingOldRoots[id]? with _ | ⟨_ | ⟨top, _ | ⟨first, rest⟩⟩⟩ <;>
      simp [poppedStack]
  · rw [rootStack_discardRoots, if_pos rfl, RootStack.references_eq (forest.rootStack id)]
    have all : (forest.rootStack id).discard.references root =
        (forest.rootStack id).old.flatten.count root := by
      unfold RootStack.references RootStack.discard
      rcases (forest.rootStack id).old with _ | ⟨top, rest⟩ <;> rfl
    rw [all]
    have listedRoot := fewer root
    show _ - ((forest.accountRoots[id]?).getD []).count root +
      (((forest.accountRoots[id]?).getD []).count root + _) = _
    omega

theorem WellCounted.replaceRoots (well : forest.WellCounted) {id : AccountId}
    {newRoots : List Word} (replaced : forest.replaceRoots id newRoots = .ok next) :
    next.WellCounted := by
  obtain ⟨-, old, current, counted⟩ := replaceRoots_eq_ok replaced
  have fewer : ∀ root, ((forest.accountRoots[id]?).getD []).count root ≤
      forest.references root + newRoots.count root := by
    intro root
    have listed := forest.own_le_references id root
    omega
  have released : CountsAre next.rootRefcounts fun root => forest.references root +
      newRoots.count root - ((forest.accountRoots[id]?).getD []).count root := by
    rw [counted]
    exact (well.counted.increment newRoots).decrement fewer
  refine well.of_lists id (fun other different => ?_) (fun other _ => ?_) ?_ released
    fun root => ?_
  · rw [current, ExtTreeMap.getElem?_insert, if_neg (by rwa [Std.compare_eq_iff_eq])]
  · rw [old]
  · rw [old]
    exact well.stacked id
  · rw [rootStack_replaceRoots replaced, if_pos rfl,
      RootStack.references_eq (RootStack.replace _ _), RootStack.references_eq]
    have listedRoot := fewer root
    show _ - _ + (((forest.accountRoots[id]?).getD []).count root + _) =
      forest.references root + (newRoots.count root + (forest.rootStack id).old.flatten.count root)
    omega

/-! ### The lists determine the registration -/

theorem rootStack_congr (same : next.SameRegistration forest) (id : AccountId) :
    next.rootStack id = forest.rootStack id := by
  rw [rootStack, same.accountRoots, same.pendingOldRoots]
  rfl

/-- Staged roots are a difference. -/
theorem not_sameRegistration_stageRoots (same : next.SameRegistration forest) (id : AccountId)
    (roots : List Word) : ¬(next.stageRoots id roots).SameRegistration forest := by
  intro unchanged
  have lists := rootStack_congr unchanged id
  rw [rootStack_stageRoots, if_pos rfl, rootStack_congr same] at lists
  exact RootStack.stage_ne _ roots lists

/-- With right counts the forest keeps nothing besides the lists. -/
theorem sameRegistration_iff (well : forest.WellCounted) (nextWell : next.WellCounted) :
    next.SameRegistration forest ↔ ∀ id, next.rootStack id = forest.rootStack id := by
  refine ⟨rootStack_congr, fun lists => ?_⟩
  have current : next.accountRoots = forest.accountRoots :=
    ExtTreeMap.ext_getElem? fun id => congrArg RootStack.current (lists id)
  have old : next.pendingOldRoots = forest.pendingOldRoots := by
    refine ExtTreeMap.ext_getElem? fun id => ?_
    have same : (next.pendingOldRoots[id]?).getD [] = (forest.pendingOldRoots[id]?).getD [] :=
      congrArg RootStack.old (lists id)
    have some_ := well.stacked id
    have nextSome := nextWell.stacked id
    rcases found : forest.pendingOldRoots[id]? with _ | stack <;>
      rcases nextFound : next.pendingOldRoots[id]? with _ | nextStack <;>
      rw [found, nextFound] at same <;> rw [found] at some_ <;> rw [nextFound] at nextSome
    · exact absurd (congrArg some same) nextSome
    · exact absurd (congrArg some same.symm) some_
    · exact congrArg some same
  refine ⟨current, old, ExtTreeMap.ext_getElem? fun root => ?_⟩
  rw [nextWell.counted root, well.counted root, references, references, current, old]

/-! ### Whole accounts -/

variable [ProtocolLibrary]

/-- The nodes of an account are trees only. -/
theorem insertStorageMapNodes_sameRegistration (forest : AccountSmtForest) (account : Account) :
    (forest.insertStorageMapNodes account).SameRegistration forest := by
  unfold insertStorageMapNodes
  refine List.foldlRecOn (motive := fun next => SameRegistration next forest) _ _ (.refl forest)
    fun next same slot listed => ?_
  split
  · exact same
  · split
    · exact same
    · exact ⟨same.accountRoots, same.pendingOldRoots, same.rootRefcounts⟩

theorem insertAccountState_sameRegistration (forest : AccountSmtForest) (account : Account) :
    (forest.insertAccountState account).SameRegistration forest := by
  have same := forest.insertStorageMapNodes_sameRegistration account
  unfold insertAccountState insertAssetNodes
  split
  · exact same
  · exact ⟨same.accountRoots, same.pendingOldRoots, same.rootRefcounts⟩

/-- Registering a whole account succeeds when nothing of the account is pending, and replaces its
lists. -/
theorem insertAndRegisterAccountState_eq_ok {account : Account}
    (registered : forest.insertAndRegisterAccountState account = .ok next) :
    forest.pendingOldRoots[account.id]? = none ∧ next.pendingOldRoots = forest.pendingOldRoots ∧
      ∀ id, next.rootStack id =
        if account.id = id then (forest.rootStack id).replace (collectAccountRoots account)
        else forest.rootStack id := by
  have same := forest.insertAccountState_sameRegistration account
  obtain ⟨absent, old, -, -⟩ := replaceRoots_eq_ok registered
  rw [same.pendingOldRoots] at absent old
  refine ⟨?_, old, fun id => ?_⟩
  · rw [ExtTreeMap.contains_eq_isSome_getElem?] at absent
    exact Option.isSome_eq_false_iff.mp absent |> Option.isNone_iff_eq_none.mp
  · rw [rootStack_replaceRoots registered id, rootStack_congr same, rootStack_congr same]
    by_cases own : account.id = id
    · rw [if_pos own, if_pos own, own]
    · rw [if_neg own, if_neg own]

theorem WellCounted.insertAndRegisterAccountState (well : forest.WellCounted) {account : Account}
    (registered : forest.insertAndRegisterAccountState account = .ok next) : next.WellCounted :=
  (well.congr (forest.insertAccountState_sameRegistration account)).replaceRoots registered

end AccountSmtForest

end MidenClient
