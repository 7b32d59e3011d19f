/-
This file follows the stacks of replaced roots of one account through the operations of the forest
(`rust-client/src/store/smt_forest.rs`).

Every staged root list pushes the one it replaces. A discard pops one entry, a commit clears the
stack, and replacing the roots of an account asserts that there is no stack.
-/

import MidenClient.Sqlite.Accounts
import MidenClient.Store.RootCounts

namespace MidenClient

open Std (ExtTreeMap)

namespace AccountSmtForest

/-! ### The stack of one account -/

/-- The stack of an account has so many entries; without entries there is no stack. -/
def HasPending (forest : AccountSmtForest) (accountId : AccountId) (count : ℕ) : Prop :=
  (forest.pendingOldRoots[accountId]?).map List.length = if count = 0 then none else some count

variable {forest next : AccountSmtForest} {accountId : AccountId} {count : ℕ}

theorem HasPending.congr (pending : forest.HasPending accountId count)
    (same : next.pendingOldRoots = forest.pendingOldRoots) : next.HasPending accountId count := by
  rwa [HasPending, same]

theorem hasPending_new (accountId : AccountId) : new.HasPending accountId 0 :=
  rfl

/-- The stack is missing exactly when nothing is pending. -/
theorem HasPending.eq_none_iff (pending : forest.HasPending accountId count) :
    forest.pendingOldRoots[accountId]? = none ↔ count = 0 := by
  unfold HasPending at pending
  rw [← Option.map_eq_none_iff, pending, ite_eq_left_iff]
  simp

/-- Staging the roots of a registered account pushes one entry. -/
theorem HasPending.stageRoots (pending : forest.HasPending accountId count) {id : AccountId}
    (registered : forest.getRoots id ≠ none) (newRoots : List Word) :
    (forest.stageRoots id newRoots).HasPending accountId
      (if id = accountId then count + 1 else count) := by
  obtain ⟨oldRoots, found⟩ := Option.ne_none_iff_exists'.mp registered
  have pushed : (forest.stageRoots id newRoots).pendingOldRoots =
      forest.pendingOldRoots.alter id fun stack => some (oldRoots :: stack.getD []) := by
    unfold AccountSmtForest.stageRoots
    rw [show forest.accountRoots[id]? = some oldRoots from found]
  unfold HasPending at pending ⊢
  rw [pushed, ExtTreeMap.getElem?_alter]
  by_cases same : id = accountId
  · rw [if_pos (Std.compare_eq_iff_eq.mpr same), if_pos same, if_neg (Nat.succ_ne_zero count),
      same]
    rcases stack : forest.pendingOldRoots[accountId]? with _ | entries
    · rw [stack] at pending
      split at pending
      · rename_i nothing
        rw [nothing]
        rfl
      · cases pending
    · rw [stack] at pending
      split at pending
      · cases pending
      · obtain rfl := Option.some.inj pending
        rfl
  · rw [if_neg (by rwa [Std.compare_eq_iff_eq]), if_neg same]
    exact pending

/-- Discarding pops one entry, if there is one. -/
theorem HasPending.discardRoots (pending : forest.HasPending accountId count) (id : AccountId) :
    (forest.discardRoots id).HasPending accountId
      (if id = accountId then count - 1 else count) := by
  unfold HasPending at pending ⊢
  rw [discardRoots_pendingOldRoots]
  split
  · rcases stack : forest.pendingOldRoots[accountId]? with _ | entries
    · rw [stack] at pending
      split at pending
      · rename_i nothing
        rw [nothing]
        rfl
      · cases pending
    · rw [stack] at pending
      split at pending
      · cases pending
      · obtain rfl := Option.some.inj pending
        rcases entries with _ | ⟨top, _ | ⟨first, rest⟩⟩ <;> rfl
  · exact pending

/-- Committing clears the stack. -/
theorem HasPending.commitRoots (pending : forest.HasPending accountId count) (id : AccountId) :
    (forest.commitRoots id).HasPending accountId (if id = accountId then 0 else count) := by
  unfold HasPending at pending ⊢
  unfold AccountSmtForest.commitRoots
  split
  · rw [foldl_release_pendingOldRoots, ExtTreeMap.getElem?_erase]
    simp only [Std.compare_eq_iff_eq]
    split
    · rfl
    · exact pending
  · rename_i absent
    split
    · rename_i same
      rw [← same, absent]
      rfl
    · exact pending

/-- Discarded states pop one entry each. -/
theorem HasPending.discardStates (pending : forest.HasPending accountId count)
    (states : List (AccountId × Word)) :
    (forest.discardStates states).HasPending accountId
      (count - states.countP fun state => state.1 = accountId) := by
  unfold AccountSmtForest.discardStates
  induction states generalizing forest count with
  | nil => exact pending
  | cons state rest inductionHypothesis =>
    have popped := inductionHypothesis (pending.discardRoots state.1)
    rw [List.foldl_cons, List.countP_cons]
    by_cases same : state.1 = accountId
    · rw [if_pos same] at popped
      rw [if_pos (decide_eq_true same), Nat.add_comm, ← Nat.sub_sub]
      exact popped
    · rw [if_neg same] at popped
      rw [if_neg (by simpa using same)]
      exact popped

/-- The stacks of the committed accounts are cleared. -/
theorem HasPending.commitAccounts (pending : forest.HasPending accountId count)
    (accounts : List AccountId) :
    (accounts.foldl AccountSmtForest.commitRoots forest).HasPending accountId
      (if accountId ∈ accounts then 0 else count) := by
  induction accounts generalizing forest count with
  | nil => exact pending
  | cons id rest inductionHypothesis =>
    have cleared := inductionHypothesis (pending.commitRoots id)
    rw [List.foldl_cons]
    by_cases same : id = accountId
    · rw [if_pos same, ite_self] at cleared
      rwa [if_pos (same ▸ List.mem_cons_self)]
    · rw [if_neg same] at cleared
      simpa only [List.mem_cons, Ne.symm same, false_or] using cleared

variable [ProtocolLibrary]

/-- Registering an account panics exactly when transactions of the account are pending. -/
theorem insertAndRegisterAccountState_cases (forest : AccountSmtForest) (account : Account) :
    (forest.pendingOldRoots.contains account.id = true ∧
        forest.insertAndRegisterAccountState account =
          .error (.stagedChangesPending account.id)) ∨
      (forest.pendingOldRoots.contains account.id = false ∧
        ∃ next, forest.insertAndRegisterAccountState account = .ok next ∧
          next.pendingOldRoots = forest.pendingOldRoots) := by
  have same := (forest.insertAccountState_sameRegistration account).pendingOldRoots
  unfold insertAndRegisterAccountState
  rcases registered : (forest.insertAccountState account).replaceRoots account.id
    (collectAccountRoots account) with reason | next
  · left
    unfold replaceRoots at registered
    split at registered
    · rename_i pending
      cases registered
      rw [← same]
      exact ⟨pending, rfl⟩
    · cases registered
  · right
    obtain ⟨absent, kept, -, -⟩ := replaceRoots_eq_ok registered
    rw [same] at absent kept
    exact ⟨absent, next, rfl, kept⟩

end AccountSmtForest

end MidenClient
