/-
This file gives the rules for sums that are kept by key in machine words. An addition that
does not fit into the word either ends the program or wraps around, as the program was built.

Sums only grow, so all of them fit while they are added up exactly when the totals fit at the
end. Then the way the program was built makes no difference, and otherwise a program that
panics on overflow ends.
-/

import MidenClient.Library.OrderedMap
import MidenClient.Library.Panic

namespace CheckedSums

open Std (ExtTreeMap)
open scoped OrderedMap
open Panicking

/-- What an addition does when the sum does not fit. -/
inductive OverflowMode where
  | panics
  | wraps
  deriving DecidableEq, Repr

variable {ε : Type} {κ : Type} [LinearOrder κ]

/-- Adds two words. -/
def add (mode : OverflowMode) (first second : ℕ) : Except (Failure ε) ℕ :=
  if first + second < 2 ^ 64 then .ok (first + second)
  else match mode with
    | .panics => .error (.panicked "attempt to add with overflow")
    | .wraps => .ok ((first + second) % 2 ^ 64)

theorem add_of_fits {first second : ℕ} (fits : first + second < 2 ^ 64) (mode : OverflowMode) :
    (add mode first second : Except (Failure ε) ℕ) = .ok (first + second) :=
  if_pos fits

theorem add_panics {first second : ℕ} (exceeds : ¬ first + second < 2 ^ 64) :
    (add .panics first second : Except (Failure ε) ℕ) =
      .error (.panicked "attempt to add with overflow") :=
  if_neg exceeds

/-- The exact sum of the amounts with a key. -/
def total (entries : List (κ × ℕ)) (key : κ) : ℕ :=
  ((entries.filter fun entry => entry.1 = key).map Prod.snd).sum

theorem total_append (first second : List (κ × ℕ)) (key : κ) :
    total (first ++ second) key = total first key + total second key := by
  unfold total
  rw [List.filter_append, List.map_append, List.sum_append]

theorem total_singleton (entry : κ × ℕ) (key : κ) :
    total [entry] key = if entry.1 = key then entry.2 else 0 := by
  unfold total
  by_cases same : entry.1 = key
  · simp [same]
  · simp [same]

theorem total_eq_zero {entries : List (κ × ℕ)} {key : κ} (absent : key ∉ entries.map Prod.fst) :
    total entries key = 0 := by
  unfold total
  rw [List.filter_eq_nil_iff.mpr]
  · rfl
  · intro entry listed same
    exact absent (List.mem_map.mpr ⟨entry, listed, of_decide_eq_true same⟩)

/-- Adds an amount to the sum of its key. -/
def accumulate (mode : OverflowMode) (sums : ExtTreeMap κ ℕ) (entry : κ × ℕ) :
    Except (Failure ε) (ExtTreeMap κ ℕ) :=
  match sums[entry.1]? with
  | some sum => do
    let next ← add mode sum entry.2
    return sums.insert entry.1 next
  | none => .ok (sums.insert entry.1 entry.2)

/-- The map has the exact sums of the entries, for the keys of the entries. -/
def Sums (sums : ExtTreeMap κ ℕ) (entries : List (κ × ℕ)) : Prop :=
  ∀ key, sums[key]? = if key ∈ entries.map Prod.fst then some (total entries key) else none

theorem sums_empty : Sums (∅ : ExtTreeMap κ ℕ) [] := by
  intro key
  rw [List.map_nil, if_neg List.not_mem_nil]
  exact ExtTreeMap.getElem?_empty

namespace Sums

variable {sums : ExtTreeMap κ ℕ} {entries : List (κ × ℕ)} {entry : κ × ℕ}

/-- A sum that is not kept yet is zero. -/
theorem getD_eq_total (holds : Sums sums entries) (key : κ) :
    sums[key]?.getD 0 = total entries key := by
  rw [holds key]
  split
  · rfl
  · rename_i absent
    exact (total_eq_zero absent).symm

theorem insert (holds : Sums sums entries) :
    Sums (sums.insert entry.1 (total (entries ++ [entry]) entry.1)) (entries ++ [entry]) := by
  intro key
  rw [ExtTreeMap.getElem?_insert, List.map_append, List.map_singleton]
  by_cases same : entry.1 = key
  · rw [if_pos (Std.compare_eq_iff_eq.mpr same), same, if_pos (by simp)]
  · rw [if_neg (by rwa [Std.compare_eq_iff_eq]), holds key, total_append, total_singleton,
      if_neg same, Nat.add_zero]
    refine if_congr ?_ rfl rfl
    rw [List.mem_append, List.mem_singleton]
    exact (or_iff_left (Ne.symm same)).symm

/-- A sum that fits is added up exactly. -/
theorem accumulate_of_fits (holds : Sums sums entries) (entry : κ × ℕ)
    (fits : total (entries ++ [entry]) entry.1 < 2 ^ 64) (mode : OverflowMode) :
    ∃ next, (accumulate mode sums entry : Except (Failure ε) (ExtTreeMap κ ℕ)) = .ok next ∧
      Sums next (entries ++ [entry]) := by
  refine ⟨_, ?_, holds.insert⟩
  rw [total_append, total_singleton, if_pos rfl] at fits ⊢
  unfold accumulate
  have known := holds.getD_eq_total entry.1
  cases found : sums[entry.1]? with
  | some sum =>
    rw [found, Option.getD_some] at known
    rw [← known] at fits ⊢
    show add mode sum entry.2 >>= _ = _
    rw [add_of_fits fits]
    rfl
  | none =>
    rw [found] at known
    rw [← known]
    exact congrArg (fun sum => Except.ok (sums.insert entry.1 sum)) (Nat.zero_add _).symm

/-- A sum that does not fit ends a program that panics on overflow. -/
theorem accumulate_panics (holds : Sums sums entries) (entry : κ × ℕ) (small : entry.2 < 2 ^ 64)
    (exceeds : ¬ total (entries ++ [entry]) entry.1 < 2 ^ 64) :
    (accumulate .panics sums entry : Except (Failure ε) (ExtTreeMap κ ℕ)) =
      .error (.panicked "attempt to add with overflow") := by
  rw [total_append, total_singleton, if_pos rfl] at exceeds
  unfold accumulate
  have known := holds.getD_eq_total entry.1
  cases found : sums[entry.1]? with
  | some sum =>
    rw [found, Option.getD_some] at known
    rw [← known] at exceeds
    show add .panics sum entry.2 >>= _ = _
    rw [add_panics exceeds]
    rfl
  | none =>
    rw [found] at known
    rw [← known] at exceeds
    exact absurd ((Nat.zero_add _).trans_lt small) exceeds

end Sums

end CheckedSums
