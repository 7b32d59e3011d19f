/-
This file gives the rule for replaying a log of changes. A log that covers a stretch of
time has, for every key, an entry for each time at which its value changes, and no entry
that is not true. Logs of adjacent stretches can be put together, and the last entry of a
key in a log from the beginning is the value at the end.
-/

import MidenClient.Library.OrderedMap

namespace ChangeLog

open Std (ExtTreeMap)

variable {κ ν : Type*}

/-- The value before a time, given the values from each time on. -/
def valueBefore (initial : κ → ν) (value : ℕ → κ → ν) : ℕ → κ → ν
  | 0 => initial
  | time + 1 => value time

/-- The log has the changes from the first time up to the next one, which it does not include. -/
structure Covers (initial : κ → ν) (value : ℕ → κ → ν) (first next : ℕ)
    (log : List (ℕ × κ × ν)) : Prop where
  inRange : ∀ entry ∈ log, first ≤ entry.1 ∧ entry.1 < next
  holds : ∀ entry ∈ log, entry.2.2 = value entry.1 entry.2.1
  complete : ∀ time key, first ≤ time → time < next →
    value time key ≠ valueBefore initial value time key → ∃ held, (time, key, held) ∈ log

variable {initial : κ → ν} {value : ℕ → κ → ν} {first middle next : ℕ}
  {log later : List (ℕ × κ × ν)}

theorem covers_nil (initial : κ → ν) (value : ℕ → κ → ν) (first : ℕ) :
    Covers initial value first first [] where
  inRange _ absent := absurd absent List.not_mem_nil
  holds _ absent := absurd absent List.not_mem_nil
  complete _ _ after before := absurd (after.trans_lt before) (lt_irrefl first)

theorem Covers.append (covers : Covers initial value first middle log)
    (laterCovers : Covers initial value middle next later) (ordered : first ≤ middle)
    (laterOrdered : middle ≤ next) : Covers initial value first next (log ++ later) where
  inRange entry listed := by
    rcases List.mem_append.mp listed with early | late
    · exact ⟨(covers.inRange entry early).1, (covers.inRange entry early).2.trans_le laterOrdered⟩
    · exact ⟨ordered.trans (laterCovers.inRange entry late).1, (laterCovers.inRange entry late).2⟩
  holds entry listed := by
    rcases List.mem_append.mp listed with early | late
    · exact covers.holds entry early
    · exact laterCovers.holds entry late
  complete time key after before changed := by
    by_cases early : time < middle
    · obtain ⟨held, listed⟩ := covers.complete time key after early changed
      exact ⟨held, List.mem_append_left later listed⟩
    · obtain ⟨held, listed⟩ :=
        laterCovers.complete time key (not_lt.mp early) before changed
      exact ⟨held, List.mem_append_right log listed⟩

/-- The stretch of a log that has all changes. -/
theorem covers_filter (holds : ∀ entry ∈ log, entry.2.2 = value entry.1 entry.2.1)
    (complete : ∀ time key, value time key ≠ valueBefore initial value time key →
      ∃ held, (time, key, held) ∈ log) (first next : ℕ) :
    Covers initial value first next
      (log.filter fun entry => first ≤ entry.1 ∧ entry.1 < next) where
  inRange entry listed := of_decide_eq_true (List.mem_filter.mp listed).2
  holds entry listed := holds entry (List.mem_filter.mp listed).1
  complete time key after before changed := by
    obtain ⟨held, listed⟩ := complete time key changed
    exact ⟨held, List.mem_filter.mpr ⟨listed, decide_eq_true ⟨after, before⟩⟩⟩

/-- The changes of some of the keys, under other names. -/
theorem Covers.filterMap {κ' : Type*} {embed : κ' → κ} {rename : κ → Option κ'}
    (covers : Covers initial value first next log)
    (renames : ∀ key key', rename key = some key' ↔ key = embed key') :
    Covers (fun key => initial (embed key)) (fun time key => value time (embed key)) first next
      (log.filterMap fun entry => (rename entry.2.1).map fun key => (entry.1, key, entry.2.2)) := by
  have origin : ∀ entry ∈ log.filterMap (fun entry =>
      (rename entry.2.1).map fun key => (entry.1, key, entry.2.2)),
        (entry.1, embed entry.2.1, entry.2.2) ∈ log := by
    intro entry listed
    obtain ⟨⟨time, key, held⟩, inLog, mapped⟩ := List.mem_filterMap.mp listed
    obtain ⟨key', renamed, rfl⟩ := Option.map_eq_some_iff.mp mapped
    obtain rfl := (renames key key').mp renamed
    exact inLog
  refine ⟨fun entry listed => covers.inRange _ (origin entry listed),
    fun entry listed => covers.holds _ (origin entry listed),
    fun time key after before changed => ?_⟩
  have changedBefore : value time (embed key) ≠ valueBefore initial value time (embed key) := by
    cases time with
    | zero => exact changed
    | succ earlier => exact changed
  obtain ⟨held, listed⟩ := covers.complete time (embed key) after before changedBefore
  refine ⟨held, List.mem_filterMap.mpr ⟨_, listed, ?_⟩⟩
  rw [(renames (embed key) key).mpr rfl]
  rfl

/-- Without a change in between, the value stays. -/
theorem valueBefore_eq_of_unchanged {key : κ} (ordered : first ≤ next)
    (unchanged : ∀ time, first ≤ time → time < next →
      value time key = valueBefore initial value time key) :
    valueBefore initial value next key = valueBefore initial value first key := by
  induction next, ordered using Nat.le_induction with
  | base => rfl
  | succ time after inductionHypothesis =>
    refine (unchanged time after (Nat.lt_succ_self time)).trans ?_
    exact inductionHypothesis fun other later before =>
      unchanged other later (before.trans (Nat.lt_succ_self time))

/-- The last entry of an ordered log is the latest. -/
theorem le_getLast {entry : ℕ × κ × ν}
    (sorted : log.Pairwise fun first second => first.1 ≤ second.1)
    (last : log.getLast? = some entry) : ∀ other ∈ log, other.1 ≤ entry.1 := by
  obtain ⟨before, rfl⟩ := List.getLast?_eq_some_iff.mp last
  intro other listed
  rcases List.mem_append.mp listed with early | final
  · exact (List.pairwise_append.mp sorted).2.2 other early entry (List.mem_singleton_self entry)
  · rw [List.mem_singleton.mp final]

theorem sorted_mergeSort (log : List (ℕ × κ × ν)) :
    (log.mergeSort fun first second => first.1 ≤ second.1).Pairwise
      fun first second => first.1 ≤ second.1 := by
  refine (List.pairwise_mergeSort ?_ ?_ log).imp fun below => of_decide_eq_true below
  · intro one two three below above
    exact decide_eq_true ((of_decide_eq_true below).trans (of_decide_eq_true above))
  · intro one two
    rcases le_total one.1 two.1 with below | above
    · rw [decide_eq_true below, Bool.true_or]
    · rw [decide_eq_true above, Bool.or_true]

variable [LinearOrder κ]

/-- The values of the log's keys, where a later entry replaces an earlier one. -/
def replay (log : List (ℕ × κ × ν)) : ExtTreeMap κ ν :=
  ExtTreeMap.ofList ((log.mergeSort fun first second => first.1 ≤ second.1).map Prod.snd)

/-- The replayed value of a key is that of its last entry. -/
theorem replay_getElem? (log : List (ℕ × κ × ν)) (key : κ) :
    (replay log)[key]? = (((log.mergeSort fun first second => first.1 ≤ second.1).filter
      fun entry => entry.2.1 = key).getLast?).map fun entry => entry.2.2 := by
  unfold replay
  rw [OrderedMap.getElem?_ofList, List.filter_map, List.getLast?_map, Option.map_map]
  rfl

/-- Replaying a log from the beginning gives the values at its end. -/
theorem Covers.replay_getD (covers : Covers initial value 0 next log) (key : κ) :
    (replay log)[key]?.getD (initial key) = valueBefore initial value next key := by
  let sorted := log.mergeSort fun first second => first.1 ≤ second.1
  let own := sorted.filter fun entry => entry.2.1 = key
  have listed : ∀ time held, (time, key, held) ∈ log → (time, key, held) ∈ own := by
    intro time held inLog
    exact List.mem_filter.mpr
      ⟨(List.mergeSort_perm log _).mem_iff.mpr inLog, decide_eq_true rfl⟩
  rw [replay_getElem?]
  cases last : own.getLast? with
  | none =>
    refine (valueBefore_eq_of_unchanged (Nat.zero_le next) fun time _ before => ?_).symm
    by_contra changed
    obtain ⟨held, inLog⟩ := covers.complete time key (Nat.zero_le time) before changed
    have kept := listed time held inLog
    rw [List.getLast?_eq_none_iff.mp last] at kept
    exact absurd kept List.not_mem_nil
  | some entry =>
    obtain ⟨kept, same⟩ := List.mem_filter.mp (List.mem_of_getLast? last)
    have inLog : entry ∈ log := (List.mergeSort_perm log _).mem_iff.mp kept
    have ownKey : entry.2.1 = key := of_decide_eq_true same
    have latest := le_getLast ((sorted_mergeSort log).filter _) last
    refine (covers.holds entry inLog).trans ?_
    rw [ownKey]
    have ordered : entry.1 + 1 ≤ next := (covers.inRange entry inLog).2
    refine (valueBefore_eq_of_unchanged ordered fun time after before => ?_).symm
    by_contra changed
    obtain ⟨held, other⟩ := covers.complete time key (Nat.zero_le time) before changed
    have below : time ≤ entry.1 := latest _ (listed time held other)
    exact absurd after (not_le.mpr (Nat.lt_succ_of_le below))

end ChangeLog
