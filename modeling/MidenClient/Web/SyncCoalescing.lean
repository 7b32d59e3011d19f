/-
This file proves what the sync lock of the web client promises its callers: one holder at a
time, answers for every waiter from the sync it waited for, and no waiters without a sync.

The invariant ties each call to the state by its generation. An attempt has not ended exactly
when it is the one in progress, and a waiter is unanswered exactly when it is on the list.
A step either leaves the attempt in progress as it is or ends it, and ending it has to answer
the list. The handler of a request that fails does not answer it, so a run is only safe when no
request fails while others wait for it, and no lock is lost that a caller still holds.
-/

import MidenClient.Library.ListEntries
import MidenClient.Web.SyncLock

namespace MidenClient

open Std (ExtTreeMap)
open ListEntries

variable {Result : Type}

namespace SyncLock

/-! ### What is promised -/

/-- A caller that had to wait: the attempt that was in progress when it called has not ended and
the caller is unanswered, or it was given the end of that attempt, or its own timer expired. -/
def Answered (lock : SyncLock Result) (waiter : Call Result) : Prop :=
  ∃ (id : CallId) (attempt : Call Result), lock.calls[id]? = some attempt ∧
    attempt.role = .attempt ∧ attempt.generation = waiter.generation ∧
    (waiter.promise = attempt.attemptEnd ∨
      waiter.timedOut = true ∧ waiter.promise = some (.rejected timedOutError))

/-- What holds of a state, whatever led to it. -/
structure Coalesces (lock : SyncLock Result) : Prop where
  exclusive : ∀ first second, lock.holds first = true → lock.holds second = true → first = second
  generations : ∀ (first second : CallId) (attempt other : Call Result),
    lock.calls[first]? = some attempt → lock.calls[second]? = some other →
    attempt.role = .attempt → other.role = .attempt → attempt.generation = other.generation →
    first = second
  answered : ∀ waiter ∈ lock.calls, waiter.role = .waiter → lock.Answered waiter
  noWaiters : lock.state.inProgress = false → lock.state.waiters = []

/-- The request of the attempt in progress fails only before it was granted, and while no caller
waits for it. -/
def FailsUnawaited (lock : SyncLock Result) : LockEvent Result → Prop
  | .requestFails call _ => ∀ record, lock.calls[call]? = some record → record.request ≠ .none →
      lock.state.inProgress = true → record.generation = lock.state.syncGeneration →
      record.request = .pending ∧ lock.state.waiters = []
  | _ => True

/-! ### Calls after a step -/

@[simp]
theorem modifyCall_state (lock : SyncLock Result) (call : CallId)
    (change : Call Result → Call Result) : (lock.modifyCall call change).state = lock.state := rfl

theorem modifyCall_getElem? (lock : SyncLock Result) (call other : CallId)
    (change : Call Result → Call Result) :
    (lock.modifyCall call change).calls[other]? =
      lock.calls[other]?.map fun record => if call = other then change record else record := by
  unfold modifyCall
  by_cases same : call = other
  · subst same
    simp only [List.getElem?_modify_eq, if_pos, Option.map_eq_map]
  · simp only [List.getElem?_modify_ne _ _ same, if_neg same, Option.map_id']

theorem notify_notify (call : Call Result) (settlement : Settlement Result) :
    (call.notify settlement).notify settlement = call.notify settlement := by
  cases settled : call.promise <;> simp [Call.notify, Call.settle, settled]

theorem notify_promise {call : Call Result} (unanswered : call.promise = none)
    (settlement : Settlement Result) : (call.notify settlement).promise = some settlement := by
  rw [Call.notify, Call.settle, unanswered, Option.none_or]

theorem foldl_notify_getElem? (waiters : List CallId) (calls : List (Call Result))
    (settlement : Settlement Result) (other : CallId) :
    (waiters.foldl (fun calls waiter => calls.modify waiter fun call => call.notify settlement)
        calls)[other]? =
      calls[other]?.map fun call => if other ∈ waiters then call.notify settlement else call := by
  induction waiters generalizing calls with
  | nil => simp
  | cons waiter rest inductionHypothesis =>
    rw [List.foldl_cons, inductionHypothesis]
    by_cases same : waiter = other
    · subst same
      rw [List.getElem?_modify_eq, Option.map_eq_map, Option.map_map]
      refine congrArg (fun change => Option.map change calls[waiter]?) (funext fun call => ?_)
      simp only [Function.comp_apply, List.mem_cons_self, if_true, notify_notify, ite_self]
    · rw [List.getElem?_modify_ne _ _ same]
      refine congrArg (fun change => Option.map change calls[other]?) (funext fun call => ?_)
      simp only [List.mem_cons, Ne.symm same, false_or]

theorem settleWaiters_getElem? (lock : SyncLock Result) (settlement : Settlement Result)
    (other : CallId) :
    (lock.settleWaiters settlement).calls[other]? = lock.calls[other]?.map fun call =>
      if other ∈ lock.state.waiters then call.notify settlement else call :=
  foldl_notify_getElem? _ _ _ _

/-! ### The invariant -/

/-- A waiter is on the list until it is answered, and its timer is armed no longer. -/
structure WaiterOk (state : SyncState Result) (id : CallId) (call : Call Result) : Prop where
  waits : id ∈ state.waiters ↔ call.promise = none
  current : call.promise = none →
    state.inProgress = true ∧ call.generation = state.syncGeneration
  timer : call.timeoutId = true → call.promise = none
  request : call.request = .none
  notAcquired : call.promise ≠ some .acquired

/-- An attempt has not ended exactly while it is in progress. -/
structure AttemptOk (state : SyncState Result) (call : Call Result) : Prop where
  generation_le : call.generation ≤ state.syncGeneration
  current : call.attemptEnd = none ↔
    state.inProgress = true ∧ call.generation = state.syncGeneration
  timer : call.timeoutId = true → call.promise = none
  pending : call.request = .pending → call.timedOut = false → call.promise = none
  timedOut : call.timedOut = true → call.promise = some (.rejected timedOutError)
  released : call.released ≠ none → call.promise = some .acquired

theorem attemptEnd_ne_none_of_rejected {call : Call Result} {error : Thrown}
    (rejected : call.promise = some (.rejected error)) : call.attemptEnd ≠ none := by
  unfold Call.attemptEnd
  rw [rejected]
  rcases call.released with _ | _ | _ <;> exact nofun

/-- A waiter that is taken off the list with an answer. -/
theorem WaiterOk.told {state next : SyncState Result} {id : CallId} {call : Call Result}
    {settlement : Settlement Result} (ok : WaiterOk state id call) (waits : id ∈ state.waiters)
    (noWaiters : next.waiters = []) (notAcquired : settlement ≠ .acquired) :
    WaiterOk next id (call.notify settlement) := by
  have answer := notify_promise (ok.waits.mp waits) settlement
  refine ⟨?_, fun unanswered => ?_, (fun armed => nomatch armed), ok.request, fun acquired => ?_⟩
  · rw [noWaiters, answer]
    simp
  · rw [answer] at unanswered
    cases unanswered
  · rw [answer] at acquired
    exact notAcquired (Option.some.inj acquired)

/-- A waiter that had its answer before. -/
theorem WaiterOk.rests {state next : SyncState Result} {id : CallId} {call : Call Result}
    (ok : WaiterOk state id call) (answered : id ∉ state.waiters)
    (noWaiters : next.waiters = []) : WaiterOk next id call := by
  have settled : call.promise ≠ none := fun unanswered => answered (ok.waits.mpr unanswered)
  refine ⟨?_, fun unanswered => absurd unanswered settled, ok.timer, ok.request, ok.notAcquired⟩
  rw [noWaiters]
  exact ⟨fun member => absurd member List.not_mem_nil, fun unanswered => absurd unanswered settled⟩

/-- An attempt that had ended before. -/
theorem AttemptOk.rests {state next : SyncState Result} {call : Call Result}
    (ok : AttemptOk state call) (ended : call.attemptEnd ≠ none) (idle : next.inProgress = false)
    (syncGeneration : next.syncGeneration = state.syncGeneration) : AttemptOk next call where
  generation_le := syncGeneration ▸ ok.generation_le
  current := by
    rw [idle]
    exact ⟨fun running => absurd running ended, fun both => nomatch both.1⟩
  timer := ok.timer
  pending := ok.pending
  timedOut := ok.timedOut
  released := ok.released

def CallOk (state : SyncState Result) (id : CallId) (call : Call Result) : Prop :=
  match call.role with
  | .waiter => WaiterOk state id call
  | .attempt => AttemptOk state call

theorem CallOk.congr {state next : SyncState Result} {id : CallId} {call : Call Result}
    (ok : CallOk state id call) (inProgress : next.inProgress = state.inProgress)
    (waiters : next.waiters = state.waiters)
    (syncGeneration : next.syncGeneration = state.syncGeneration) : CallOk next id call := by
  cases kind : call.role with
  | waiter =>
    rw [CallOk, kind] at ok ⊢
    exact ⟨waiters ▸ ok.waits, inProgress ▸ syncGeneration ▸ ok.current, ok.timer, ok.request,
      ok.notAcquired⟩
  | attempt =>
    rw [CallOk, kind] at ok ⊢
    exact ⟨syncGeneration ▸ ok.generation_le, inProgress ▸ syncGeneration ▸ ok.current, ok.timer,
      ok.pending, ok.timedOut, ok.released⟩

structure Coordinated (lock : SyncLock Result) : Prop where
  callOk : ∀ id call, lock.calls[id]? = some call → CallOk lock.state id call
  waiterCalls : ∀ id ∈ lock.state.waiters, ∃ call, lock.calls[id]? = some call ∧
    call.role = .waiter
  waitersNodup : lock.state.waiters.Nodup
  generations : ∀ (first second : CallId) (attempt other : Call Result),
    lock.calls[first]? = some attempt → lock.calls[second]? = some other →
    attempt.role = .attempt → other.role = .attempt → attempt.generation = other.generation →
    first = second
  leader : lock.state.inProgress = true → ∃ (id : CallId) (call : Call Result),
    lock.calls[id]? = some call ∧ call.role = .attempt ∧
      call.generation = lock.state.syncGeneration
  answered : ∀ (id : CallId) call, lock.calls[id]? = some call → call.role = .waiter →
    lock.Answered call

/-- A waiter stays answered as long as the attempts end no differently. -/
theorem Answered.changed {lock next : SyncLock Result}
    {change : CallId → Call Result → Call Result} {waiter : Call Result}
    (answered : lock.Answered waiter)
    (calls : ∀ id : CallId, next.calls[id]? = lock.calls[id]?.map (change id))
    (kept : ∀ (id : CallId) call, lock.calls[id]? = some call → call.role = .attempt →
      (change id call).role = .attempt ∧ (change id call).generation = call.generation ∧
        (change id call).attemptEnd = call.attemptEnd) : next.Answered waiter := by
  obtain ⟨id, attempt, found, role, generation, answer⟩ := answered
  obtain ⟨sameRole, sameGeneration, sameEnd⟩ := kept id attempt found role
  refine ⟨id, change id attempt, by rw [calls, found, Option.map_some], sameRole,
    sameGeneration.trans generation, ?_⟩
  rwa [sameEnd]

theorem Answered.concat {lock : SyncLock Result} {waiter : Call Result}
    (answered : lock.Answered waiter) {state : SyncState Result} (call : Call Result) :
    (⟨state, lock.calls ++ [call]⟩ : SyncLock Result).Answered waiter := by
  obtain ⟨id, attempt, found, rest⟩ := answered
  exact ⟨id, attempt, getElem?_concat_of_some found, rest⟩

namespace Coordinated

variable {lock next : SyncLock Result} (coordinated : Coordinated lock)

include coordinated

theorem waiterOk {id : CallId} {call : Call Result} (found : lock.calls[id]? = some call)
    (waiter : call.role = .waiter) : WaiterOk lock.state id call := by
  have ok := coordinated.callOk id call found
  rwa [CallOk, waiter] at ok

theorem attemptOk {id : CallId} {call : Call Result} (found : lock.calls[id]? = some call)
    (attempt : call.role = .attempt) : AttemptOk lock.state call := by
  have ok := coordinated.callOk id call found
  rwa [CallOk, attempt] at ok

theorem noWaiters (idle : lock.state.inProgress = false) : lock.state.waiters = [] := by
  refine List.eq_nil_iff_forall_not_mem.mpr fun id member => ?_
  obtain ⟨call, found, waiter⟩ := coordinated.waiterCalls id member
  have ok := coordinated.waiterOk found waiter
  have busy := (ok.current (ok.waits.mp member)).1
  rw [idle] at busy
  cases busy

theorem notMem_waiters {id : CallId} {call : Call Result} (found : lock.calls[id]? = some call)
    (attempt : call.role = .attempt) : id ∉ lock.state.waiters := by
  intro member
  obtain ⟨same, again, waiter⟩ := coordinated.waiterCalls id member
  cases found.symm.trans again
  cases attempt.symm.trans waiter

theorem lt_length {id : CallId} (member : id ∈ lock.state.waiters) : id < lock.calls.length := by
  obtain ⟨call, found, -⟩ := coordinated.waiterCalls id member
  exact (List.getElem?_eq_some_iff.mp found).1

/-- A caller that holds the lock made the attempt in progress. -/
theorem current_of_holds {id : CallId} (held : lock.holds id = true) :
    ∃ call, lock.calls[id]? = some call ∧ call.role = .attempt ∧ call.promise = some .acquired ∧
      call.released = none ∧ lock.state.inProgress = true ∧
      call.generation = lock.state.syncGeneration := by
  unfold holds at held
  split at held
  case h_2 => cases held
  rename_i call found
  unfold Call.holds at held
  split at held
  case h_2 => cases held
  rename_i acquired
  have unreleased : call.released = none := Option.isNone_iff_eq_none.mp held
  cases role : call.role with
  | waiter => exact absurd acquired (coordinated.waiterOk found role).notAcquired
  | attempt =>
    have running : call.attemptEnd = none := by
      rw [Call.attemptEnd, unreleased, acquired]
    exact ⟨call, found, role, acquired, unreleased,
      (coordinated.attemptOk found role).current.mp running⟩

theorem coalesces : Coalesces lock where
  exclusive first second heldFirst heldSecond := by
    obtain ⟨_, foundFirst, roleFirst, -, -, -, currentFirst⟩ :=
      coordinated.current_of_holds heldFirst
    obtain ⟨_, foundSecond, roleSecond, -, -, -, currentSecond⟩ :=
      coordinated.current_of_holds heldSecond
    exact coordinated.generations _ _ _ _ foundFirst foundSecond roleFirst roleSecond
      (currentFirst.trans currentSecond.symm)
  generations := coordinated.generations
  answered waiter member role := by
    obtain ⟨id, found⟩ := List.getElem?_of_mem member
    exact coordinated.answered id waiter found role
  noWaiters := coordinated.noWaiters

/-! ### Steps that change calls -/

/-- Calls change, and none is added. What is left to show is that each call is as it should be
and that every waiter is answered. -/
theorem changed (change : CallId → Call Result → Call Result)
    (calls : ∀ id : CallId, next.calls[id]? = lock.calls[id]?.map (change id))
    (role : ∀ id call, (change id call).role = call.role)
    (generation : ∀ id call, (change id call).generation = call.generation)
    (waiters : next.state.waiters.Sublist lock.state.waiters)
    (progress : next.state.inProgress = true → lock.state.inProgress = true)
    (syncGeneration : next.state.syncGeneration = lock.state.syncGeneration)
    (callOk : ∀ (id : CallId) call, lock.calls[id]? = some call →
      CallOk next.state id (change id call))
    (answered : ∀ (id : CallId) call, lock.calls[id]? = some call → call.role = .waiter →
      next.Answered (change id call)) : Coordinated next where
  callOk id call found := by
    rw [calls] at found
    obtain ⟨old, was, rfl⟩ := Option.map_eq_some_iff.mp found
    exact callOk id old was
  waiterCalls id member := by
    obtain ⟨call, found, waiter⟩ := coordinated.waiterCalls id (waiters.subset member)
    exact ⟨change id call, by rw [calls, found, Option.map_some], (role id call).trans waiter⟩
  waitersNodup := coordinated.waitersNodup.sublist waiters
  generations first second attempt other foundFirst foundSecond roleFirst roleSecond same := by
    rw [calls] at foundFirst foundSecond
    obtain ⟨oldFirst, wasFirst, rfl⟩ := Option.map_eq_some_iff.mp foundFirst
    obtain ⟨oldSecond, wasSecond, rfl⟩ := Option.map_eq_some_iff.mp foundSecond
    rw [role] at roleFirst roleSecond
    rw [generation, generation] at same
    exact coordinated.generations _ _ _ _ wasFirst wasSecond roleFirst roleSecond same
  leader busy := by
    obtain ⟨id, call, found, attempt, current⟩ := coordinated.leader (progress busy)
    refine ⟨id, change id call, by rw [calls, found, Option.map_some], (role id call).trans attempt,
      ?_⟩
    rw [generation, current, syncGeneration]
  answered id call found waiter := by
    rw [calls] at found
    obtain ⟨old, was, rfl⟩ := Option.map_eq_some_iff.mp found
    exact answered id old was ((role id old).symm.trans waiter)

/-- The attempt in progress ends, and the callers that wait for it are told how. -/
theorem ended (finish : Call Result → Call Result) {id : CallId} {attempt : Call Result}
    {settlement : Settlement Result} (found : lock.calls[id]? = some attempt)
    (role : attempt.role = .attempt) (busy : lock.state.inProgress = true)
    (current : attempt.generation = lock.state.syncGeneration)
    (calls : ∀ other : CallId, next.calls[other]? = lock.calls[other]?.map fun call =>
      if id = other then finish call
      else if other ∈ lock.state.waiters then call.notify settlement else call)
    (sameRole : ∀ call, (finish call).role = call.role)
    (sameGeneration : ∀ call, (finish call).generation = call.generation)
    (idle : next.state.inProgress = false) (noWaiters : next.state.waiters = [])
    (syncGeneration : next.state.syncGeneration = lock.state.syncGeneration)
    (attemptEnd : (finish attempt).attemptEnd = some settlement)
    (notAcquired : settlement ≠ .acquired)
    (ok : AttemptOk next.state (finish attempt)) : Coordinated next := by
  refine coordinated.changed (fun other call => if id = other then finish call
    else if other ∈ lock.state.waiters then call.notify settlement else call) calls ?_ ?_
    (noWaiters ▸ List.nil_sublist _) (fun still => ?_) syncGeneration ?_ ?_
  · intro other call
    split
    · exact sameRole call
    · split <;> rfl
  · intro other call
    split
    · exact sameGeneration call
    · split <;> rfl
  · rw [idle] at still
    cases still
  · intro other call was
    by_cases same : id = other
    · subst same
      cases found.symm.trans was
      rw [if_pos rfl, CallOk, sameRole, role]
      exact ok
    rw [if_neg same]
    cases kind : call.role with
    | waiter =>
      have before := coordinated.waiterOk was kind
      by_cases waits : other ∈ lock.state.waiters
      · rw [if_pos waits, CallOk, show (call.notify settlement).role = .waiter from kind]
        exact before.told waits noWaiters notAcquired
      · rw [if_neg waits, CallOk, kind]
        exact before.rests waits noWaiters
    | attempt =>
      have before := coordinated.attemptOk was kind
      rw [if_neg (coordinated.notMem_waiters was kind), CallOk, kind]
      refine before.rests (fun running => same ?_) idle syncGeneration
      exact coordinated.generations _ _ _ _ found was role kind
        (current.trans (before.current.mp running).2.symm)
  · intro other call was waiter
    have answeredByEnd : ∀ {told : Call Result}, told.generation = lock.state.syncGeneration →
        (told.promise = some settlement ∨
          told.timedOut = true ∧ told.promise = some (.rejected timedOutError)) →
        next.Answered told := by
      intro told generation answer
      refine ⟨id, finish attempt, by rw [calls, found, Option.map_some, if_pos rfl],
        (sameRole _).trans role, (sameGeneration _).trans (current.trans generation.symm), ?_⟩
      rw [attemptEnd]
      exact answer
    have before := coordinated.waiterOk was waiter
    have notItself : id ≠ other := by
      rintro rfl
      cases found.symm.trans was
      cases role.symm.trans waiter
    rw [if_neg notItself]
    by_cases waits : other ∈ lock.state.waiters
    · have unanswered := before.waits.mp waits
      rw [if_pos waits]
      exact answeredByEnd (before.current unanswered).2
        (Or.inl (notify_promise unanswered settlement))
    rw [if_neg waits]
    obtain ⟨earlier, first, firstFound, firstRole, generation, answer⟩ :=
      coordinated.answered other call was waiter
    by_cases same : id = earlier
    -- The attempt had not ended, so a waiter that was answered had its own timer expire.
    · subst same
      cases found.symm.trans firstFound
      refine answeredByEnd (generation.symm.trans current) (Or.inr ?_)
      refine answer.resolve_left fun answer => waits (before.waits.mpr (answer.trans ?_))
      exact (coordinated.attemptOk found role).current.mpr ⟨busy, current⟩
    · refine ⟨earlier, first, ?_, firstRole, generation, answer⟩
      rw [calls, firstFound, Option.map_some, if_neg same,
        if_neg (coordinated.notMem_waiters firstFound firstRole)]

/-! ### Acquiring -/

theorem joinWaiters (busy : lock.state.inProgress = true) (timeoutMs : ℕ) :
    Coordinated (lock.joinWaiters timeoutMs) where
  callOk id call found := by
    rcases getElem?_concat_cases found with was | ⟨rfl, rfl⟩
    · have bound := (List.getElem?_eq_some_iff.mp was).1
      cases kind : call.role with
      | waiter =>
        have before := coordinated.waiterOk was kind
        rw [CallOk, kind]
        refine ⟨?_, before.current, before.timer, before.request, before.notAcquired⟩
        rw [← before.waits, SyncLock.joinWaiters, List.mem_append, List.mem_singleton,
          or_iff_left (Nat.ne_of_lt bound)]
      | attempt =>
        rw [CallOk, kind]
        exact { coordinated.attemptOk was kind with }
    · rw [CallOk]
      exact ⟨⟨fun _ => rfl, fun _ => List.mem_append_right _ (List.mem_singleton_self _)⟩,
        fun _ => ⟨busy, rfl⟩, fun _ => rfl, rfl, nofun⟩
  waiterCalls id member := by
    rcases List.mem_append.mp member with waits | new
    · obtain ⟨call, found, waiter⟩ := coordinated.waiterCalls id waits
      exact ⟨call, getElem?_concat_of_some found, waiter⟩
    · cases List.mem_singleton.mp new
      exact ⟨_, List.getElem?_concat_length, rfl⟩
  waitersNodup := by
    refine List.nodup_append.mpr ⟨coordinated.waitersNodup, List.nodup_singleton _, ?_⟩
    rintro id waits _ new rfl
    cases List.mem_singleton.mp new
    exact Nat.lt_irrefl _ (coordinated.lt_length waits)
  generations first second attempt other foundFirst foundSecond roleFirst roleSecond same := by
    rcases getElem?_concat_cases foundFirst with wasFirst | ⟨rfl, rfl⟩
    · rcases getElem?_concat_cases foundSecond with wasSecond | ⟨rfl, rfl⟩
      · exact coordinated.generations _ _ _ _ wasFirst wasSecond roleFirst roleSecond same
      · cases roleSecond
    · cases roleFirst
  leader _ := by
    obtain ⟨id, call, found, attempt, current⟩ := coordinated.leader busy
    exact ⟨id, call, getElem?_concat_of_some found, attempt, current⟩
  answered id call found waiter := by
    rcases getElem?_concat_cases found with was | ⟨rfl, rfl⟩
    · exact (coordinated.answered id call was waiter).concat _
    · obtain ⟨id, leader, was, attempt, current⟩ := coordinated.leader busy
      refine ⟨id, leader, getElem?_concat_of_some was, attempt, current, Or.inl ?_⟩
      exact ((coordinated.attemptOk was attempt).current.mpr ⟨busy, current⟩).symm

theorem beginAttempt (idle : lock.state.inProgress = false) (timeoutMs : ℕ)
    (hasWebLocks : Bool) : Coordinated (lock.beginAttempt timeoutMs hasWebLocks) where
  callOk id call found := by
    rcases getElem?_concat_cases found with was | ⟨rfl, rfl⟩
    · cases kind : call.role with
      | waiter =>
        have before := coordinated.waiterOk was kind
        rw [CallOk, kind]
        refine ⟨before.waits, fun unanswered => ?_, before.timer, before.request,
          before.notAcquired⟩
        have busy := (before.current unanswered).1
        rw [idle] at busy
        cases busy
      | attempt =>
        have before := coordinated.attemptOk was kind
        rw [CallOk, kind]
        refine { before with
          generation_le := Nat.le_succ_of_le before.generation_le, current := ?_ }
        refine ⟨fun running => ?_, fun both => ?_⟩
        · have busy := (before.current.mp running).1
          rw [idle] at busy
          cases busy
        · exact absurd (both.2 ▸ before.generation_le) (Nat.not_succ_le_self _)
    · rw [CallOk]
      cases hasWebLocks
      · exact ⟨le_refl _, ⟨fun _ => ⟨rfl, rfl⟩, fun _ => rfl⟩, nofun, nofun, nofun, fun _ => rfl⟩
      · exact ⟨le_refl _, ⟨fun _ => ⟨rfl, rfl⟩, fun _ => rfl⟩, fun _ => rfl, fun _ _ => rfl, nofun,
          fun absent => absurd rfl absent⟩
  waiterCalls id member := by
    obtain ⟨call, found, waiter⟩ := coordinated.waiterCalls id member
    exact ⟨call, getElem?_concat_of_some found, waiter⟩
  waitersNodup := coordinated.waitersNodup
  generations first second attempt other foundFirst foundSecond roleFirst roleSecond same := by
    rcases getElem?_concat_cases foundFirst with wasFirst | ⟨rfl, rfl⟩ <;>
      rcases getElem?_concat_cases foundSecond with wasSecond | ⟨rfl, rfl⟩
    · exact coordinated.generations _ _ _ _ wasFirst wasSecond roleFirst roleSecond same
    · exact absurd (same ▸ (coordinated.attemptOk wasFirst roleFirst).generation_le)
        (Nat.not_succ_le_self _)
    · exact absurd (same.symm ▸ (coordinated.attemptOk wasSecond roleSecond).generation_le)
        (Nat.not_succ_le_self _)
    · rfl
  leader _ := ⟨_, _, List.getElem?_concat_length, rfl, rfl⟩
  answered id call found waiter := by
    rcases getElem?_concat_cases found with was | ⟨rfl, rfl⟩
    · exact (coordinated.answered id call was waiter).concat _
    · cases waiter

theorem acquireSyncLock (timeoutMs : ℕ) (hasWebLocks : Bool) :
    Coordinated (lock.acquireSyncLock timeoutMs hasWebLocks) := by
  unfold SyncLock.acquireSyncLock
  split
  · rename_i busy
    exact coordinated.joinWaiters busy timeoutMs
  · rename_i idle
    exact coordinated.beginAttempt (Bool.eq_false_of_not_eq_true idle) timeoutMs hasWebLocks

/-! ### Timers -/

theorem waiterTimedOut {id : CallId} {call : Call Result} (found : lock.calls[id]? = some call)
    (waiter : call.role = .waiter) (armed : call.timeoutId = true) :
    Coordinated (lock.waiterTimedOut id) := by
  have ok := coordinated.waiterOk found waiter
  have unanswered := ok.timer armed
  have answer : call.expire.promise = some (.rejected timedOutError) := by
    rw [Call.expire, Call.settle, unanswered, Option.none_or]
  refine coordinated.changed _ (fun other => modifyCall_getElem? _ id other _) ?_ ?_
    List.erase_sublist (fun busy => busy) rfl ?_ ?_
  · intro other record
    split <;> rfl
  · intro other record
    split <;> rfl
  · intro other record was
    by_cases same : id = other
    · subst same
      cases found.symm.trans was
      rw [if_pos rfl, CallOk, show call.expire.role = .waiter from waiter]
      refine ⟨?_, ?_, nofun, ok.request, ?_⟩
      · rw [answer]
        refine ⟨fun member => ?_, nofun⟩
        exact absurd rfl ((coordinated.waitersNodup.mem_erase_iff).mp member).1
      · rw [answer]
        exact nofun
      · rw [answer]
        exact nofun
    · rw [if_neg same]
      cases kind : record.role with
      | waiter =>
        have before := coordinated.waiterOk was kind
        rw [CallOk, kind]
        refine ⟨?_, before.current, before.timer, before.request, before.notAcquired⟩
        rw [← before.waits]
        exact List.mem_erase_of_ne (Ne.symm same)
      | attempt =>
        rw [CallOk, kind]
        exact { coordinated.attemptOk was kind with }
  · intro other record was kind
    have before := coordinated.answered other record was kind
    have kept : (lock.waiterTimedOut id).Answered record := by
      refine before.changed (fun other => modifyCall_getElem? _ id other _) ?_
      intro earlier attempt attemptFound role
      by_cases same : id = earlier
      · subst same
        cases found.symm.trans attemptFound
        cases waiter.symm.trans role
      · rw [if_neg same]
        exact ⟨role, rfl, rfl⟩
    by_cases same : id = other
    · subst same
      cases found.symm.trans was
      rw [if_pos rfl]
      obtain ⟨earlier, attempt, attemptFound, role, generation, -⟩ := kept
      exact ⟨earlier, attempt, attemptFound, role, generation, Or.inr ⟨rfl, answer⟩⟩
    · rw [if_neg same]
      exact kept

/-- An attempt that has not ended is the one in progress. -/
theorem running_of_unsettled {id : CallId} {call : Call Result}
    (found : lock.calls[id]? = some call) (attempt : call.role = .attempt)
    (unsettled : call.promise = none) :
    call.released = none ∧ lock.state.inProgress = true ∧
      call.generation = lock.state.syncGeneration := by
  have ok := coordinated.attemptOk found attempt
  have unreleased : call.released = none := by
    by_contra released
    exact absurd (unsettled.symm.trans (ok.released released)) nofun
  refine ⟨unreleased, ok.current.mp ?_⟩
  rw [Call.attemptEnd, unreleased, unsettled]

/-- An attempt whose promise is rejected has ended so. -/
theorem rejected (finish : Call Result → Call Result) {id : CallId} {call : Call Result}
    {error : Thrown} (found : lock.calls[id]? = some call) (attempt : call.role = .attempt)
    (unsettled : call.promise = none)
    (calls : ∀ other : CallId, next.calls[other]? = lock.calls[other]?.map fun call =>
      if id = other then finish call
      else if other ∈ lock.state.waiters then call.notify (.rejected error) else call)
    (finishes : ∀ call, (finish call).role = call.role ∧
      (finish call).generation = call.generation ∧ (finish call).released = call.released ∧
      (finish call).timeoutId = false ∧
      (finish call).promise = call.promise.or (some (.rejected error)))
    (cause : (finish call).request = .none ∨ (finish call).timedOut = true)
    (timedOut : (finish call).timedOut = true → error = timedOutError)
    (idle : next.state.inProgress = false) (noWaiters : next.state.waiters = [])
    (syncGeneration : next.state.syncGeneration = lock.state.syncGeneration) :
    Coordinated next := by
  obtain ⟨unreleased, busy, current⟩ := coordinated.running_of_unsettled found attempt unsettled
  obtain ⟨-, generation, released, timer, promise⟩ := finishes call
  rw [unreleased] at released
  rw [unsettled, Option.none_or] at promise
  have attemptEnd : (finish call).attemptEnd = some (.rejected error) := by
    rw [Call.attemptEnd, released, promise]
  refine coordinated.ended finish found attempt busy current calls (fun call => (finishes call).1)
    (fun call => (finishes call).2.1) idle noWaiters syncGeneration attemptEnd nofun ?_
  refine ⟨?_, ?_, fun armed => ?_, fun pending early => ?_, fun late => ?_, fun some => ?_⟩
  · rw [generation, syncGeneration, current]
  · rw [attemptEnd, idle]
    exact ⟨nofun, fun both => nomatch both.1⟩
  · cases timer.symm.trans armed
  · rcases cause with none | late
    · cases none.symm.trans pending
    · cases late.symm.trans early
  · rw [promise, timedOut late]
  · exact absurd released some

theorem attemptTimedOut {id : CallId} {call : Call Result} (found : lock.calls[id]? = some call)
    (attempt : call.role = .attempt) (armed : call.timeoutId = true) :
    Coordinated (lock.attemptTimedOut id call.generation) := by
  have unsettled := (coordinated.attemptOk found attempt).timer armed
  have current := (coordinated.running_of_unsettled found attempt unsettled).2.2
  have notWaiting := coordinated.notMem_waiters found attempt
  unfold SyncLock.attemptTimedOut
  rw [if_pos current.symm]
  refine coordinated.rejected Call.expire found attempt unsettled ?_
    (fun record => ⟨rfl, rfl, rfl, rfl, rfl⟩) (Or.inr rfl) (fun _ => rfl) rfl rfl rfl
  intro other
  rw [modifyCall_getElem?, settleWaiters_getElem?, Option.map_map]
  refine congrArg (fun change => Option.map change lock.calls[other]?) (funext fun record => ?_)
  rw [Function.comp_apply]
  by_cases same : id = other
  · subst same
    rw [if_pos rfl, if_pos rfl, if_neg notWaiting]
  · rw [if_neg same, if_neg same]

theorem timerExpires (id : CallId) : Coordinated (lock.timerExpires id) := by
  unfold SyncLock.timerExpires
  split
  · rename_i call found
    split
    · rename_i armed
      split
      · rename_i waiter
        exact coordinated.waiterTimedOut found waiter armed
      · rename_i attempt
        exact coordinated.attemptTimedOut found attempt armed
    · exact coordinated
  · exact coordinated

/-! ### Web Locks -/

/-- An attempt changes without ending or starting again, and nothing else does. -/
theorem attemptChanged (change : Call Result → Call Result) {id : CallId} {call : Call Result}
    (found : lock.calls[id]? = some call) (attempt : call.role = .attempt)
    (calls : ∀ other : CallId, next.calls[other]? = lock.calls[other]?.map fun call =>
      if id = other then change call else call)
    (sameRole : ∀ call, (change call).role = call.role)
    (sameGeneration : ∀ call, (change call).generation = call.generation)
    (sameEnd : (change call).attemptEnd = call.attemptEnd)
    (inProgress : next.state.inProgress = lock.state.inProgress)
    (waiters : next.state.waiters = lock.state.waiters)
    (syncGeneration : next.state.syncGeneration = lock.state.syncGeneration)
    (ok : AttemptOk lock.state (change call)) : Coordinated next := by
  refine coordinated.changed _ calls ?_ ?_ (waiters ▸ List.Sublist.refl _)
    (fun busy => inProgress ▸ busy) syncGeneration ?_ ?_
  · intro other record
    split
    · exact sameRole record
    · rfl
  · intro other record
    split
    · exact sameGeneration record
    · rfl
  · intro other record was
    refine CallOk.congr ?_ inProgress waiters syncGeneration
    by_cases same : id = other
    · subst same
      cases found.symm.trans was
      rw [if_pos rfl, CallOk, sameRole, attempt]
      exact ok
    · rw [if_neg same]
      exact coordinated.callOk other record was
  · intro other record was waiter
    have notItself : id ≠ other := by
      rintro rfl
      cases found.symm.trans was
      cases attempt.symm.trans waiter
    rw [if_neg notItself]
    refine (coordinated.answered other record was waiter).changed calls ?_
    intro earlier first firstFound role
    by_cases same : id = earlier
    · subst same
      cases found.symm.trans firstFound
      rw [if_pos rfl]
      exact ⟨(sameRole _).trans role, sameGeneration _, sameEnd⟩
    · rw [if_neg same]
      exact ⟨role, rfl, rfl⟩

/-- Giving a lock back is of no consequence for the calls. -/
theorem dropRequest (state : SyncState Result)
    (inProgress : state.inProgress = lock.state.inProgress)
    (waiters : state.waiters = lock.state.waiters)
    (syncGeneration : state.syncGeneration = lock.state.syncGeneration) (id : CallId) :
    Coordinated (modifyCall { lock with state := state } id Call.giveBack) := by
  refine coordinated.changed _ (fun other => modifyCall_getElem? _ id other _) ?_ ?_
    (waiters ▸ List.Sublist.refl _) (fun busy => inProgress ▸ busy) syncGeneration ?_ ?_
  · intro other record
    split <;> rfl
  · intro other record
    split <;> rfl
  · intro other record was
    refine CallOk.congr ?_ inProgress waiters syncGeneration
    split
    · have ok := coordinated.callOk other record was
      rw [CallOk] at ok ⊢
      cases kind : record.role with
      | waiter =>
        rw [kind] at ok
        rw [show record.giveBack.role = .waiter from kind]
        exact { ok with request := rfl }
      | attempt =>
        rw [kind] at ok
        rw [show record.giveBack.role = .attempt from kind]
        exact { ok with pending := nofun }
    · exact coordinated.callOk other record was
  · intro other record was waiter
    have kept := (coordinated.answered other record was waiter).changed
      (fun other => modifyCall_getElem? { lock with state := state } id other Call.giveBack)
      (fun earlier attempt _ role => by split <;> exact ⟨role, rfl, rfl⟩)
    split
    · exact kept
    · exact kept

theorem lockGranted (id : CallId) : Coordinated (lock.lockGranted id) := by
  unfold SyncLock.lockGranted
  split
  case h_2 => exact coordinated
  rename_i call found
  split
  case isFalse => exact coordinated
  rename_i pending
  split
  · exact coordinated.dropRequest lock.state rfl rfl rfl id
  · rename_i fresh
    rw [Bool.or_eq_true, not_or, Bool.not_eq_true] at fresh
    cases kind : call.role with
    | waiter => cases (coordinated.waiterOk found kind).request.symm.trans pending
    | attempt =>
      have ok := coordinated.attemptOk found kind
      have unsettled := ok.pending pending fresh.1
      obtain ⟨unreleased, busy, current⟩ := coordinated.running_of_unsettled found kind unsettled
      have granted : call.grant.promise = some .acquired := by
        rw [Call.grant, Call.settle, unsettled, Option.none_or]
      have running : call.grant.attemptEnd = none := by
        rw [Call.attemptEnd, granted, show call.grant.released = none from unreleased]
      refine coordinated.attemptChanged Call.grant found kind
        (fun other => modifyCall_getElem? _ id other _) (fun _ => rfl) (fun _ => rfl) ?_ rfl rfl rfl
        ?_
      · rw [running, Call.attemptEnd, unreleased, unsettled]
      · refine ⟨ok.generation_le, ?_, nofun, nofun, fun late => ?_, fun _ => granted⟩
        · rw [running]
          exact ⟨fun _ => ⟨busy, current⟩, fun _ => rfl⟩
        · cases fresh.1.symm.trans late

/-- A request that fails ends the attempt in progress; the condition says that nobody waits. -/
theorem requestFails {id : CallId} {error : Thrown}
    (condition : lock.FailsUnawaited (.requestFails id error)) :
    Coordinated (lock.requestFails id error) := by
  unfold SyncLock.requestFails
  split
  case h_2 => exact coordinated
  rename_i call found
  split
  case isTrue => exact coordinated
  rename_i requested
  cases kind : call.role with
  | waiter => exact absurd (coordinated.waiterOk found kind).request requested
  | attempt =>
    have ok := coordinated.attemptOk found kind
    cases promise : call.promise with
    | none =>
      obtain ⟨-, busy, current⟩ := coordinated.running_of_unsettled found kind promise
      have noWaiters := (condition call found requested busy current).2
      dsimp only
      rw [if_pos current.symm]
      refine coordinated.rejected (fun record => record.refuse error) found kind promise ?_
        (fun record => ⟨rfl, rfl, rfl, rfl, rfl⟩) (Or.inl rfl) (fun late => ?_) rfl noWaiters rfl
      · intro other
        rw [modifyCall_getElem?, noWaiters]
        simp only [List.not_mem_nil, if_false]
      · exact absurd (promise.symm.trans (ok.timedOut late)) nofun
    | some settlement =>
      have ended : call.attemptEnd ≠ none := by
        intro running
        obtain ⟨busy, current⟩ := ok.current.mp running
        have pending := (condition call found requested busy current).1
        cases late : call.timedOut with
        | false => cases promise.symm.trans (ok.pending pending late)
        | true => exact attemptEnd_ne_none_of_rejected (ok.timedOut late) running
      have idle : lock.state.syncGeneration = call.generation → lock.state.inProgress = false :=
        fun current => Bool.eq_false_of_not_eq_true fun busy =>
          ended (ok.current.mpr ⟨busy, current.symm⟩)
      have refused : (call.refuse error).promise = call.promise := by
        rw [Call.refuse, Call.settle, promise, Option.some_or]
      have sameEnd : (call.refuse error).attemptEnd = call.attemptEnd := by
        rw [Call.attemptEnd, refused]
        rfl
      refine coordinated.attemptChanged (fun record => record.refuse error) found kind
        (fun other => modifyCall_getElem? _ id other _) (fun _ => rfl) (fun _ => rfl) sameEnd
        ?_ ?_ ?_ ?_
      · rw [modifyCall_state]
        split
        · rename_i current
          exact (idle current).symm
        · rfl
      · rw [modifyCall_state]
        split <;> rfl
      · rw [modifyCall_state]
        split <;> rfl
      · refine ⟨ok.generation_le, sameEnd ▸ ok.current, nofun, nofun, ?_, ?_⟩
        · rw [refused]
          exact ok.timedOut
        · rw [refused]
          exact ok.released

omit coordinated in
/-- While callers wait, the failure leaves them on the list of a sync that is over. -/
theorem not_coalesces_requestFails {id : CallId} {call : Call Result} (error : Thrown)
    (found : lock.calls[id]? = some call) (requested : call.request ≠ .none)
    (current : call.generation = lock.state.syncGeneration) (awaited : lock.state.waiters ≠ []) :
    ¬(lock.requestFails id error).Coalesces := by
  intro coalesces
  refine awaited ?_
  have failed : lock.requestFails id error =
      modifyCall { lock with state := { lock.state with inProgress := false } } id
        fun record => record.refuse error := by
    unfold SyncLock.requestFails
    simp only [found, if_neg requested, current, if_true]
  rw [failed] at coalesces
  exact coalesces.noWaiters rfl

/-! ### Releasing -/

theorem giveBack : Coordinated lock.giveBack := by
  unfold SyncLock.giveBack
  split
  · rename_i call _
    exact coordinated.dropRequest { lock.state with releaseLock := none } rfl rfl rfl call
  · exact coordinated

/-- The holder of the lock ends its attempt. -/
theorem releasedWith {id : CallId} (held : lock.holds id = true) (outcome : Except Thrown Result)
    (settlement : Settlement Result) (state : SyncState Result) (told : settlement ≠ .acquired)
    (answer : ∀ call : Call Result, (call.release outcome).attemptEnd = some settlement)
    (idle : state.inProgress = false) (waiters : state.waiters = lock.state.waiters)
    (syncGeneration : state.syncGeneration = lock.state.syncGeneration) :
    Coordinated (settleWaiters
      { lock.modifyCall id (fun record => record.release outcome) with state := state }
      settlement) := by
  obtain ⟨call, found, attempt, acquired, unreleased, busy, current⟩ :=
    coordinated.current_of_holds held
  have ok := coordinated.attemptOk found attempt
  refine coordinated.ended (fun record => record.release outcome) found attempt busy current ?_
    (fun _ => rfl) (fun _ => rfl) idle rfl syncGeneration (answer call) told ?_
  · intro other
    rw [settleWaiters_getElem?]
    change Option.map _ (lock.modifyCall id _).calls[other]? = _
    rw [modifyCall_getElem?, Option.map_map]
    refine congrArg (fun change => Option.map change lock.calls[other]?) (funext fun record => ?_)
    change (if other ∈ state.waiters then _ else _) = _
    rw [waiters]
    by_cases same : id = other
    · subst same
      rw [if_neg (coordinated.notMem_waiters found attempt), if_pos rfl, if_pos rfl]
    · simp only [if_neg same]
  · refine ⟨syncGeneration ▸ ok.generation_le, ?_, ok.timer, ok.pending, ok.timedOut,
      fun _ => acquired⟩
    rw [answer call]
    exact ⟨nofun, fun both => nomatch idle.symm.trans both.1⟩

theorem step {event : LockEvent Result} (condition : lock.FailsUnawaited event) :
    Coordinated (lock.step event) := by
  cases event with
  | acquire timeoutMs hasWebLocks => exact coordinated.acquireSyncLock timeoutMs hasWebLocks
  | timerExpires id => exact coordinated.timerExpires id
  | lockGranted id => exact coordinated.lockGranted id
  | requestFails id error => exact coordinated.requestFails condition
  | release id result =>
    rw [SyncLock.step]
    split
    · rename_i held
      have busy := (coordinated.current_of_holds held).choose_spec.2.2.2.2.1
      unfold releaseSyncLock
      rw [modifyCall_state, if_pos busy]
      exact (coordinated.releasedWith held (.ok result) (.coalesced result)
        { lock.state with result := some result, inProgress := false } nofun (fun _ => rfl)
        rfl rfl rfl).giveBack
    · exact coordinated
  | releaseWithError id error =>
    rw [SyncLock.step]
    split
    · rename_i held
      have busy := (coordinated.current_of_holds held).choose_spec.2.2.2.2.1
      unfold releaseSyncLockWithError
      rw [modifyCall_state, if_pos busy]
      exact (coordinated.releasedWith held (.error error) (.rejected error)
        { lock.state with error := some error, inProgress := false } nofun (fun _ => rfl)
        rfl rfl rfl).giveBack
    · exact coordinated

end Coordinated

theorem coordinated_initial : Coordinated (initial : SyncLock Result) where
  callOk _ _ found := nomatch found
  waiterCalls _ member := nomatch member
  waitersNodup := List.nodup_nil
  generations _ _ _ _ found := nomatch found
  leader busy := nomatch busy
  answered _ _ found := nomatch found

/-! ### Promises stay settled -/

/-- Promises that are settled in one state are settled alike in the other. -/
def KeepsPromises (lock next : SyncLock Result) : Prop :=
  ∀ (id : CallId) (call : Call Result) settlement, lock.calls[id]? = some call →
    call.promise = some settlement →
    ∃ later, next.calls[id]? = some later ∧ later.promise = some settlement

theorem KeepsPromises.refl (lock : SyncLock Result) : KeepsPromises lock lock :=
  fun _ call _ found settled => ⟨call, found, settled⟩

theorem KeepsPromises.trans {first second third : SyncLock Result}
    (left : KeepsPromises first second) (right : KeepsPromises second third) :
    KeepsPromises first third := by
  intro id call settlement found settled
  obtain ⟨middle, middleFound, middleSettled⟩ := left id call settlement found settled
  exact right id middle settlement middleFound middleSettled

theorem settle_keepsPromise (call : Call Result) (settlement : Settlement Result) :
    ∀ settled, call.promise = some settled → (call.settle settlement).promise = some settled := by
  intro settled promise
  rw [Call.settle, promise, Option.some_or]

theorem modifyCall_keepsPromises (lock : SyncLock Result) (state : SyncState Result) (id : CallId)
    (change : Call Result → Call Result)
    (keeps : ∀ call settled, call.promise = some settled → (change call).promise = some settled) :
    KeepsPromises lock (modifyCall ⟨state, lock.calls⟩ id change) := by
  intro other call settlement found settled
  refine ⟨if id = other then change call else call, ?_, ?_⟩
  · rw [modifyCall_getElem?, found, Option.map_some]
  · split
    · exact keeps call settlement settled
    · exact settled

theorem settleWaiters_keepsPromises (lock : SyncLock Result) (state : SyncState Result)
    (settlement : Settlement Result) :
    KeepsPromises lock (settleWaiters ⟨state, lock.calls⟩ settlement) := by
  intro other call earlier found settled
  refine ⟨if other ∈ state.waiters then call.notify settlement else call, ?_, ?_⟩
  · rw [settleWaiters_getElem?, found, Option.map_some]
  · split
    · exact settle_keepsPromise { call with timeoutId := false } settlement earlier settled
    · exact settled

theorem giveBack_keepsPromises (lock : SyncLock Result) : KeepsPromises lock lock.giveBack := by
  unfold giveBack
  split
  · exact modifyCall_keepsPromises lock _ _ _ fun _ _ settled => settled
  · exact .refl lock

theorem acquireSyncLock_keepsPromises (lock : SyncLock Result) (timeoutMs : ℕ)
    (hasWebLocks : Bool) : KeepsPromises lock (lock.acquireSyncLock timeoutMs hasWebLocks) := by
  intro id call settlement found settled
  unfold acquireSyncLock
  split <;> exact ⟨call, getElem?_concat_of_some found, settled⟩

theorem timerExpires_keepsPromises (lock : SyncLock Result) (id : CallId) :
    KeepsPromises lock (lock.timerExpires id) := by
  have expires : ∀ (call : Call Result) settled, call.promise = some settled →
      call.expire.promise = some settled := fun _ => settle_keepsPromise _ _
  unfold timerExpires
  split
  case h_2 => exact .refl lock
  split
  case isFalse => exact .refl lock
  split
  · exact modifyCall_keepsPromises lock _ _ _ expires
  · unfold attemptTimedOut
    dsimp only
    split
    · exact (settleWaiters_keepsPromises lock _ _).trans
        (modifyCall_keepsPromises _ _ _ _ expires)
    · exact modifyCall_keepsPromises lock _ _ _ expires

theorem lockGranted_keepsPromises (lock : SyncLock Result) (id : CallId) :
    KeepsPromises lock (lock.lockGranted id) := by
  unfold lockGranted
  split
  case h_2 => exact .refl lock
  split
  case isFalse => exact .refl lock
  split
  · exact modifyCall_keepsPromises lock _ _ _ fun _ _ settled => settled
  · exact modifyCall_keepsPromises lock _ _ _ fun _ => settle_keepsPromise _ _

theorem requestFails_keepsPromises (lock : SyncLock Result) (id : CallId) (error : Thrown) :
    KeepsPromises lock (lock.requestFails id error) := by
  unfold requestFails
  split
  case h_2 => exact .refl lock
  split
  · exact .refl lock
  · exact modifyCall_keepsPromises lock _ _ _ fun _ => settle_keepsPromise _ _

theorem release_keepsPromises (lock : SyncLock Result) (id : CallId)
    (outcome : Except Thrown Result) :
    KeepsPromises lock (lock.modifyCall id fun record => record.release outcome) :=
  modifyCall_keepsPromises lock lock.state id _ fun _ _ settled => settled

theorem step_keepsPromises (lock : SyncLock Result) (event : LockEvent Result) :
    KeepsPromises lock (lock.step event) := by
  cases event with
  | acquire timeoutMs hasWebLocks => exact lock.acquireSyncLock_keepsPromises _ _
  | timerExpires id => exact lock.timerExpires_keepsPromises id
  | lockGranted id => exact lock.lockGranted_keepsPromises id
  | requestFails id error => exact lock.requestFails_keepsPromises id error
  | release id result =>
    rw [step]
    split
    · refine (lock.release_keepsPromises id (.ok result)).trans ?_
      unfold releaseSyncLock
      split
      · exact (settleWaiters_keepsPromises _ _ _).trans (giveBack_keepsPromises _)
      · exact .refl _
    · exact .refl lock
  | releaseWithError id error =>
    rw [step]
    split
    · refine (lock.release_keepsPromises id (.error error)).trans ?_
      unfold releaseSyncLockWithError
      split
      · exact (settleWaiters_keepsPromises _ _ _).trans (giveBack_keepsPromises _)
      · exact .refl _
    · exact .refl lock

end SyncLock

/-! ### Runs over all databases -/

namespace SyncLocks

open SyncLock

/-- The states after a run. -/
def run (events : List (String × LockEvent Result)) : SyncLocks Result :=
  events.foldl step ∅

/-- The condition on the requests of one database. -/
def FailsUnawaited (dbId : String) (locks : SyncLocks Result)
    (event : String × LockEvent Result) : Prop :=
  event.1 = dbId → (locks.getSyncState dbId).FailsUnawaited event.2

theorem step_getSyncState (locks : SyncLocks Result) (event : String × LockEvent Result)
    (dbId : String) :
    (locks.step event).getSyncState dbId =
      if event.1 = dbId then (locks.getSyncState dbId).step event.2
      else locks.getSyncState dbId := by
  unfold step
  by_cases same : event.1 = dbId
  · subst same
    rw [if_pos rfl, getSyncState, ExtTreeMap.getElem?_insert_self, Option.getD_some]
  · rw [if_neg same, getSyncState, ExtTreeMap.getElem?_insert,
      if_neg fun equal => same (Std.compare_eq_iff_eq.mp equal), getSyncState]

@[simp]
theorem getSyncState_empty (dbId : String) :
    getSyncState (∅ : SyncLocks Result) dbId = .initial := by
  rw [getSyncState, ExtTreeMap.getElem?_empty, Option.getD_none]

theorem step_coordinated (dbId : String) (locks : SyncLocks Result)
    (event : String × LockEvent Result) (coordinated : (locks.getSyncState dbId).Coordinated)
    (condition : FailsUnawaited dbId locks event) :
    ((locks.step event).getSyncState dbId).Coordinated := by
  rw [step_getSyncState]
  split
  · rename_i same
    exact coordinated.step (condition same)
  · exact coordinated

theorem foldl_keepsPromises (dbId : String) (events : List (String × LockEvent Result))
    (locks : SyncLocks Result) :
    KeepsPromises (locks.getSyncState dbId) ((events.foldl step locks).getSyncState dbId) := by
  induction events generalizing locks with
  | nil => exact .refl _
  | cons event rest inductionHypothesis =>
    refine KeepsPromises.trans ?_ (inductionHypothesis (locks.step event))
    rw [step_getSyncState]
    split
    · exact step_keepsPromises _ _
    · exact .refl _

/-- In every state of a run whose requests fail unawaited, at most one caller holds the lock,
waiters are answered by the attempt they waited for, and nobody waits without a sync; and what a
promise was settled with never changes. -/
theorem run_coalesces (dbId : String) (events : List (String × LockEvent Result))
    (conforms : Run.Conforms step (FailsUnawaited dbId) ∅ events)
    (reached : List (String × LockEvent Result)) (prefixed : reached <+: events) :
    ((run reached).getSyncState dbId).Coalesces ∧
      ∀ later, reached <+: later →
        KeepsPromises ((run reached).getSyncState dbId) ((run later).getSyncState dbId) := by
  constructor
  · have start : ((∅ : SyncLocks Result).getSyncState dbId).Coordinated := by
      rw [getSyncState_empty]
      exact coordinated_initial
    exact (Run.prefix_invariant (step_coordinated dbId) start conforms prefixed).coalesces
  · rintro later ⟨rest, rfl⟩
    rw [run, run, List.foldl_append]
    exact foldl_keepsPromises dbId rest _

end SyncLocks

namespace Sample

def acquireOnce : List (String × LockEvent ℕ) :=
  [("default", .acquire 0 true)]

def firstFails : List (String × LockEvent ℕ) :=
  [("default", .requestFails 0 (.error "The document is not fully active."))]

/-- The second caller of the database syncs, with the result 7. -/
def syncOf (call : CallId) : List (String × LockEvent ℕ) :=
  [("default", .lockGranted call), ("default", .release call 7)]

/-- Two callers, and the request of the first one fails. -/
def strandedWaiter : SyncLock ℕ :=
  (SyncLocks.run (acquireOnce ++ acquireOnce ++ firstFails)).getSyncState "default"

/-- The same, and a third caller syncs. -/
def strandedAndSynced : SyncLock ℕ :=
  (SyncLocks.run (acquireOnce ++ acquireOnce ++ firstFails ++ acquireOnce ++ syncOf 2)).getSyncState
    "default"

/-- The second caller stays on the list without a sync in progress, and is given the result of a
later sync. -/
theorem not_run_coalesces_stranded : ¬strandedWaiter.Coalesces ∧ ¬strandedAndSynced.Coalesces := by
  constructor
  · intro coalesces
    have waits : strandedWaiter.state.waiters = [1] := by decide +kernel
    rw [coalesces.noWaiters (by decide +kernel)] at waits
    cases waits
  · intro coalesces
    have waiter : strandedAndSynced.calls[1]?.map (fun call =>
        (call.role, call.generation, call.timedOut, call.promise)) =
          some (.waiter, 1, false, some (.coalesced 7)) := by decide +kernel
    have attempts : ∀ call ∈ strandedAndSynced.calls, call.role = .attempt → call.generation = 1 →
        call.attemptEnd ≠ some (.coalesced 7) := by decide +kernel
    obtain ⟨call, found, view⟩ := Option.map_eq_some_iff.mp waiter
    obtain ⟨role, generation, timedOut, promise⟩ : call.role = .waiter ∧ call.generation = 1 ∧
        call.timedOut = false ∧ call.promise = some (.coalesced 7) := by simpa using view
    obtain ⟨_, attempt, attemptFound, isAttempt, same, told | late⟩ :=
      coalesces.answered call (List.mem_of_getElem? found) role
    · exact attempts attempt (List.mem_of_getElem? attemptFound) isAttempt
        (same.trans generation) (told.symm.trans promise)
    · cases timedOut.symm.trans late.1

/-- A request that fails while nobody waits is followed by a sync with a waiter. -/
theorem run_coalesces_unawaited :
    ((SyncLocks.run (acquireOnce ++ firstFails ++ acquireOnce ++ acquireOnce ++
      syncOf 1)).getSyncState "default").Coalesces := by
  have unawaited : ((SyncLocks.run acquireOnce).getSyncState "default").FailsUnawaited
      (.requestFails 0 (.error "The document is not fully active.")) := by
    have pending : ∀ call ∈ ((SyncLocks.run acquireOnce).getSyncState "default").calls,
        call.request = .pending := by decide +kernel
    intro call found _ _ _
    exact ⟨pending call (List.mem_of_getElem? found), by decide +kernel⟩
  refine (SyncLocks.run_coalesces "default" _ ?_ _ List.prefix_rfl).1
  exact ⟨fun _ => trivial, fun _ => unawaited, fun _ => trivial, fun _ => trivial, fun _ => trivial,
    fun _ => trivial, trivial⟩

end Sample

end MidenClient
