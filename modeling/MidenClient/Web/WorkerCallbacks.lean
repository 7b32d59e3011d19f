/-
This file proves what the client of the worker learns of the callbacks it calls, which run in the
main thread: at most once each, and with the arguments they were called with.

Several callbacks may be under way at a time, and the main thread answers them in the order in
which they end. A callback that is not answered in time is given up, while it goes on running.
Its answer comes too late then, and is not taken for that of another one.
-/

import MidenClient.Web.WorkerCalls

namespace MidenClient

open Std (ExtTreeMap)
open ListEntries

variable {Value : Type}

/-- The message that is read off a thrown value. -/
def Raised.message? : Raised → Option String
  | error _ message => some message
  | object _ message _ => message
  | _ => none

/-- What the client of the worker is told about a callback that ended: its result, and what was
thrown, as long as it has a message. A value without a message, or with an empty one, is taken for
a result that is `undefined`; and a throw of `null` or `undefined` is not answered. -/
def CallbackEnd.Settles : CallbackEnd Value → Except String (Option Value) → Prop
  | returned result, settlement => settlement = .ok result
  | threw raised, settlement => raised ≠ .null ∧ raised ≠ .undefined ∧
      settlement = if raised.message?.getD "" = "" then .ok none
        else .error (raised.message?.getD "")

theorem CallbackEnd.settles_of_reply {ended : CallbackEnd Value} {reply : CallbackReply Value}
    (answered : ended.reply = some reply) : ended.Settles reply.settlement := by
  cases ended with
  | returned result =>
    cases answered
    rfl
  | threw raised =>
    cases raised with
    | error name message =>
      cases answered
      refine ⟨by simp, by simp, ?_⟩
      by_cases empty : message = "" <;>
        simp [CallbackReply.settlement, Raised.message?, empty]
    | object name message text =>
      cases answered
      refine ⟨by simp, by simp, ?_⟩
      cases message with
      | none => rfl
      | some message =>
        by_cases empty : message = "" <;>
          simp [CallbackReply.settlement, Raised.message?, empty]
    | primitive text =>
      cases answered
      exact ⟨by simp, by simp, rfl⟩
    | null => cases answered
    | undefined => cases answered

theorem CallbackEnd.reply_eq_none_iff {ended : CallbackEnd Value} :
    ended.reply = none ↔ ended = .threw .null ∨ ended = .threw .undefined := by
  cases ended with
  | returned result => simp [CallbackEnd.reply]
  | threw raised => cases raised <;> simp [CallbackEnd.reply]

namespace WorkerSystem

/-! ### The callbacks of a system -/

def executed? : WorkerReply Value → Option (CallbackRun Value)
  | .executeCallback callbackType args requestId => some ⟨callbackType, args, requestId⟩
  | _ => none

def callbackAnswer? : WorkerRequest Value → Option (RequestId × CallbackReply Value)
  | .callbackAnswer requestId reply => some (requestId, reply)
  | _ => none

/-- The callbacks that are under way to the main thread or are in it, and the answers under way
to the worker. -/
structure CallbackFlow (Value : Type) where
  proxyCalls : List (ProxyCall Value)
  pending : ExtTreeMap RequestId ℕ
  executing : List (CallbackRun Value)
  running : List (CallbackRun Value)
  ended : List (CallbackRun Value × CallbackEnd Value)
  answers : List (RequestId × CallbackReply Value)

def callbackFlow (system : WorkerSystem Value) : CallbackFlow Value where
  proxyCalls := system.worker.proxyCalls
  pending := system.worker.pendingCallbacks
  executing := system.toMain.filterMap executed?
  running := system.main.running
  ended := system.main.ended
  answers := system.toWorker.filterMap callbackAnswer?

/-- The id that is drawn for a callback has not been drawn before. -/
def DrawsNew (system : WorkerSystem Value) : WorkerEvent Value → Prop
  | .callProxy callbackType _ drawn => callbackType.text ++ "-" ++ drawn ∉
      system.worker.proxyCalls.map fun call => call.run.requestId
  | _ => True

namespace CallbackFlow

/-- What settles the call of a proxy: its timer, or the answer to its own callback. -/
def MaySettle (ended : List (CallbackRun Value × CallbackEnd Value)) (run : CallbackRun Value)
    (settlement : Except String (Option Value)) : Prop :=
  settlement = .error (timedOutMessage run.requestId) ∨
    ∃ outcome, (run, outcome) ∈ ended ∧ outcome.Settles settlement

/-- The callback has not ended, or its answer, if there is one, is under way to the worker. -/
def Waits (flow : CallbackFlow Value) (run : CallbackRun Value) : Prop :=
  run ∈ flow.executing ++ flow.running ∨ ∃ outcome, (run, outcome) ∈ flow.ended ∧
    ∀ reply, outcome.reply = some reply → (run.requestId, reply) ∈ flow.answers

/-- Every callback that was called is under way to the main thread, runs there or has ended. Until
its caller is told how it ended, the worker knows whose it is. -/
structure Accounted (flow : CallbackFlow Value) : Prop where
  distinct : (flow.proxyCalls.map fun call => call.run.requestId).Nodup
  stages : (flow.executing ++ flow.running ++ flow.ended.map Prod.fst).Perm
    (flow.proxyCalls.map ProxyCall.run)
  pending : ∀ (requestId : RequestId) index, flow.pending[requestId]? = some index →
    ∃ call, flow.proxyCalls[index]? = some call ∧ call.run.requestId = requestId
  answers : ∀ answer ∈ flow.answers, ∃ run outcome, (run, outcome) ∈ flow.ended ∧
    run.requestId = answer.1 ∧ outcome.reply = some answer.2
  settled : ∀ call ∈ flow.proxyCalls, ∀ settlement, call.promise = some settlement →
    MaySettle flow.ended call.run settlement
  waiting : ∀ (index : ℕ) (call : ProxyCall Value), flow.proxyCalls[index]? = some call →
    call.promise = none →
    flow.pending[call.run.requestId]? = some index ∧ flow.Waits call.run

namespace Accounted

variable {flow : CallbackFlow Value}

theorem call (accounted : flow.Accounted) (run : CallbackRun Value)
    (fresh : run.requestId ∉ flow.proxyCalls.map fun call => call.run.requestId) :
    Accounted { flow with
      proxyCalls := flow.proxyCalls ++ [⟨run, none⟩]
      pending := flow.pending.insert run.requestId flow.proxyCalls.length
      executing := flow.executing ++ [run] } where
  distinct := by
    rw [List.map_append]
    refine List.nodup_append.mpr ⟨accounted.distinct, List.nodup_singleton _, ?_⟩
    intro first member second last same
    rw [same, List.mem_singleton.mp last] at member
    exact fresh member
  stages := by
    rw [List.map_append, List.append_assoc, List.append_assoc]
    refine (List.perm_append_comm_assoc flow.executing [run] _).trans ?_
    refine (List.Perm.append_left [run] ?_).trans List.perm_append_comm
    rw [← List.append_assoc]
    exact accounted.stages
  pending := by
    intro requestId index found
    rw [ExtTreeMap.getElem?_insert] at found
    split at found
    · rename_i same
      rw [← Option.some_inj.mp found]
      exact ⟨_, List.getElem?_concat_length, Std.compare_eq_iff_eq.mp same⟩
    · obtain ⟨call, at_index, named⟩ := accounted.pending requestId index found
      exact ⟨call, getElem?_concat_of_some at_index, named⟩
  answers := accounted.answers
  settled := by
    intro call member settlement promised
    rcases List.mem_append.mp member with earlier | last
    · exact accounted.settled call earlier settlement promised
    · rw [List.mem_singleton.mp last] at promised
      cases promised
  waiting := by
    intro index call at_index promised
    rw [ExtTreeMap.getElem?_insert]
    rcases getElem?_concat_cases at_index with earlier | ⟨rfl, rfl⟩
    · obtain ⟨awaited, waits⟩ := accounted.waiting index call earlier promised
      have other : run.requestId ≠ call.run.requestId := fun same =>
        fresh (List.mem_map.mpr ⟨call, List.mem_of_getElem? earlier, same.symm⟩)
      rw [if_neg (by rwa [Std.compare_eq_iff_eq])]
      refine ⟨awaited, waits.imp_left fun member => ?_⟩
      rw [List.append_assoc]
      exact (List.mem_append.mp member).elim (List.mem_append_left _)
        fun runs => List.mem_append_right _ (List.mem_append_right _ runs)
    · rw [if_pos (Std.compare_eq_iff_eq.mpr rfl)]
      exact ⟨rfl, Or.inl (List.mem_append_left _
        (List.mem_append_right _ List.mem_cons_self))⟩

/-- A callback that is under way has been called. -/
theorem called (accounted : flow.Accounted) {run : CallbackRun Value}
    (member : run ∈ flow.executing ++ flow.running ++ flow.ended.map Prod.fst) :
    ∃ call ∈ flow.proxyCalls, call.run = run :=
  List.mem_map.mp (accounted.stages.mem_iff.mp member)

/-- An answer is that of the one callback which has its id. -/
theorem maySettle_of_answer (accounted : flow.Accounted) {requestId : RequestId}
    {reply : CallbackReply Value} (posted : (requestId, reply) ∈ flow.answers)
    {call : ProxyCall Value} (member : call ∈ flow.proxyCalls)
    (named : call.run.requestId = requestId) :
    MaySettle flow.ended call.run reply.settlement := by
  obtain ⟨run, outcome, ended, same, replied⟩ := accounted.answers (requestId, reply) posted
  obtain ⟨other, at_calls, rfl⟩ := accounted.called
    (List.mem_append_right _ (List.mem_map.mpr ⟨_, ended, rfl⟩))
  have one : other = call := List.inj_on_of_nodup_map accounted.distinct at_calls member
    (same.trans named.symm)
  rw [one] at ended
  exact .inr ⟨outcome, ended, CallbackEnd.settles_of_reply replied⟩

theorem begin (accounted : flow.Accounted) {run : CallbackRun Value}
    {rest : List (CallbackRun Value)} (next : flow.executing = run :: rest) :
    Accounted { flow with executing := rest, running := flow.running ++ [run] } where
  distinct := accounted.distinct
  stages := by
    refine List.Perm.trans ?_ accounted.stages
    rw [next, ← List.append_assoc, List.append_assoc (rest ++ flow.running)]
    exact List.perm_middle
  pending := accounted.pending
  answers := accounted.answers
  settled := accounted.settled
  waiting := by
    intro index call at_index promised
    obtain ⟨awaited, waits⟩ := accounted.waiting index call at_index promised
    refine ⟨awaited, waits.imp_left fun member => ?_⟩
    rw [next] at member
    rw [← List.append_assoc, List.mem_append, List.mem_singleton]
    exact (List.mem_cons.mp member).symm

theorem finish (accounted : flow.Accounted) {index : ℕ} {run : CallbackRun Value}
    (found : flow.running[index]? = some run) (outcome : CallbackEnd Value) :
    Accounted { flow with
      running := flow.running.eraseIdx index
      ended := flow.ended ++ [(run, outcome)]
      answers := flow.answers ++
        outcome.reply.toList.map fun reply => (run.requestId, reply) } where
  distinct := accounted.distinct
  stages := by
    refine List.Perm.trans ?_ accounted.stages
    obtain ⟨bound, at_index⟩ := List.getElem?_eq_some_iff.mp found
    have removed := List.getElem_cons_eraseIdx_perm bound
    rw [at_index] at removed
    rw [List.map_append, List.append_assoc, List.append_assoc]
    refine List.Perm.append_left flow.executing ?_
    refine List.Perm.trans ?_ (removed.append_right _)
    rw [← List.append_assoc, List.map_singleton]
    exact List.perm_append_comm
  pending := accounted.pending
  answers := by
    intro answer member
    rcases List.mem_append.mp member with earlier | last
    · obtain ⟨other, ended, at_ended, named, replied⟩ := accounted.answers answer earlier
      exact ⟨other, ended, List.mem_append_left _ at_ended, named, replied⟩
    · obtain ⟨reply, given, rfl⟩ := List.mem_map.mp last
      exact ⟨run, outcome, List.mem_append_right _ List.mem_cons_self, rfl,
        Option.mem_toList.mp given⟩
  settled := by
    intro call member settlement promised
    refine (accounted.settled call member settlement promised).imp_right ?_
    rintro ⟨ended, at_ended, settles⟩
    exact ⟨ended, List.mem_append_left _ at_ended, settles⟩
  waiting := by
    intro place call at_place promised
    obtain ⟨awaited, waits⟩ := accounted.waiting place call at_place promised
    refine ⟨awaited, ?_⟩
    rcases waits with member | ⟨ended, at_ended, answered⟩
    · rcases List.mem_append.mp member with asked | runs
      · exact Or.inl (List.mem_append_left _ asked)
      · obtain ⟨bound, at_index⟩ := List.getElem?_eq_some_iff.mp found
        have removed := (List.getElem_cons_eraseIdx_perm bound).mem_iff.mpr runs
        rw [at_index] at removed
        rcases List.mem_cons.mp removed with same | left
        · refine Or.inr ⟨outcome, ?_, fun reply given => ?_⟩
          · rw [same]
            exact List.mem_append_right _ List.mem_cons_self
          · rw [given, same]
            exact List.mem_append_right _ List.mem_cons_self
        · exact Or.inl (List.mem_append_right _ left)
    · exact Or.inr ⟨ended, List.mem_append_left _ at_ended, fun reply given =>
        List.mem_append_left _ (answered reply given)⟩

/-- Answers that nobody awaits are lost without harm. -/
theorem drop (accounted : flow.Accounted) {answers : List (RequestId × CallbackReply Value)}
    (fewer : ∀ answer ∈ answers, answer ∈ flow.answers)
    (late : ∀ answer ∈ flow.answers, answer ∈ answers ∨ flow.pending[answer.1]? = none) :
    Accounted { flow with answers := answers } :=
  { accounted with
    answers := fun answer member => accounted.answers answer (fewer answer member)
    waiting := by
      intro index call at_index promised
      obtain ⟨awaited, waits⟩ := accounted.waiting index call at_index promised
      refine ⟨awaited, waits.imp_right ?_⟩
      rintro ⟨ended, at_ended, answered⟩
      refine ⟨ended, at_ended, fun reply given => ?_⟩
      refine (late _ (answered reply given)).resolve_right fun forgotten => ?_
      cases forgotten.symm.trans awaited }

theorem settle (accounted : flow.Accounted) {requestId : RequestId} {index : ℕ}
    (found : flow.pending[requestId]? = some index) {settlement : Except String (Option Value)}
    (permitted : ∀ call ∈ flow.proxyCalls, call.run.requestId = requestId →
      MaySettle flow.ended call.run settlement) :
    Accounted { flow with
      pending := flow.pending.erase requestId
      proxyCalls := flow.proxyCalls.modify index fun call =>
        { call with promise := call.promise.or (some settlement) } } := by
  -- What a call is settled with changes neither the callback nor its id.
  exact {
    distinct := by
      rw [map_modify fun call : ProxyCall Value => call.run.requestId]
      · exact accounted.distinct
      · exact fun call => rfl
    stages := by
      rw [map_modify ProxyCall.run]
      · exact accounted.stages
      · exact fun call => rfl
    pending := by
      intro other place kept
      rw [ExtTreeMap.getElem?_erase] at kept
      split at kept
      · cases kept
      · obtain ⟨call, at_place, named⟩ := accounted.pending other place kept
        rw [List.getElem?_modify, at_place]
        exact ⟨_, rfl, by split <;> exact named⟩
    answers := accounted.answers
    settled := by
      intro call member other promised
      obtain ⟨place, at_place⟩ := List.mem_iff_getElem?.mp member
      obtain ⟨before, at_before, changed⟩ := getElem?_modify_cases at_place
      have known := accounted.settled before (List.mem_of_getElem? at_before)
      rcases changed with ⟨rfl, rfl⟩ | ⟨-, rfl⟩
      · obtain ⟨same, at_index, named⟩ := accounted.pending requestId index found
        rw [at_before] at at_index
        rw [← Option.some_inj.mp at_index] at named
        rcases settled : before.promise with _ | earlier
        · rw [settled, Option.none_or, Option.some_inj] at promised
          rw [← promised]
          exact permitted before (List.mem_of_getElem? at_before) named
        · rw [settled, Option.some_or, Option.some_inj] at promised
          rw [← promised]
          exact known earlier settled
      · exact known other promised
    waiting := by
      intro place call at_place promised
      obtain ⟨before, at_before, ⟨-, rfl⟩ | ⟨elsewhere, rfl⟩⟩ := getElem?_modify_cases at_place
      · exact absurd promised (by cases before.promise <;> exact Option.some_ne_none _)
      · obtain ⟨awaited, waits⟩ := accounted.waiting place call at_before promised
        have other : requestId ≠ call.run.requestId := by
          intro same
          rw [same] at found
          exact elsewhere (Option.some.inj (found.symm.trans awaited))
        refine ⟨?_, waits⟩
        rw [ExtTreeMap.getElem?_erase, if_neg (by rwa [Std.compare_eq_iff_eq])]
        exact awaited }

end Accounted

end CallbackFlow

/-! ### The steps of the system -/

/-- The callbacks that the main thread has are those that the worker was told of. -/
structure Told (system : WorkerSystem Value) : Prop where
  init : ∀ initialization, WorkerRequest.init initialization ∈ system.unanswered →
    initialization = system.main.initialization
  provided : ∀ callbackType, system.worker.provided.has callbackType = true →
    system.main.initialization.provided.has callbackType = true
  called : ∀ call ∈ system.worker.proxyCalls,
    system.main.initialization.provided.has call.run.callbackType = true

/-- Answering messages and taking them off the queue has nothing to do with callbacks. -/
theorem processNext_callbackFlow (system : WorkerSystem Value)
    (queue : List (WorkerRequest Value)) :
    (processNext system queue).callbackFlow = system.callbackFlow := by
  refine processNext_keeps (fun after => after.callbackFlow = system.callbackFlow) ?_ ?_
    queue rfl
  · intro before request message same
    rw [← same]
    simp [callbackFlow, postAnswer, executed?]
  · intro before messageQueue processing provided same
    exact same

theorem processQueue_callbackFlow (system : WorkerSystem Value) :
    system.processQueue.callbackFlow = system.callbackFlow := by
  rw [processQueue]
  split
  · rfl
  · exact processNext_callbackFlow system _

theorem processed_callbackFlow (system : WorkerSystem Value) (request : WorkerRequest Value)
    (outcome : Except Raised Value) :
    (system.processed request outcome).callbackFlow = system.callbackFlow := by
  cases request <;> cases outcome <;> simp [processed, callbackFlow, postAnswer, executed?]

theorem processingEnds_callbackFlow (system : WorkerSystem Value)
    (outcome : Except Raised Value) :
    (system.processingEnds outcome).callbackFlow = system.callbackFlow := by
  rw [processingEnds]
  split
  · rename_i request processing
    rw [processQueue_callbackFlow]
    exact processed_callbackFlow system request outcome
  · rfl

/-- A message that asks for no callback is received. -/
theorem callbackFlow_received {system : WorkerSystem Value} {reply : WorkerReply Value}
    {rest : List (WorkerReply Value)} (next : system.toMain = reply :: rest)
    (other : executed? reply = none) :
    callbackFlow { system with toMain := rest } = system.callbackFlow := by
  simp only [callbackFlow, next, List.filterMap_cons_none other]

namespace CallbackFlow.Accounted

variable {system : WorkerSystem Value}

theorem created (initialization : Initialization) :
    (WorkerSystem.created initialization : WorkerSystem Value).callbackFlow.Accounted where
  distinct := List.nodup_nil
  stages := List.Perm.refl []
  pending := by
    intro requestId index found
    simp [callbackFlow, WorkerSystem.created] at found
  answers := by
    intro answer member
    exact absurd member List.not_mem_nil
  settled := by
    intro call member
    exact absurd member List.not_mem_nil
  waiting := by
    intro index call at_index
    cases at_index

/-- A step that has nothing to do with callbacks. -/
theorem others (accounted : system.callbackFlow.Accounted) {next : WorkerSystem Value}
    (same : next.callbackFlow = system.callbackFlow) : next.callbackFlow.Accounted := by
  rw [same]
  exact accounted

theorem receiveReply (accounted : system.callbackFlow.Accounted) (told : system.Told)
    {reply : WorkerReply Value} {rest : List (WorkerReply Value)}
    (next : system.toMain = reply :: rest) :
    (WorkerSystem.receiveReply { system with toMain := rest } reply).callbackFlow.Accounted := by
  cases reply with
  | loaded =>
    have received := accounted.others (callbackFlow_received next rfl)
    rw [WorkerSystem.receiveReply]
    split
    · exact received
    · refine received.others ?_
      simp [callbackFlow, callbackAnswer?]
  | ready => exact accounted.others (callbackFlow_received next rfl)
  | executeCallback callbackType args requestId =>
    have first : system.callbackFlow.executing =
        ⟨callbackType, args, requestId⟩ :: rest.filterMap executed? := by
      simp [callbackFlow, next, executed?]
    have provided : system.main.initialization.provided.has callbackType = true := by
      obtain ⟨call, member, same⟩ := accounted.called
        (List.mem_append_left _ (List.mem_append_left _ (by
          rw [first]
          exact List.mem_cons_self)))
      have known := told.called call member
      rwa [same] at known
    rw [WorkerSystem.receiveReply, if_pos provided]
    exact accounted.begin first
  | answer requestId answer =>
    have received := accounted.others (callbackFlow_received next rfl)
    rcases requestId with _ | requestId
    · exact received
    · rw [WorkerSystem.receiveReply]
      split <;> exact received

theorem callbackEnds (accounted : system.callbackFlow.Accounted) (index : ℕ)
    (outcome : CallbackEnd Value) : (system.callbackEnds index outcome).callbackFlow.Accounted := by
  rw [WorkerSystem.callbackEnds]
  split
  · rename_i run found
    have finished := accounted.finish found outcome
    have answers : (outcome.reply.toList.map
        (WorkerRequest.callbackAnswer run.requestId)).filterMap callbackAnswer? =
        outcome.reply.toList.map fun reply => (run.requestId, reply) := by
      cases outcome.reply <;> rfl
    simp only [callbackFlow, List.filterMap_append, answers] at finished ⊢
    exact finished
  · exact accounted

theorem workerReceives (accounted : system.callbackFlow.Accounted) :
    system.workerReceives.callbackFlow.Accounted := by
  rw [WorkerSystem.workerReceives]
  split
  · exact accounted
  · rename_i request rest next
    have kept : system.callbackFlow.answers =
        (callbackAnswer? request).toList ++ rest.filterMap callbackAnswer? := by
      show system.toWorker.filterMap callbackAnswer? = _
      rw [next, List.filterMap_cons]
      cases callbackAnswer? request <;> rfl
    have fewer : ∀ answer ∈ rest.filterMap callbackAnswer?, answer ∈ system.callbackFlow.answers :=
      fun answer member => kept ▸ List.mem_append_right _ member
    have queued : (∀ answer ∈ callbackAnswer? request,
        system.worker.pendingCallbacks[answer.1]? = none) →
        (enqueue { system with toWorker := rest } request).callbackFlow.Accounted := by
      intro late
      have dropped : (callbackFlow { system with toWorker := rest }).Accounted := by
        refine accounted.drop fewer fun answer member => ?_
        rw [kept] at member
        rcases List.mem_append.mp member with first | later
        · exact Or.inr (late answer (Option.mem_toList.mp first))
        · exact Or.inl later
      refine dropped.others ?_
      rw [enqueue, processQueue_callbackFlow]
      rfl
    cases request with
    | init initialization => exact queued fun _ none_ => by cases none_
    | callMethod call requestId => exact queued fun _ none_ => by cases none_
    | callbackAnswer requestId reply =>
      rw [onmessage]
      split
      · rename_i index found
        have first : (requestId, reply) ∈ system.callbackFlow.answers := kept ▸ List.mem_cons_self
        have settled := accounted.settle found fun call member named =>
          accounted.maySettle_of_answer first member named
        refine settled.drop fewer fun answer member => ?_
        have posted : answer ∈ system.callbackFlow.answers := member
        rw [kept] at posted
        rcases List.mem_cons.mp posted with rfl | later
        · exact Or.inr ExtTreeMap.getElem?_erase_self
        · exact Or.inl later
      · rename_i late
        refine queued fun answer member => ?_
        cases member
        exact late

theorem callProxy (accounted : system.callbackFlow.Accounted) {callbackType : CallbackType}
    {args : List Value} {drawn : String}
    (fresh : system.DrawsNew (.callProxy callbackType args drawn)) :
    (system.callProxy callbackType args drawn).callbackFlow.Accounted := by
  rw [WorkerSystem.callProxy]
  split
  · have called := accounted.call ⟨callbackType, args, callbackType.text ++ "-" ++ drawn⟩ fresh
    simp only [callbackFlow, List.filterMap_append] at called ⊢
    exact called
  · exact accounted

theorem callbackTimesOut (accounted : system.callbackFlow.Accounted) (requestId : RequestId) :
    (system.callbackTimesOut requestId).callbackFlow.Accounted := by
  rw [WorkerSystem.callbackTimesOut]
  split
  · rename_i index found
    refine accounted.settle found fun call member named => .inl ?_
    rw [named]
  · exact accounted

theorem step (accounted : system.callbackFlow.Accounted) (told : system.Told)
    {event : WorkerEvent Value} (fresh : system.DrawsNew event) :
    (system.step event).callbackFlow.Accounted := by
  cases event with
  | callMethodWithWorker call => exact accounted
  | postCall drawn =>
    rw [WorkerSystem.step, postCall]
    split
    · refine accounted.others ?_
      simp [callbackFlow, callbackAnswer?]
    · exact accounted
  | mainReceives =>
    rw [WorkerSystem.step, mainReceives]
    split
    · exact accounted
    · rename_i reply rest next
      exact accounted.receiveReply told next
  | callbackEnds index outcome => exact accounted.callbackEnds index outcome
  | workerReceives => exact accounted.workerReceives
  | processingEnds outcome => exact accounted.others (processingEnds_callbackFlow system outcome)
  | callProxy callbackType args drawn => exact accounted.callProxy fresh
  | callbackTimesOut requestId => exact accounted.callbackTimesOut requestId

end CallbackFlow.Accounted

/-! ### What the threads are told -/

namespace Told

variable {system : WorkerSystem Value}

theorem created (initialization : Initialization) :
    (WorkerSystem.created initialization : WorkerSystem Value).Told where
  init := by
    intro other member
    exact absurd member List.not_mem_nil
  provided := by
    intro callbackType provided
    cases callbackType <;> cases provided
  called := by
    intro call member
    exact absurd member List.not_mem_nil

/-- A step that tells the worker nothing else of the callbacks. -/
theorem leaves (told : system.Told) {next : WorkerSystem Value}
    (same : next.main.initialization = system.main.initialization)
    (init : ∀ initialization, WorkerRequest.init initialization ∈ next.unanswered →
      WorkerRequest.init initialization ∈ system.unanswered)
    (provided : next.worker.provided = system.worker.provided)
    (called : ∀ call ∈ next.worker.proxyCalls, ∃ before ∈ system.worker.proxyCalls,
      call.run = before.run) : next.Told where
  init := by
    rw [same]
    exact fun initialization member => told.init initialization (init initialization member)
  provided := by
    rw [same, provided]
    exact told.provided
  called := by
    intro call member
    obtain ⟨before, known, run⟩ := called call member
    rw [same, run]
    exact told.called before known

/-- Messages that do not initialize the worker are posted to it. -/
theorem posted (told : system.Told) (main : MainThread Value)
    (same : main.initialization = system.main.initialization)
    {requests : List (WorkerRequest Value)}
    (known : ∀ initialization, WorkerRequest.init initialization ∈ requests →
      initialization = system.main.initialization) :
    Told { system with main := main, toWorker := system.toWorker ++ requests } where
  init := by
    intro initialization member
    rw [unanswered, ← List.append_assoc, ← List.append_assoc] at member
    show initialization = main.initialization
    rw [same]
    rcases List.mem_append.mp member with earlier | later
    · refine told.init initialization ?_
      rwa [unanswered, ← List.append_assoc]
    · exact known initialization later
  provided := by
    show ∀ callbackType, _ → main.initialization.provided.has callbackType = true
    rw [same]
    exact told.provided
  called := by
    show ∀ call ∈ system.worker.proxyCalls,
      main.initialization.provided.has call.run.callbackType = true
    rw [same]
    exact told.called

/-- The client of the worker is created with the callbacks of the message that is processed. -/
theorem processNext (system : WorkerSystem Value) (queue : List (WorkerRequest Value))
    (init : ∀ initialization, WorkerRequest.init initialization ∈ queue ++ system.toWorker →
      initialization = system.main.initialization)
    (provided : ∀ callbackType, system.worker.provided.has callbackType = true →
      system.main.initialization.provided.has callbackType = true)
    (called : ∀ call ∈ system.worker.proxyCalls,
      system.main.initialization.provided.has call.run.callbackType = true) :
    (WorkerSystem.processNext system queue).Told := by
  induction queue generalizing system with
  | nil => exact ⟨init, provided, called⟩
  | cons request rest inductionHypothesis =>
    rw [WorkerSystem.processNext]
    split
    · exact inductionHypothesis (postAnswer system request (.refusal _))
        (fun initialization member => init initialization (List.mem_cons_of_mem request member))
        provided called
    · refine ⟨init, ?_, called⟩
      cases request with
      | init initialization =>
        rw [proxiesAfter, init initialization List.mem_cons_self]
        exact fun callbackType holds => holds
      | callMethod call requestId => exact provided
      | callbackAnswer requestId reply => exact provided

theorem processQueue (told : system.Told) : system.processQueue.Told := by
  rcases processing : system.worker.processing with _ | request
  · have init := told.init
    rw [unanswered, processing] at init
    rw [WorkerSystem.processQueue, processing]
    exact processNext system _ init told.provided told.called
  · rw [WorkerSystem.processQueue, processing]
    exact told

theorem receiveReply (told : system.Told) {reply : WorkerReply Value}
    (rest : List (WorkerReply Value)) :
    (WorkerSystem.receiveReply { system with toMain := rest } reply).Told := by
  have received : Told { system with toMain := rest } := told.leaves rfl
    (fun _ member => member) rfl fun call member => ⟨call, member, rfl⟩
  cases reply with
  | loaded =>
    rw [WorkerSystem.receiveReply]
    split
    · exact received
    · refine received.posted { system.main with loaded := true } rfl fun initialization member => ?_
      cases List.mem_singleton.mp member
      rfl
  | ready =>
    exact received.leaves rfl (fun _ member => member) rfl fun call member => ⟨call, member, rfl⟩
  | executeCallback callbackType args requestId =>
    rw [WorkerSystem.receiveReply]
    split
    · exact received.leaves rfl (fun _ member => member) rfl fun call member =>
        ⟨call, member, rfl⟩
    · refine received.posted system.main rfl fun initialization member => ?_
      cases List.mem_singleton.mp member
  | answer requestId answer =>
    rcases requestId with _ | requestId
    · exact received
    · rw [WorkerSystem.receiveReply]
      split
      · exact received.leaves rfl (fun _ member => member) rfl fun call member =>
          ⟨call, member, rfl⟩
      · exact received

theorem settleProxyCall (told : system.Told) (requestId : RequestId) (index : ℕ)
    (settlement : Except String (Option Value)) {toWorker : List (WorkerRequest Value)}
    (fewer : ∀ request ∈ toWorker, request ∈ system.toWorker) :
    Told { system with
      toWorker := toWorker
      worker := WorkerSystem.settleProxyCall system.worker requestId index settlement } := by
  refine told.leaves rfl (fun initialization member => ?_) rfl fun call member => ?_
  · rw [unanswered] at member ⊢
    refine List.mem_append.mpr ((List.mem_append.mp member).imp_right fun left => ?_)
    exact List.mem_append.mpr ((List.mem_append.mp left).imp_right (fewer _))
  · obtain ⟨place, at_place⟩ := List.mem_iff_getElem?.mp member
    rw [WorkerSystem.settleProxyCall, List.getElem?_modify] at at_place
    obtain ⟨before, at_before, rfl⟩ := Option.map_eq_some_iff.mp at_place
    exact ⟨before, List.mem_of_getElem? at_before, by split <;> rfl⟩

theorem workerReceives (told : system.Told) : system.workerReceives.Told := by
  rw [WorkerSystem.workerReceives]
  split
  · exact told
  · rename_i request rest next
    have queued : (enqueue { system with toWorker := rest } request).Told := by
      refine processQueue (told.leaves rfl (fun initialization member => ?_) rfl
        fun call member => ⟨call, member, rfl⟩)
      rw [unanswered, List.append_assoc] at member
      rwa [unanswered, next]
    cases request with
    | init initialization => exact queued
    | callMethod call requestId => exact queued
    | callbackAnswer requestId reply =>
      rw [onmessage]
      split
      · refine told.settleProxyCall requestId _ reply.settlement fun other member => ?_
        rw [next]
        exact List.mem_cons_of_mem _ member
      · exact queued

theorem processingEnds (told : system.Told) (outcome : Except Raised Value) :
    (system.processingEnds outcome).Told := by
  rcases processing : system.worker.processing with _ | request
  · rw [WorkerSystem.processingEnds, processing]
    exact told
  · rw [WorkerSystem.processingEnds, processing]
    refine processQueue ?_
    have fewer : ∀ initialization, WorkerRequest.init initialization ∈
        system.worker.messageQueue ++ system.toWorker →
        WorkerRequest.init initialization ∈ system.unanswered :=
      fun initialization member => List.mem_append_right _ member
    cases request <;> cases outcome <;> exact told.leaves rfl fewer rfl fun call member =>
      ⟨call, member, rfl⟩

theorem callProxy (told : system.Told) (callbackType : CallbackType) (args : List Value)
    (drawn : String) : (system.callProxy callbackType args drawn).Told := by
  rw [WorkerSystem.callProxy]
  split
  · rename_i provided
    refine ⟨told.init, told.provided, fun call member => ?_⟩
    rcases List.mem_append.mp member with earlier | last
    · exact told.called call earlier
    · rw [List.mem_singleton.mp last]
      exact told.provided callbackType provided
  · exact told

theorem step (told : system.Told) (event : WorkerEvent Value) : (system.step event).Told := by
  cases event with
  | callMethodWithWorker call =>
    exact told.leaves rfl (fun _ member => member) rfl fun call member => ⟨call, member, rfl⟩
  | postCall drawn =>
    rw [WorkerSystem.step, postCall]
    split
    · rename_i call promise ready found
      refine told.posted { system.main with
        posted := system.main.posted + 1
        pendingRequests := _ } rfl fun initialization member => ?_
      cases List.mem_singleton.mp member
    · exact told
  | mainReceives =>
    rw [WorkerSystem.step, mainReceives]
    split
    · exact told
    · exact told.receiveReply _
  | callbackEnds index outcome =>
    rw [WorkerSystem.step, callbackEnds]
    split
    · rename_i run found
      refine told.posted { system.main with
        running := system.main.running.eraseIdx index
        ended := system.main.ended ++ [(run, outcome)] } rfl fun initialization member => ?_
      obtain ⟨reply, -, other⟩ := List.mem_map.mp member
      cases other
    · exact told
  | workerReceives => exact told.workerReceives
  | processingEnds outcome => exact told.processingEnds outcome
  | callProxy callbackType args drawn => exact told.callProxy callbackType args drawn
  | callbackTimesOut requestId =>
    rw [WorkerSystem.step, callbackTimesOut]
    split
    · exact told.settleProxyCall requestId _ _ fun request member => member
    · exact told

end Told

/-! ### Runs -/

/-- What the two threads know of the callbacks. Each of those that run or have ended in the main
thread is there once, was called by the client of the worker with these arguments, and was
provided by the user. That client is told how its callback ended, or that it timed out; as long as
it is not, its callback has not ended, or its answer is under way and awaited, or there is none. -/
structure CallbacksAnswered (system : WorkerSystem Value) : Prop where
  once : ((system.main.running ++ system.main.ended.map Prod.fst).map
    CallbackRun.requestId).Nodup
  called : ∀ run ∈ system.main.running ++ system.main.ended.map Prod.fst,
    ∃ call ∈ system.worker.proxyCalls, call.run = run
  provided : ∀ call ∈ system.worker.proxyCalls,
    system.main.initialization.provided.has call.run.callbackType = true
  settled : ∀ call ∈ system.worker.proxyCalls, ∀ settlement, call.promise = some settlement →
    settlement = .error (timedOutMessage call.run.requestId) ∨
      ∃ outcome, (call.run, outcome) ∈ system.main.ended ∧ outcome.Settles settlement
  untold : ∀ call ∈ system.worker.proxyCalls, call.promise = none →
    call.run.requestId ∈ system.worker.pendingCallbacks ∧
      (.executeCallback call.run.callbackType call.run.args call.run.requestId ∈ system.toMain ∨
        call.run ∈ system.main.running ∨
        (∃ outcome reply, (call.run, outcome) ∈ system.main.ended ∧ outcome.reply = some reply ∧
          .callbackAnswer call.run.requestId reply ∈ system.toWorker) ∨
        (call.run, .threw .null) ∈ system.main.ended ∨
        (call.run, .threw .undefined) ∈ system.main.ended)

theorem CallbackFlow.Accounted.answered {system : WorkerSystem Value}
    (accounted : system.callbackFlow.Accounted) (told : system.Told) :
    system.CallbacksAnswered where
  once := by
    have stages := accounted.stages.map CallbackRun.requestId
    have distinct := accounted.distinct
    rw [← Function.comp_def, ← List.map_map] at distinct
    have all := stages.nodup_iff.mpr distinct
    rw [List.append_assoc, List.map_append] at all
    exact (List.nodup_append.mp all).2.1
  called := by
    intro run member
    refine accounted.called ?_
    rw [List.append_assoc]
    exact List.mem_append_right _ member
  provided := told.called
  settled := accounted.settled
  untold := by
    intro call member promised
    obtain ⟨index, at_index⟩ := List.mem_iff_getElem?.mp member
    obtain ⟨awaited, waits⟩ := accounted.waiting index call at_index promised
    refine ⟨ExtTreeMap.mem_iff_isSome_getElem?.mpr
      (Option.isSome_iff_exists.mpr ⟨index, awaited⟩), ?_⟩
    rcases waits with asked | ⟨outcome, ended, answered⟩
    · rcases List.mem_append.mp asked with posted | runs
      · obtain ⟨reply, under_way, same⟩ := List.mem_filterMap.mp posted
        cases reply with
        | executeCallback callbackType args requestId =>
          rw [← Option.some.inj same]
          exact Or.inl under_way
        | loaded => cases same
        | ready => cases same
        | answer requestId answer => cases same
      · exact Or.inr (Or.inl runs)
    · right; right
      rcases replied : outcome.reply with _ | reply
      · right
        rcases CallbackEnd.reply_eq_none_iff.mp replied with rfl | rfl
        · exact Or.inl ended
        · exact Or.inr ended
      · left
        obtain ⟨request, under_way, same⟩ := List.mem_filterMap.mp (answered reply replied)
        cases request <;> cases same
        exact ⟨outcome, reply, ended, replied, under_way⟩

end WorkerSystem

namespace Sample

open WorkerSystem

/-- A callback that is refused without a message, and one that throws nothing at all, while the
worker is initialized. -/
def callbackEvents : List (WorkerEvent ℕ) :=
  [.mainReceives, .workerReceives, .callProxy .insertKey [1, 2] "1", .callProxy .getKey [1] "2",
    .mainReceives, .mainReceives, .callbackEnds 1 (.threw .undefined),
    .callbackEnds 0 (.threw (.error "Error" "")), .workerReceives]

def callbackRun : WorkerSystem ℕ :=
  callbackEvents.foldl step (created (.init ⟨true, true, false⟩))

theorem callbackEvents_conform :
    Run.Conforms step DrawsNew (created (.init ⟨true, true, false⟩)) callbackEvents :=
  ⟨trivial, trivial, List.not_mem_nil, (show "getKey-2" ∉ ["insertKey-1"] by decide), trivial,
    trivial, trivial, trivial, trivial, trivial⟩

end Sample

end MidenClient
