/-
This file proves what is left of the calls of a web client once nothing is under way any more
between it and its worker.

A worker that has been initialized leaves no call unanswered. When its initialization fails, the
main thread is told under no id, and goes on waiting for the worker to be ready: then no call is
ever settled, not even with an error.
-/

import MidenClient.Web.WorkerCalls

namespace MidenClient

open Std (ExtTreeMap)

namespace WorkerSystem

variable {Value : Type}

/-- No message is under way, the worker waits for nothing, and no call can be posted. -/
structure AtRest (system : WorkerSystem Value) : Prop where
  toMain : system.toMain = []
  toWorker : system.toWorker = []
  processing : system.worker.processing = none
  posted : system.main.ready = true → system.main.posted = system.main.calls.length

/-- A worker that waits for nothing has an empty queue, and a worker that is ready has said so.
Calls are not posted before. -/
structure Announced (system : WorkerSystem Value) : Prop where
  idle : system.worker.processing = none → system.worker.messageQueue = []
  ready : system.worker.ready = true → system.main.ready = true ∨
    WorkerReply.ready ∈ system.toMain
  posted : system.main.ready = false → system.main.posted = 0

namespace Announced

variable {system : WorkerSystem Value}

theorem created (initialization : Initialization) :
    (WorkerSystem.created initialization : WorkerSystem Value).Announced where
  idle := fun _ => rfl
  ready := by
    intro ready
    cases ready
  posted := fun _ => rfl

/-- A step that leaves the queue and the readiness of the worker alone. -/
theorem leaves (announced : system.Announced) {next : WorkerSystem Value}
    (processing : next.worker.processing = system.worker.processing)
    (queue : next.worker.messageQueue = system.worker.messageQueue)
    (ready : next.worker.ready = system.worker.ready)
    (told : system.main.ready = true ∨ WorkerReply.ready ∈ system.toMain →
      next.main.ready = true ∨ WorkerReply.ready ∈ next.toMain)
    (posted : next.main.ready = false → next.main.posted = 0) : next.Announced where
  idle := by
    rw [processing, queue]
    exact announced.idle
  ready := by
    rw [ready]
    exact fun prepared => told (announced.ready prepared)
  posted := posted

theorem processNext_idle (system : WorkerSystem Value) (queue : List (WorkerRequest Value)) :
    (WorkerSystem.processNext system queue).worker.processing = none →
      (WorkerSystem.processNext system queue).worker.messageQueue = [] := by
  induction queue generalizing system with
  | nil => exact fun _ => rfl
  | cons request rest inductionHypothesis =>
    rw [WorkerSystem.processNext]
    split
    · exact inductionHypothesis _
    · intro waiting
      cases waiting

/-- Taking messages off the queue keeps what the worker has said. -/
theorem processNext (told : system.worker.ready = true → system.main.ready = true ∨
      WorkerReply.ready ∈ system.toMain)
    (posted : system.main.ready = false → system.main.posted = 0)
    (queue : List (WorkerRequest Value)) :
    (WorkerSystem.processNext system queue).Announced where
  idle := processNext_idle system queue
  ready := by
    refine processNext_keeps (fun after => after.worker.ready = true →
      after.main.ready = true ∨ WorkerReply.ready ∈ after.toMain) ?_ ?_ queue told
    · intro before request message holds prepared
      exact (holds prepared).imp_right fun member => List.mem_append_left _ member
    · intro before messageQueue processing provided holds
      exact holds
  posted := by
    rw [(processNext_others system queue).1]
    exact posted

theorem processQueue (told : system.worker.ready = true → system.main.ready = true ∨
      WorkerReply.ready ∈ system.toMain)
    (posted : system.main.ready = false → system.main.posted = 0) :
    system.processQueue.Announced := by
  rcases processing : system.worker.processing with _ | request
  · rw [WorkerSystem.processQueue, processing]
    exact processNext told posted system.worker.messageQueue
  · rw [WorkerSystem.processQueue, processing]
    refine ⟨fun waiting => ?_, told, posted⟩
    rw [processing] at waiting
    cases waiting

theorem receiveReply (announced : system.Announced) {reply : WorkerReply Value}
    {rest : List (WorkerReply Value)} (next : system.toMain = reply :: rest) :
    (WorkerSystem.receiveReply { system with toMain := rest } reply).Announced := by
  rcases eq_or_ne reply .ready with rfl | other
  · exact announced.leaves rfl rfl rfl (fun _ => .inl rfl) fun unready => by cases unready
  · have received : Announced { system with toMain := rest } := by
      refine announced.leaves rfl rfl rfl (fun told => told.imp_right fun member => ?_)
        announced.posted
      rw [next] at member
      exact (List.mem_cons.mp member).resolve_left other.symm
    cases reply with
    | loaded =>
      rw [WorkerSystem.receiveReply]
      split
      · exact received
      · exact received.leaves rfl rfl rfl id received.posted
    | ready => exact absurd rfl other
    | executeCallback callbackType args requestId =>
      rw [WorkerSystem.receiveReply]
      split <;> exact received.leaves rfl rfl rfl id received.posted
    | answer requestId answer =>
      rcases requestId with _ | requestId
      · exact received
      · rw [WorkerSystem.receiveReply]
        split
        · exact received.leaves rfl rfl rfl id received.posted
        · exact received

theorem processingEnds (announced : system.Announced) (outcome : Except Raised Value) :
    (system.processingEnds outcome).Announced := by
  rcases processing : system.worker.processing with _ | request
  · rw [WorkerSystem.processingEnds, processing]
    exact announced
  · rw [WorkerSystem.processingEnds, processing]
    have told := announced.ready
    have posted := announced.posted
    refine processQueue ?_ ?_
    · cases request <;> cases outcome <;> simp [processed, postAnswer] <;> exact told
    · cases request <;> cases outcome <;> exact posted

theorem step (announced : system.Announced) (event : WorkerEvent Value) :
    (system.step event).Announced := by
  cases event with
  | callMethodWithWorker call => exact announced.leaves rfl rfl rfl id announced.posted
  | postCall drawn =>
    rw [WorkerSystem.step, postCall]
    split
    · rename_i call promise ready found
      refine announced.leaves rfl rfl rfl id fun unready => ?_
      exact absurd ready (by simp_all)
    · exact announced
  | mainReceives =>
    rw [WorkerSystem.step, mainReceives]
    split
    · exact announced
    · rename_i reply rest next
      exact announced.receiveReply next
  | callbackEnds index ended =>
    rw [WorkerSystem.step, callbackEnds]
    split
    · exact announced.leaves rfl rfl rfl id announced.posted
    · exact announced
  | workerReceives =>
    rw [WorkerSystem.step, workerReceives]
    split
    · exact announced
    · rename_i request rest next
      cases request with
      | init initialization => exact processQueue announced.ready announced.posted
      | callMethod call requestId => exact processQueue announced.ready announced.posted
      | callbackAnswer requestId reply =>
        rw [onmessage]
        split
        · exact announced.leaves rfl rfl rfl id announced.posted
        · exact processQueue announced.ready announced.posted
  | processingEnds outcome => exact announced.processingEnds outcome
  | callProxy callbackType args drawn =>
    rw [WorkerSystem.step, callProxy]
    split
    · refine announced.leaves rfl rfl rfl (fun told => told.imp_right fun member => ?_)
        announced.posted
      exact List.mem_append_left _ member
    · exact announced
  | callbackTimesOut requestId =>
    rw [WorkerSystem.step, callbackTimesOut]
    split
    · exact announced.leaves rfl rfl rfl id announced.posted
    · exact announced

end Announced

/-- At rest, a worker that has been initialized has every call settled. -/
theorem settled_of_ready {system : WorkerSystem Value} (announced : system.Announced)
    {settled : ℕ} (orderly : system.CallsOrderly settled) (rest : system.AtRest)
    (ready : system.worker.ready = true) : ∀ made ∈ system.main.calls, made.2 ≠ none := by
  have told : system.main.ready = true := by
    rcases announced.ready ready with prepared | member
    · exact prepared
    · rw [rest.toMain] at member
      exact absurd member List.not_mem_nil
  have nothing : system.unanswered = [] := by
    rw [unanswered, rest.processing, announced.idle rest.processing, rest.toWorker]
    rfl
  have answers : system.callFlow.answers = [] := by
    rw [callFlow, flowOver, rest.toMain]
    rfl
  have requests : system.callFlow.requests = [] := by
    rw [callFlow, nothing]
    rfl
  intro made member
  obtain ⟨number, found⟩ := List.mem_iff_getElem?.mp member
  refine orderly.inTurn.complete answers requests number made.1 made.2 ?_ found
  show number < system.main.posted
  rw [rest.posted told]
  exact (List.getElem?_eq_some_iff.mp found).1

/-- Before the main thread has been told that the worker is ready, no call is settled. -/
theorem unsettled_of_unready {system : WorkerSystem Value} (announced : system.Announced)
    {settled : ℕ} (orderly : system.CallsOrderly settled) (unready : system.main.ready = false) :
    ∀ made ∈ system.main.calls, made.2 = none := by
  intro made member
  obtain ⟨number, found⟩ := List.mem_iff_getElem?.mp member
  by_contra promised
  have early := (orderly.settled_iff found).mp promised
  have counted := orderly.length_ids
  have posted : system.callFlow.posted = 0 := announced.posted unready
  omega

/-- Once nothing is under way any more, every call of the client is settled if its worker has been
initialized, and no call is if it has not. -/
theorem callMethodWithWorker_atRest (initialization : Initialization)
    (events : List (WorkerEvent Value))
    (conforms : Run.Conforms step DrawsUnused (created initialization) events)
    (rest : (events.foldl step (created initialization)).AtRest) :
    ((events.foldl step (created initialization)).worker.ready = true →
      ∀ made ∈ (events.foldl step (created initialization)).main.calls, made.2 ≠ none) ∧
      ((events.foldl step (created initialization)).worker.ready = false →
        ∀ made ∈ (events.foldl step (created initialization)).main.calls, made.2 = none) := by
  obtain ⟨⟨handshake, settled, orderly⟩, announced⟩ := Run.foldl_invariant
    (fun system event (holds : system.Coordinated ∧ system.Announced) unused =>
      ⟨holds.1.step unused, holds.2.step event⟩)
    ⟨⟨.created initialization, 0, CallPipeline.Orderly.initial⟩, .created initialization⟩ conforms
  refine ⟨settled_of_ready announced orderly rest, fun unready => ?_⟩
  refine unsettled_of_unready announced orderly ?_
  rcases handshake.ready with ready | ⟨waiting, -, -⟩
  · rw [unready] at ready
    cases ready
  · exact waiting

end WorkerSystem

namespace Sample

open WorkerSystem

/-- A sync that is asked for before the worker is ready, and an answer to each thread. -/
def workerEvents : List (WorkerEvent ℕ) :=
  [.mainReceives, .workerReceives, .callMethodWithWorker ⟨.syncState, []⟩, .processingEnds (.ok 0),
    .mainReceives, .postCall "1", .workerReceives, .processingEnds (.ok 7), .mainReceives]

def workerRun : WorkerSystem ℕ :=
  workerEvents.foldl step (created .initMock)

theorem workerEvents_conform :
    Run.Conforms step DrawsUnused (created .initMock) workerEvents := by
  refine ⟨trivial, trivial, trivial, trivial, trivial, ?_, trivial, trivial, trivial, trivial⟩
  intro ready call promise found
  exact ExtTreeMap.getElem?_empty

theorem workerRun_atRest : workerRun.AtRest where
  toMain := List.isEmpty_iff.mp (by decide +kernel)
  toWorker := by decide +kernel
  processing := by decide +kernel
  posted := by decide +kernel

theorem callMethodWithWorker_atRest_sync :
    workerRun.worker.ready = true ∧ ∀ made ∈ workerRun.main.calls, made.2 ≠ none := by
  have ready : workerRun.worker.ready = true := by decide +kernel
  exact ⟨ready, (callMethodWithWorker_atRest .initMock workerEvents workerEvents_conform
    workerRun_atRest).1 ready⟩

end Sample

end MidenClient
