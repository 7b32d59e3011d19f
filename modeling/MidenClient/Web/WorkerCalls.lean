/-
This file proves that the calls of a web client reach the worker, and their answers the callers,
in the order in which they were made.

The two threads, their queue and the messages under way are a pipeline of calls: what waits to be
served is what the worker processes, what is in its queue and what is under way to it, in this
order. Every step of the system is a run of steps of that pipeline, provided that no call is
posted under an id that is still pending; and with such an id a caller loses its answer.
-/

import MidenClient.Library.CallPipeline
import MidenClient.Web.WorkerMessages

namespace MidenClient

variable {Value : Type}

/-- How a call is to be served: by the handler of its method, if there is one. -/
def ServedBy.IsFor (call : MethodCall Value) : ServedBy Value → Prop
  | handler _ => call.methodName.hasHandler = true
  | refusal message => call.methodName.hasHandler = false ∧
      message = "Unsupported method: " ++ call.methodName.text

namespace WorkerSystem

/-! ### The pipeline of calls -/

abbrev CallFlow (Value : Type) :=
  CallPipeline (MethodCall Value) (ServedBy Value) (MethodAnswer Value) (Except Raised Value)
    RequestId

def callRequest? : WorkerRequest Value → Option (MethodCall Value × RequestId)
  | .callMethod call requestId => some (call, requestId)
  | _ => none

def callAnswer? : WorkerReply Value → Option (RequestId × MethodAnswer Value)
  | .answer (some requestId) answer => some (requestId, answer)
  | _ => none

/-- The calls of a system when certain messages are still to be answered by the worker. -/
def flowOver (system : WorkerSystem Value) (requests : List (WorkerRequest Value)) :
    CallFlow Value where
  calls := system.main.calls
  posted := system.main.posted
  pending := system.main.pendingRequests
  served := system.worker.served
  answers := system.toMain.filterMap callAnswer?
  requests := requests.filterMap callRequest?

/-- The messages that the worker has still to answer. -/
def unanswered (system : WorkerSystem Value) : List (WorkerRequest Value) :=
  system.worker.processing.toList ++ (system.worker.messageQueue ++ system.toWorker)

def callFlow (system : WorkerSystem Value) : CallFlow Value :=
  system.flowOver system.unanswered

/-- Steps of the pipeline, with the answers of the worker. -/
abbrev FlowSteps : CallFlow Value → CallFlow Value → Prop :=
  Relation.ReflTransGen
    (CallPipeline.Step ServedBy.answer MethodAnswer.settlement ServedBy.IsFor)

/-- What is seen of the calls of a system is in order. -/
abbrev CallsInTurn (system : WorkerSystem Value) : Prop :=
  CallPipeline.InTurn ServedBy.answer MethodAnswer.settlement ServedBy.IsFor system.callFlow

/-- So many calls are settled, and the others are under way in their order. -/
abbrev CallsOrderly (system : WorkerSystem Value) (settled : ℕ) : Prop :=
  CallPipeline.Orderly ServedBy.answer MethodAnswer.settlement ServedBy.IsFor system.callFlow
    settled

/-- The main thread takes the worker to be ready only if it is, and the worker waits only for
handlers that exist. -/
structure Handshake (system : WorkerSystem Value) : Prop where
  ready : system.worker.ready = true ∨
    (system.main.ready = false ∧ WorkerReply.ready ∉ system.toMain ∧
      ∀ request ∈ system.unanswered, callRequest? request = none)
  processing : ∀ request, system.worker.processing = some request →
    refusal? true request = none

/-- The id that is drawn for a call is not that of a pending one. -/
def DrawsUnused (system : WorkerSystem Value) : WorkerEvent Value → Prop
  | .postCall drawn => system.main.ready = true → ∀ call promise,
      system.main.calls[system.main.posted]? = some (call, promise) →
      system.main.pendingRequests[call.methodName.text ++ "-" ++ drawn]? = none
  | _ => True

/-! ### Answering messages -/

/-- An answer that is for the call of a message, if it is one. -/
def AnswersCall (request : WorkerRequest Value) (served : ServedBy Value) : Prop :=
  ∀ call requestId, callRequest? request = some (call, requestId) → served.IsFor call

/-- What is no call leaves nothing of itself. -/
theorem flowOver_skip (system : WorkerSystem Value) {request : WorkerRequest Value}
    (other : callRequest? request = none) (rest : List (WorkerRequest Value)) :
    system.flowOver (request :: rest) = system.flowOver rest := by
  rw [flowOver, List.filterMap_cons_none other, flowOver]

theorem postAnswer_flow (system : WorkerSystem Value) {request : WorkerRequest Value}
    {served : ServedBy Value} (answers : AnswersCall request served)
    (rest : List (WorkerRequest Value)) :
    FlowSteps (system.flowOver (request :: rest))
      ((system.postAnswer request served).flowOver rest) := by
  cases request with
  | init initialization =>
    have same : (system.postAnswer (.init initialization) served).flowOver rest =
        system.flowOver rest := by
      simp [flowOver, postAnswer, servedFor, requestId?, callAnswer?]
    rw [same, flowOver_skip system rfl rest]
  | callMethod call requestId =>
    have same : (system.postAnswer (.callMethod call requestId) served).flowOver rest =
        (system.flowOver (.callMethod call requestId :: rest)).serve ServedBy.answer call requestId
          (rest.filterMap callRequest?) served := by
      simp [flowOver, postAnswer, servedFor, requestId?, callAnswer?, CallPipeline.serve]
    rw [same]
    exact .single (.serve _ call requestId _ served rfl (answers call requestId rfl))
  | callbackAnswer requestId reply =>
    have same : (system.postAnswer (.callbackAnswer requestId reply) served).flowOver rest =
        system.flowOver rest := by
      simp [flowOver, postAnswer, servedFor, requestId?, callAnswer?]
    rw [same, flowOver_skip system rfl rest]

/-- A refusal is for its call once the worker is ready. -/
theorem refusal_answersCall {ready : Bool} {request : WorkerRequest Value} {message : String}
    (refused : refusal? ready request = some message)
    (prepared : ready = true ∨ callRequest? request = none) :
    AnswersCall request (.refusal message) := by
  intro call requestId called
  cases request with
  | init initialization => cases called
  | callMethod made id =>
    obtain ⟨rfl, rfl⟩ := Prod.mk.inj (Option.some_inj.mp called)
    rcases prepared with rfl | other
    · rcases handled : made.methodName.hasHandler with _ | _
      · simp only [refusal?, handled] at refused
        exact ⟨handled, (Option.some_inj.mp refused).symm⟩
      · simp [refusal?, handled] at refused
    · cases other
  | callbackAnswer id reply => cases called

/-! ### Taking messages off the queue -/

/-- What refusals keep, and does not depend on the queue, is kept by taking messages off it. -/
theorem processNext_keeps (kept : WorkerSystem Value → Prop)
    (refused : ∀ system request message, kept system →
      kept (postAnswer system request (.refusal message)))
    (queued : ∀ (system : WorkerSystem Value) messageQueue processing provided, kept system →
      kept { system with worker := { system.worker with
        messageQueue := messageQueue, processing := processing, provided := provided } })
    (queue : List (WorkerRequest Value)) {system : WorkerSystem Value} (holds : kept system) :
    kept (processNext system queue) := by
  induction queue generalizing system with
  | nil => exact queued system [] none system.worker.provided holds
  | cons request rest inductionHypothesis =>
    rw [processNext]
    split
    · exact inductionHypothesis (refused system request _ holds)
    · exact queued system rest (some request) _ holds

/-- What is not looked at by taking messages off the queue. -/
theorem processNext_others (system : WorkerSystem Value) (queue : List (WorkerRequest Value)) :
    (processNext system queue).main = system.main ∧
      (processNext system queue).worker.ready = system.worker.ready ∧
      (processNext system queue).toWorker = system.toWorker ∧
      (WorkerReply.ready ∈ (processNext system queue).toMain →
        WorkerReply.ready ∈ system.toMain) := by
  refine processNext_keeps (fun after => after.main = system.main ∧
    after.worker.ready = system.worker.ready ∧ after.toWorker = system.toWorker ∧
      (WorkerReply.ready ∈ after.toMain → WorkerReply.ready ∈ system.toMain)) ?_ ?_ queue
    ⟨rfl, rfl, rfl, id⟩
  · rintro before request message ⟨main, ready, toWorker, announced⟩
    refine ⟨main, ready, toWorker, fun member => announced ?_⟩
    rcases List.mem_append.mp member with earlier | answered
    · exact earlier
    · cases List.mem_singleton.mp answered
  · rintro before messageQueue processing provided holds
    exact holds

/-- What the worker is left with was in its queue, and it waits for a message only if that is not
refused. -/
theorem processNext_left (system : WorkerSystem Value) (queue : List (WorkerRequest Value)) :
    (∀ request ∈ (processNext system queue).worker.processing.toList ++
      (processNext system queue).worker.messageQueue, request ∈ queue) ∧
      ∀ request, (processNext system queue).worker.processing = some request →
        refusal? system.worker.ready request = none := by
  induction queue generalizing system with
  | nil => exact ⟨fun request member => member, fun request found => by cases found⟩
  | cons request rest inductionHypothesis =>
    rw [processNext]
    split
    · obtain ⟨left, waits⟩ := inductionHypothesis (postAnswer system request (.refusal _))
      exact ⟨fun other member => List.mem_cons_of_mem request (left other member), waits⟩
    · rename_i accepted
      refine ⟨fun other member => member, fun other found => ?_⟩
      rw [← Option.some_inj.mp found]
      exact accepted

/-- Taking messages off the queue serves the calls among them. -/
theorem processNext_flow (system : WorkerSystem Value) (queue : List (WorkerRequest Value))
    (prepared : system.worker.ready = true ∨ ∀ request ∈ queue, callRequest? request = none) :
    FlowSteps (system.flowOver (queue ++ system.toWorker)) (processNext system queue).callFlow := by
  induction queue generalizing system with
  | nil => exact .refl
  | cons request rest inductionHypothesis =>
    rw [processNext]
    split
    · rename_i message refused
      have answers := refusal_answersCall refused (prepared.imp_right fun others =>
        others request List.mem_cons_self)
      refine (postAnswer_flow system answers (rest ++ system.toWorker)).trans ?_
      exact inductionHypothesis (postAnswer system request (.refusal message))
        (prepared.imp_right fun others other member =>
          others other (List.mem_cons_of_mem request member))
    · exact .refl

/-! ### The steps of the system -/

theorem processQueue_flow (system : WorkerSystem Value)
    (prepared : system.worker.ready = true ∨
      ∀ request ∈ system.worker.messageQueue, callRequest? request = none) :
    FlowSteps system.callFlow system.processQueue.callFlow := by
  rcases processing : system.worker.processing with _ | request
  · rw [processQueue, processing, callFlow, unanswered, processing]
    exact processNext_flow system _ prepared
  · rw [processQueue, processing]

/-- A message that is put into the queue has still to be answered. -/
theorem enqueue_flow (system : WorkerSystem Value) (request : WorkerRequest Value)
    (prepared : system.worker.ready = true ∨
      ∀ other ∈ system.worker.messageQueue ++ [request], callRequest? other = none) :
    FlowSteps (system.flowOver (system.worker.processing.toList ++
      (system.worker.messageQueue ++ request :: system.toWorker)))
      (system.enqueue request).callFlow := by
  have same : system.worker.messageQueue ++ request :: system.toWorker =
      (system.worker.messageQueue ++ [request]) ++ system.toWorker := by
    rw [List.append_assoc, List.singleton_append]
  rw [same]
  exact processQueue_flow { system with worker := { system.worker with
    messageQueue := system.worker.messageQueue ++ [request] } } prepared

theorem callMethodWithWorker_flow (system : WorkerSystem Value) (call : MethodCall Value) :
    FlowSteps system.callFlow (system.callMethodWithWorker call).callFlow :=
  .single (.call _ call)

theorem postCall_callFlow {system : WorkerSystem Value} {drawn : String} {call : MethodCall Value}
    {promise : Option (Except Raised Value)} (ready : system.main.ready = true)
    (found : system.main.calls[system.main.posted]? = some (call, promise)) :
    (system.postCall drawn).callFlow =
      system.callFlow.post call (call.methodName.text ++ "-" ++ drawn) := by
  have requests : (system.unanswered ++
      [WorkerRequest.callMethod call (call.methodName.text ++ "-" ++ drawn)]).filterMap
        callRequest? =
      system.unanswered.filterMap callRequest? ++
        [(call, call.methodName.text ++ "-" ++ drawn)] := by
    rw [List.filterMap_append]
    rfl
  simp only [postCall, ready, found, callFlow, flowOver, CallPipeline.post]
  rw [← requests, unanswered, unanswered, List.append_assoc, List.append_assoc]

theorem postCall_flow (system : WorkerSystem Value) {drawn : String}
    (unused : system.DrawsUnused (.postCall drawn)) :
    FlowSteps system.callFlow (system.postCall drawn).callFlow := by
  rcases ready : system.main.ready with _ | _
  · rw [postCall, ready]
  · rcases found : system.main.calls[system.main.posted]? with _ | ⟨call, promise⟩
    · rw [postCall, ready, found]
    · rw [postCall_callFlow ready found]
      exact .single (.post _ call promise _ found (unused ready call promise found))

/-- A message without an answer to a call is received. -/
theorem callFlow_received {system : WorkerSystem Value} {reply : WorkerReply Value}
    {rest : List (WorkerReply Value)} (next : system.toMain = reply :: rest)
    (other : callAnswer? reply = none) :
    callFlow { system with toMain := rest } = system.callFlow := by
  simp only [callFlow, flowOver, unanswered, next, List.filterMap_cons_none other]

/-- Messages without calls are posted to the worker. -/
theorem callFlow_posted (system : WorkerSystem Value) (requests : List (WorkerRequest Value))
    (others : requests.filterMap callRequest? = []) :
    callFlow { system with toWorker := system.toWorker ++ requests } = system.callFlow := by
  simp only [callFlow, flowOver, unanswered, List.filterMap_append, others, List.append_nil]

theorem receiveReply_flow (system : WorkerSystem Value) {reply : WorkerReply Value}
    {rest : List (WorkerReply Value)} (next : system.toMain = reply :: rest) {settled : ℕ}
    (orderly : system.CallsOrderly settled) :
    FlowSteps system.callFlow (receiveReply { system with toMain := rest } reply).callFlow := by
  cases reply with
  | loaded =>
    rw [← callFlow_received next rfl, receiveReply]
    split
    · exact .refl
    · rw [← callFlow_posted { system with toMain := rest } [.init _] rfl]
      exact .refl
  | ready =>
    rw [← callFlow_received next rfl, receiveReply]
    exact .refl
  | executeCallback callbackType args requestId =>
    rw [← callFlow_received next rfl, receiveReply]
    split
    · exact .refl
    · rw [← callFlow_posted { system with toMain := rest } [.callbackAnswer _ _] rfl]
  | answer requestId answer =>
    rcases requestId with _ | requestId
    · rw [← callFlow_received next rfl, receiveReply]
    · have first : system.callFlow.answers =
          (requestId, answer) :: rest.filterMap callAnswer? := by
        simp [callFlow, flowOver, next, callAnswer?]
      have found : system.main.pendingRequests[requestId]? = some settled := by
        have pending := orderly.pending
        rw [CallPipeline.ids, first, List.map_cons, List.cons_append] at pending
        exact pending.head
      simp only [receiveReply, found]
      exact .single (.settle _ requestId answer _ settled first found)

theorem callbackEnds_flow (system : WorkerSystem Value) (index : ℕ) (ended : CallbackEnd Value) :
    FlowSteps system.callFlow (system.callbackEnds index ended).callFlow := by
  rw [callbackEnds]
  split
  · rename_i run found
    have others : (ended.reply.toList.map
        (WorkerRequest.callbackAnswer run.requestId)).filterMap callRequest? = [] := by
      rw [List.filterMap_map]
      exact List.filterMap_eq_nil_iff.mpr fun reply _ => rfl
    rw [← callFlow_posted system _ others]
    exact .refl
  · exact .refl

theorem workerReceives_flow (system : WorkerSystem Value) (handshake : system.Handshake) :
    FlowSteps system.callFlow system.workerReceives.callFlow := by
  rcases next : system.toWorker with _ | ⟨request, rest⟩
  · rw [workerReceives, next]
  · have before : system.callFlow = flowOver { system with toWorker := rest }
        (system.worker.processing.toList ++
          (system.worker.messageQueue ++ request :: rest)) := by
      rw [callFlow, unanswered, next]
      rfl
    have prepared : system.worker.ready = true ∨
        ∀ other ∈ system.worker.messageQueue ++ [request], callRequest? other = none := by
      refine handshake.ready.imp_right fun holds other member => holds.2.2 other ?_
      refine List.mem_append_right _ ?_
      rw [next, ← List.singleton_append, ← List.append_assoc]
      exact List.mem_append_left rest member
    have queued := enqueue_flow { system with toWorker := rest } request prepared
    rw [workerReceives, next, before]
    cases request with
    | init initialization => exact queued
    | callMethod call requestId => exact queued
    | callbackAnswer requestId reply =>
      simp only [onmessage]
      split
      · have dropped : ∀ front : List (WorkerRequest Value),
            (front ++ .callbackAnswer requestId reply :: rest).filterMap callRequest? =
              (front ++ rest).filterMap callRequest? := by
          intro front
          rw [List.filterMap_append, List.filterMap_append]
          rfl
        rw [flowOver, ← List.append_assoc, dropped, List.append_assoc]
        exact .refl
      · exact queued

/-- The handler of a message that is waited for answers it. -/
theorem processed_flow (system : WorkerSystem Value) {request : WorkerRequest Value}
    (accepted : refusal? true request = none) (outcome : Except Raised Value)
    (rest : List (WorkerRequest Value)) :
    FlowSteps (system.flowOver (request :: rest))
      ((system.processed request outcome).flowOver rest) := by
  have answers : AnswersCall request (.handler outcome) := by
    intro call requestId called
    cases request with
    | init initialization => cases called
    | callMethod made id =>
      obtain ⟨rfl, rfl⟩ := Prod.mk.inj (Option.some_inj.mp called)
      rcases handled : made.methodName.hasHandler with _ | _
      · simp [refusal?, handled] at accepted
      · exact handled
    | callbackAnswer id reply => cases called
  have answered := postAnswer_flow system answers rest
  cases request with
  | init initialization =>
    cases outcome with
    | ok result =>
      have same : (system.processed (.init initialization) (.ok result)).flowOver rest =
          system.flowOver rest := by
        simp [processed, flowOver, callAnswer?]
      rw [same, flowOver_skip system rfl rest]
    | error raised => exact answered
  | callMethod call requestId => exact answered
  | callbackAnswer requestId reply => exact answered

theorem processed_queue (system : WorkerSystem Value) (request : WorkerRequest Value)
    (outcome : Except Raised Value) :
    (system.processed request outcome).worker.messageQueue = system.worker.messageQueue ∧
      (system.processed request outcome).toWorker = system.toWorker ∧
      (system.worker.ready = true → (system.processed request outcome).worker.ready = true) := by
  cases request <;> cases outcome <;> simp [processed, postAnswer]

theorem processingEnds_flow (system : WorkerSystem Value) (handshake : system.Handshake)
    (outcome : Except Raised Value) :
    FlowSteps system.callFlow (system.processingEnds outcome).callFlow := by
  rcases processing : system.worker.processing with _ | request
  · rw [processingEnds, processing]
  · obtain ⟨queue, toWorker, ready⟩ := processed_queue system request outcome
    have answered := processed_flow system (handshake.processing request processing) outcome
      (system.worker.messageQueue ++ system.toWorker)
    have prepared : (system.processed request outcome).worker.ready = true ∨
        ∀ other ∈ (system.processed request outcome).worker.messageQueue,
          callRequest? other = none := by
      refine handshake.ready.imp ready fun holds other member => holds.2.2 other ?_
      rw [queue] at member
      exact List.mem_append_right _ (List.mem_append_left _ member)
    rw [processingEnds, processing, callFlow, unanswered, processing]
    refine answered.trans ?_
    rw [← queue, ← toWorker]
    exact processQueue_flow { system.processed request outcome with
      worker := { (system.processed request outcome).worker with processing := none } } prepared

theorem callProxy_flow (system : WorkerSystem Value) (callbackType : CallbackType)
    (args : List Value) (drawn : String) :
    FlowSteps system.callFlow (system.callProxy callbackType args drawn).callFlow := by
  rw [callProxy]
  split
  · simp only [callFlow, flowOver, unanswered, List.filterMap_append]
    rw [List.filterMap_cons_none rfl, List.filterMap_nil, List.append_nil]
  · exact .refl

theorem callbackTimesOut_flow (system : WorkerSystem Value) (requestId : RequestId) :
    FlowSteps system.callFlow (system.callbackTimesOut requestId).callFlow := by
  rw [callbackTimesOut]
  split <;> exact .refl

/-- Every step of the system is a run of steps of the pipeline. -/
theorem step_flow (system : WorkerSystem Value) (handshake : system.Handshake) {settled : ℕ}
    (orderly : system.CallsOrderly settled) {event : WorkerEvent Value}
    (unused : system.DrawsUnused event) :
    FlowSteps system.callFlow (system.step event).callFlow := by
  cases event with
  | callMethodWithWorker call => exact callMethodWithWorker_flow system call
  | postCall drawn => exact postCall_flow system unused
  | mainReceives =>
    rw [step, mainReceives]
    split
    · exact .refl
    · rename_i reply rest next
      exact receiveReply_flow system next orderly
  | callbackEnds index ended => exact callbackEnds_flow system index ended
  | workerReceives => exact workerReceives_flow system handshake
  | processingEnds outcome => exact processingEnds_flow system handshake outcome
  | callProxy callbackType args drawn => exact callProxy_flow system callbackType args drawn
  | callbackTimesOut requestId => exact callbackTimesOut_flow system requestId

/-! ### The handshake -/

namespace Handshake

variable {system : WorkerSystem Value}

theorem created (initialization : Initialization) :
    (WorkerSystem.created initialization : WorkerSystem Value).Handshake where
  ready := by
    refine .inr ⟨rfl, by simp [WorkerSystem.created], fun request member => ?_⟩
    exact absurd member List.not_mem_nil
  processing := by
    intro request found
    cases found

/-- A step that leaves the worker alone, and neither posts a call before the worker is ready nor
takes it to be ready before it is. -/
theorem leaves (handshake : system.Handshake) {next : WorkerSystem Value}
    (ready : next.worker.ready = system.worker.ready)
    (processing : next.worker.processing = system.worker.processing)
    (unready : system.main.ready = false → WorkerReply.ready ∉ system.toMain →
      (∀ request ∈ system.unanswered, callRequest? request = none) →
      next.main.ready = false ∧ WorkerReply.ready ∉ next.toMain ∧
        ∀ request ∈ next.unanswered, callRequest? request = none) : next.Handshake where
  ready := by
    rw [ready]
    exact handshake.ready.imp_right fun holds => unready holds.1 holds.2.1 holds.2.2
  processing := by
    rw [processing]
    exact handshake.processing

/-- Taking messages off a queue that holds no calls before the worker is ready. -/
theorem processNext {queue : List (WorkerRequest Value)}
    (ready : system.worker.ready = true ∨
      (system.main.ready = false ∧ WorkerReply.ready ∉ system.toMain ∧
        ∀ request ∈ queue ++ system.toWorker, callRequest? request = none)) :
    (WorkerSystem.processNext system queue).Handshake := by
  obtain ⟨main, same, toWorker, announced⟩ := processNext_others system queue
  obtain ⟨left, waits⟩ := processNext_left system queue
  constructor
  · rw [same, main]
    refine ready.imp_right fun holds => ⟨holds.1, fun member => holds.2.1 (announced member), ?_⟩
    intro request member
    rw [unanswered, toWorker, ← List.append_assoc] at member
    rcases List.mem_append.mp member with worker | posted
    · exact holds.2.2 request (List.mem_append_left _ (left request worker))
    · exact holds.2.2 request (List.mem_append_right _ posted)
  · intro request found
    have accepted := waits request found
    cases request with
    | init initialization => rfl
    | callMethod call requestId =>
      rcases ready with prepared | holds
      · rw [prepared] at accepted
        exact accepted
      · have member := left (.callMethod call requestId)
          (List.mem_append_left _ (Option.mem_toList.mpr found))
        cases holds.2.2 _ (List.mem_append_left _ member)
    | callbackAnswer requestId reply => cases accepted

theorem processQueue
    (handshake : ∀ request, system.worker.processing = some request →
      refusal? true request = none)
    (ready : system.worker.ready = true ∨
      (system.main.ready = false ∧ WorkerReply.ready ∉ system.toMain ∧
        ∀ request ∈ system.unanswered, callRequest? request = none)) :
    system.processQueue.Handshake := by
  rcases processing : system.worker.processing with _ | request
  · rw [unanswered, processing] at ready
    rw [WorkerSystem.processQueue, processing]
    exact processNext ready
  · rw [WorkerSystem.processQueue, processing]
    exact ⟨ready, handshake⟩

theorem postCall (handshake : system.Handshake) (drawn : String) :
    (system.postCall drawn).Handshake := by
  rw [WorkerSystem.postCall]
  split
  · rename_i call promise ready found
    exact handshake.leaves rfl rfl fun unready => absurd ready (by simp [unready])
  · exact handshake

/-- Messages without calls are posted to the worker. -/
theorem posted (handshake : system.Handshake) (main : MainThread Value)
    (unready : system.main.ready = false → main.ready = false)
    {requests : List (WorkerRequest Value)}
    (others : ∀ request ∈ requests, callRequest? request = none) :
    Handshake { system with main := main, toWorker := system.toWorker ++ requests } := by
  refine handshake.leaves rfl rfl fun waiting quiet none_called => ⟨unready waiting, quiet, ?_⟩
  intro request member
  rw [unanswered, ← List.append_assoc, ← List.append_assoc] at member
  rcases List.mem_append.mp member with earlier | later
  · refine none_called request ?_
    rwa [unanswered, ← List.append_assoc]
  · exact others request later

theorem receiveReply (handshake : system.Handshake) {reply : WorkerReply Value}
    {rest : List (WorkerReply Value)} (next : system.toMain = reply :: rest) :
    (WorkerSystem.receiveReply { system with toMain := rest } reply).Handshake := by
  have received : Handshake { system with toMain := rest } := by
    refine handshake.leaves rfl rfl fun waiting quiet others => ⟨waiting, fun member => ?_, others⟩
    rw [next] at quiet
    exact quiet (List.mem_cons_of_mem reply member)
  cases reply with
  | loaded =>
    rw [WorkerSystem.receiveReply]
    split
    · exact received
    · refine received.posted { system.main with loaded := true } id fun request member => ?_
      rw [List.mem_singleton.mp member]
      rfl
  | ready =>
    refine handshake.leaves rfl rfl fun waiting quiet others => ?_
    rw [next] at quiet
    exact absurd List.mem_cons_self quiet
  | executeCallback callbackType args requestId =>
    rw [WorkerSystem.receiveReply]
    split
    · exact received.leaves rfl rfl fun waiting quiet others => ⟨waiting, quiet, others⟩
    · refine received.posted system.main id fun request member => ?_
      rw [List.mem_singleton.mp member]
      rfl
  | answer requestId answer =>
    rcases requestId with _ | requestId
    · exact received
    · rw [WorkerSystem.receiveReply]
      split
      · exact received.leaves rfl rfl fun waiting quiet others => ⟨waiting, quiet, others⟩
      · exact received

theorem callbackEnds (handshake : system.Handshake) (index : ℕ) (ended : CallbackEnd Value) :
    (system.callbackEnds index ended).Handshake := by
  rw [WorkerSystem.callbackEnds]
  split
  · rename_i run found
    refine handshake.posted { system.main with
      running := system.main.running.eraseIdx index
      ended := system.main.ended ++ [(run, ended)] } id fun request member => ?_
    obtain ⟨reply, -, rfl⟩ := List.mem_map.mp member
    rfl
  · exact handshake

theorem enqueue {rest : List (WorkerRequest Value)} (request : WorkerRequest Value)
    (handshake : system.Handshake) (next : system.toWorker = request :: rest) :
    (WorkerSystem.enqueue { system with toWorker := rest } request).Handshake := by
  refine processQueue handshake.processing (handshake.ready.imp_right fun holds =>
    ⟨holds.1, holds.2.1, fun other member => holds.2.2 other ?_⟩)
  rw [unanswered, List.append_assoc] at member
  rwa [unanswered, next]

theorem workerReceives (handshake : system.Handshake) : system.workerReceives.Handshake := by
  rw [WorkerSystem.workerReceives]
  split
  · exact handshake
  · rename_i request rest next
    cases request with
    | init initialization => exact handshake.enqueue _ next
    | callMethod call requestId => exact handshake.enqueue _ next
    | callbackAnswer requestId reply =>
      rw [onmessage]
      split
      · refine handshake.leaves rfl rfl fun waiting quiet others => ⟨waiting, quiet, ?_⟩
        intro other member
        refine others other ?_
        rw [unanswered, next]
        rw [unanswered] at member
        rcases List.mem_append.mp member with processed | left
        · exact List.mem_append_left _ processed
        · rcases List.mem_append.mp left with queued | later
          · exact List.mem_append_right _ (List.mem_append_left _ queued)
          · exact List.mem_append_right _ (List.mem_append_right _ (List.mem_cons_of_mem _ later))
      · exact handshake.enqueue _ next

/-- Before the worker is ready, an answer it posts does not say that it is. -/
theorem processed (handshake : system.Handshake) {request : WorkerRequest Value}
    (processing : system.worker.processing = some request) (outcome : Except Raised Value) :
    (system.processed request outcome).worker.ready = true ∨
      (system.processed request outcome).main.ready = false ∧
        WorkerReply.ready ∉ (system.processed request outcome).toMain := by
  rcases handshake.ready with ready | ⟨waiting, quiet, -⟩
  · exact .inl ((processed_queue system request outcome).2.2 ready)
  · cases request <;> cases outcome <;>
      simp [WorkerSystem.processed, postAnswer, waiting, quiet]

theorem processingEnds (handshake : system.Handshake) (outcome : Except Raised Value) :
    (system.processingEnds outcome).Handshake := by
  rcases processing : system.worker.processing with _ | request
  · rw [WorkerSystem.processingEnds, processing]
    exact handshake
  · obtain ⟨queue, toWorker, ready⟩ := processed_queue system request outcome
    rw [WorkerSystem.processingEnds, processing]
    refine processQueue (fun other found => by cases found) ?_
    rcases handshake.ready with prepared | ⟨-, -, others⟩
    · exact .inl (ready prepared)
    · refine (handshake.processed processing outcome).imp_right fun holds =>
        ⟨holds.1, holds.2, fun other member => others other ?_⟩
      rw [unanswered, queue, toWorker] at member
      exact List.mem_append_right _ member

theorem callProxy (handshake : system.Handshake) (callbackType : CallbackType)
    (args : List Value) (drawn : String) :
    (system.callProxy callbackType args drawn).Handshake := by
  rw [WorkerSystem.callProxy]
  split
  · refine handshake.leaves rfl rfl fun waiting quiet others => ⟨waiting, ?_, others⟩
    simp [quiet]
  · exact handshake

theorem callbackTimesOut (handshake : system.Handshake) (requestId : RequestId) :
    (system.callbackTimesOut requestId).Handshake := by
  rw [WorkerSystem.callbackTimesOut]
  split
  · exact handshake.leaves rfl rfl fun waiting quiet others => ⟨waiting, quiet, others⟩
  · exact handshake

theorem step (handshake : system.Handshake) (event : WorkerEvent Value) :
    (system.step event).Handshake := by
  cases event with
  | callMethodWithWorker call =>
    exact handshake.leaves rfl rfl fun waiting quiet others => ⟨waiting, quiet, others⟩
  | postCall drawn => exact handshake.postCall drawn
  | mainReceives =>
    rw [WorkerSystem.step, mainReceives]
    split
    · exact handshake
    · rename_i reply rest next
      exact handshake.receiveReply next
  | callbackEnds index ended => exact handshake.callbackEnds index ended
  | workerReceives => exact handshake.workerReceives
  | processingEnds outcome => exact handshake.processingEnds outcome
  | callProxy callbackType args drawn => exact handshake.callProxy callbackType args drawn
  | callbackTimesOut requestId => exact handshake.callbackTimesOut requestId

end Handshake

/-! ### Runs -/

/-- The calls are under way in their order, and the threads agree on whether they are ready. -/
def Coordinated (system : WorkerSystem Value) : Prop :=
  system.Handshake ∧ ∃ settled, system.CallsOrderly settled

theorem Coordinated.step {system : WorkerSystem Value} {event : WorkerEvent Value}
    (coordinated : system.Coordinated) (unused : system.DrawsUnused event) :
    (system.step event).Coordinated := by
  obtain ⟨handshake, settled, orderly⟩ := coordinated
  exact ⟨handshake.step event,
    CallPipeline.Orderly.steps ⟨settled, orderly⟩ (step_flow system handshake orderly unused)⟩

/-- A call posted under the id of a pending one takes the answer of that one. -/
theorem Coordinated.drawsUnused {system : WorkerSystem Value} {event : WorkerEvent Value}
    (coordinated : system.Coordinated) (inTurn : (system.step event).CallsInTurn) :
    system.DrawsUnused event := by
  cases event with
  | postCall drawn =>
    intro ready call promise found
    by_contra used
    obtain ⟨-, settled, orderly⟩ := coordinated
    have lost := orderly.not_inTurn_post call used
    rw [CallsInTurn, WorkerSystem.step, postCall_callFlow ready found] at inTurn
    exact lost inTurn
  | _ => exact trivial

/-- In every state of a run the calls of the client are served in the order in which they were
made, each of them once and by the handler of its method, and settled in this order with their
own answers, while no posted call is lost, if and only if no call is posted under an id that is
still that of a pending one. -/
theorem callMethodWithWorker_inTurn_iff (initialization : Initialization)
    (events : List (WorkerEvent Value)) :
    (∀ reached, reached <+: events →
      (reached.foldl step (created initialization)).CallsInTurn) ↔
      Run.Conforms step DrawsUnused (created initialization) events := by
  have inTurn : ∀ system : WorkerSystem Value, system.Coordinated → system.CallsInTurn := by
    rintro system ⟨-, settled, orderly⟩
    exact orderly.inTurn
  refine Run.forall_prefix_iff_conforms inTurn (fun system event coordinated => ?_)
    (fun system event coordinated unused => coordinated.step unused)
    ⟨.created initialization, 0, CallPipeline.Orderly.initial⟩
  exact ⟨coordinated.drawsUnused, fun unused => inTurn _ (coordinated.step unused)⟩

end WorkerSystem

end MidenClient
