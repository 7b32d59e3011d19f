/-
This file models the web client and the worker that runs its methods
(`web-client/js/index.js`, `web-client/js/workers/web-client-methods-worker.js`).

The two threads share nothing. Each posts messages to the other, which arrive one by one in the
order in which they were posted, and the environment decides which thread receives next, when a
handler of the worker or a callback of the user ends, and which timer expires. The ids of
requests are texts that end in random digits, so what is drawn belongs to the environment too.
-/

import MidenClient.Library.OrderedMap
import MidenClient.Library.Run

namespace MidenClient

open Std (ExtTreeMap)

/-- The keys of `MethodName`. -/
inductive MethodName where
  | createClient
  | applyTransaction
  | executeTransaction
  | proveTransaction
  | submitNewTransaction
  | submitNewTransactionMock
  | submitNewTransactionWithProver
  | submitNewTransactionWithProverMock
  | syncState
  | syncStateMock
  deriving DecidableEq, Repr

namespace MethodName

def text : MethodName → String
  | createClient => "createClient"
  | applyTransaction => "applyTransaction"
  | executeTransaction => "executeTransaction"
  | proveTransaction => "proveTransaction"
  | submitNewTransaction => "submitNewTransaction"
  | submitNewTransactionMock => "submitNewTransactionMock"
  | submitNewTransactionWithProver => "submitNewTransactionWithProver"
  | submitNewTransactionWithProverMock => "submitNewTransactionWithProverMock"
  | syncState => "syncState"
  | syncStateMock => "syncStateMock"

/-- The keys of `methodHandlers`. -/
def hasHandler : MethodName → Bool
  | createClient => false
  | _ => true

end MethodName

inductive CallbackType where
  | getKey
  | insertKey
  | sign
  deriving DecidableEq, Repr

def CallbackType.text : CallbackType → String
  | getKey => "getKey"
  | insertKey => "insertKey"
  | sign => "sign"

/-- The callbacks that the user of the client passed to it. -/
structure ProvidedCallbacks where
  getKeyCb : Bool
  insertKeyCb : Bool
  signCb : Bool
  deriving DecidableEq, Repr

namespace ProvidedCallbacks

def has (provided : ProvidedCallbacks) : CallbackType → Bool
  | .getKey => provided.getKeyCb
  | .insertKey => provided.insertKeyCb
  | .sign => provided.signCb

def none : ProvidedCallbacks :=
  ⟨false, false, false⟩

end ProvidedCallbacks

/-! ### What is thrown -/

/-- A value that is thrown, as far as it is looked at. The text of a value is itself, or its JSON
text where there is one. -/
inductive Raised where
  | error (name message : String)
  | object (name message text : Option String)
  | primitive (text : Option String)
  | null
  | undefined
  deriving DecidableEq, Repr

/-- An error as it is posted. -/
structure SerializedError where
  name : String
  message : Option String
  deriving DecidableEq, Repr

def serializeError : Raised → SerializedError
  | .error name message => ⟨name, some message⟩
  | .object name message text => ⟨name.getD "Error", message.or text⟩
  | .primitive text => ⟨"Error", text⟩
  | .null => ⟨"Error", some "null"⟩
  | .undefined => ⟨"Error", none⟩

/-- The error that is made of a posted one. -/
def deserializeError (error : SerializedError) : Raised :=
  .error error.name (error.message.getD "Unknown worker error")

variable {Value : Type}

/-- How a callback of the user ended. -/
inductive CallbackEnd (Value : Type) where
  | returned (result : Option Value)
  | threw (raised : Raised)
  deriving DecidableEq, Repr

/-- The answer to a callback. What is `undefined` is left out. -/
structure CallbackReply (Value : Type) where
  callbackResult : Option Value
  callbackError : Option String
  deriving DecidableEq, Repr

namespace CallbackEnd

/-- The answer that the main thread posts. The message is read off whatever was thrown, which
fails for `null` and `undefined`: then no answer is posted. -/
def reply : CallbackEnd Value → Option (CallbackReply Value)
  | returned result => some ⟨result, none⟩
  | threw (.error _ message) => some ⟨none, some message⟩
  | threw (.object _ message _) => some ⟨none, message⟩
  | threw (.primitive _) => some ⟨none, none⟩
  | threw .null => none
  | threw .undefined => none

end CallbackEnd

/-- The worker rejects for an error that is not falsy, which an empty text is. -/
def CallbackReply.settlement (reply : CallbackReply Value) : Except String (Option Value) :=
  match reply.callbackError with
  | some message => if message = "" then .ok reply.callbackResult else .error message
  | none => .ok reply.callbackResult

/-! ### Messages -/

abbrev RequestId := String

/-- A method with its arguments. -/
structure MethodCall (Value : Type) where
  methodName : MethodName
  args : List Value
  deriving DecidableEq, Repr

/-- What a method ended with, as it is posted. -/
abbrev MethodAnswer (Value : Type) := Except SerializedError Value

/-- What the promise of a call is settled with for an answer. -/
def MethodAnswer.settlement : MethodAnswer Value → Except Raised Value
  | .ok result => .ok result
  | .error error => .error (deserializeError error)

/-- How `initializeWorker` initializes the worker. The arguments of the client itself are left
out. -/
inductive Initialization where
  | init (provided : ProvidedCallbacks)
  | initMock
  deriving DecidableEq, Repr

def Initialization.provided : Initialization → ProvidedCallbacks
  | init provided => provided
  | initMock => .none

/-- Messages to the worker. The answer to a callback has no action. -/
inductive WorkerRequest (Value : Type) where
  | init (initialization : Initialization)
  | callMethod (call : MethodCall Value) (requestId : RequestId)
  | callbackAnswer (callbackRequestId : RequestId) (reply : CallbackReply Value)
  deriving DecidableEq, Repr

/-- Messages to the main thread. An answer to what has no id is one without an id. -/
inductive WorkerReply (Value : Type) where
  | loaded
  | ready
  | executeCallback (callbackType : CallbackType) (args : List Value) (requestId : RequestId)
  | answer (requestId : Option RequestId) (answer : MethodAnswer Value)

/-! ### The two threads -/

/-- A callback of the user that runs, or has ended, for a request of the worker. -/
structure CallbackRun (Value : Type) where
  callbackType : CallbackType
  args : List Value
  requestId : RequestId
  deriving DecidableEq, Repr

/-- The state of a `WebClient`. The calls made so far come with what their promises are settled
with; the first `posted` of them are past `await this.ready`. The calls that a callback made are
in `running` until they end, and then in `ended`, which the code does not keep. -/
structure MainThread (Value : Type) where
  initialization : Initialization
  loaded : Bool
  ready : Bool
  calls : List (MethodCall Value × Option (Except Raised Value))
  posted : ℕ
  pendingRequests : ExtTreeMap RequestId ℕ
  running : List (CallbackRun Value)
  ended : List (CallbackRun Value × CallbackEnd Value)

/-- How a method call was served: by its handler, or with an error of `processMessage`. -/
inductive ServedBy (Value : Type) where
  | handler (outcome : Except Raised Value)
  | refusal (message : String)

def ServedBy.answer : ServedBy Value → MethodAnswer Value
  | handler (.ok result) => .ok result
  | handler (.error raised) => .error (serializeError raised)
  | refusal message => .error (serializeError (.error "Error" message))

/-- A call of a callback proxy, with what its promise is settled with. -/
structure ProxyCall (Value : Type) where
  run : CallbackRun Value
  promise : Option (Except String (Option Value))

/-- The state of the worker. What it has served so far is in `served`, which the code does not
keep, and the callbacks that its client calls in `proxyCalls`. -/
structure WorkerThread (Value : Type) where
  ready : Bool
  provided : ProvidedCallbacks
  messageQueue : List (WorkerRequest Value)
  processing : Option (WorkerRequest Value)
  pendingCallbacks : ExtTreeMap RequestId ℕ
  proxyCalls : List (ProxyCall Value)
  served : List (MethodCall Value × ServedBy Value)

/-- The two threads and the messages under way between them, the next one first. -/
structure WorkerSystem (Value : Type) where
  main : MainThread Value
  worker : WorkerThread Value
  toWorker : List (WorkerRequest Value)
  toMain : List (WorkerReply Value)

/-- What can happen next. What is drawn for a request is the time and the random number at the
end of its id. -/
inductive WorkerEvent (Value : Type) where
  | callMethodWithWorker (call : MethodCall Value)
  | postCall (drawn : String)
  | mainReceives
  | callbackEnds (index : ℕ) (ended : CallbackEnd Value)
  | workerReceives
  | processingEnds (outcome : Except Raised Value)
  | callProxy (callbackType : CallbackType) (args : List Value) (drawn : String)
  | callbackTimesOut (requestId : RequestId)

namespace WorkerSystem

/-- A client has been constructed, and the script of its worker has run. -/
def created (initialization : Initialization) : WorkerSystem Value where
  main := ⟨initialization, false, false, [], 0, ∅, [], []⟩
  worker := ⟨false, .none, [], none, ∅, [], []⟩
  toWorker := []
  toMain := [.loaded]

/-! ### The main thread -/

/-- The first part of `callMethodWithWorker`, which waits for the worker to be ready. -/
def callMethodWithWorker (system : WorkerSystem Value) (call : MethodCall Value) :
    WorkerSystem Value :=
  { system with main := { system.main with calls := system.main.calls ++ [(call, none)] } }

/-- The rest of `callMethodWithWorker`, for the first call that waits. -/
def postCall (system : WorkerSystem Value) (drawn : String) : WorkerSystem Value :=
  match system.main.ready, system.main.calls[system.main.posted]? with
  | true, some (call, _) =>
    let requestId := call.methodName.text ++ "-" ++ drawn
    { system with
      main := { system.main with
        posted := system.main.posted + 1
        pendingRequests := system.main.pendingRequests.insert requestId system.main.posted }
      toWorker := system.toWorker ++ [.callMethod call requestId] }
  | _, _ => system

/-- The listener of the main thread. -/
def receiveReply (system : WorkerSystem Value) : WorkerReply Value → WorkerSystem Value
  | .loaded =>
    -- The promise of the worker that is loaded initializes it, once.
    if system.main.loaded then system
    else
      { system with
        main := { system.main with loaded := true }
        toWorker := system.toWorker ++ [.init system.main.initialization] }
  | .ready => { system with main := { system.main with ready := true } }
  | .executeCallback callbackType args requestId =>
    if system.main.initialization.provided.has callbackType then
      { system with main := { system.main with
        running := system.main.running ++ [⟨callbackType, args, requestId⟩] } }
    else
      { system with toWorker := system.toWorker ++ [.callbackAnswer requestId
        ⟨none, some ("Callback " ++ callbackType.text ++ " not available")⟩] }
  | .answer none _ => system
  | .answer (some requestId) answer =>
    match system.main.pendingRequests[requestId]? with
    | some call =>
      { system with main := { system.main with
        pendingRequests := system.main.pendingRequests.erase requestId
        calls := system.main.calls.modify call fun made =>
          (made.1, made.2.or (some (MethodAnswer.settlement answer))) } }
    | none => system

def mainReceives (system : WorkerSystem Value) : WorkerSystem Value :=
  match system.toMain with
  | [] => system
  | reply :: rest => receiveReply { system with toMain := rest } reply

/-- A callback of the user ends, and its answer is posted. -/
def callbackEnds (system : WorkerSystem Value) (index : ℕ) (ended : CallbackEnd Value) :
    WorkerSystem Value :=
  match system.main.running[index]? with
  | some run =>
    { system with
      main := { system.main with
        running := system.main.running.eraseIdx index
        ended := system.main.ended ++ [(run, ended)] }
      toWorker := system.toWorker ++
        ended.reply.toList.map (WorkerRequest.callbackAnswer run.requestId) }
  | none => system

/-! ### The worker -/

/-- What `processMessage` throws before it waits for anything. -/
def refusal? (ready : Bool) : WorkerRequest Value → Option String
  | .init _ => none
  | .callMethod call _ =>
    if !ready then some "Worker is not ready. Please initialize first."
    else if !call.methodName.hasHandler then
      some ("Unsupported method: " ++ call.methodName.text)
    else none
  | .callbackAnswer _ _ => some "Unsupported action: undefined"

def requestId? : WorkerRequest Value → Option RequestId
  | .callMethod _ requestId => some requestId
  | _ => none

/-- What answering a message adds to what the worker has served. -/
def servedFor (request : WorkerRequest Value) (served : ServedBy Value) :
    List (MethodCall Value × ServedBy Value) :=
  match request with
  | .callMethod call _ => [(call, served)]
  | _ => []

/-- Posts what a message was answered with. -/
def postAnswer (system : WorkerSystem Value) (request : WorkerRequest Value)
    (served : ServedBy Value) : WorkerSystem Value :=
  { system with
    worker := { system.worker with
      served := system.worker.served ++ servedFor request served }
    toMain := system.toMain ++ [.answer (requestId? request) served.answer] }

/-- What the client of the worker gets to call once it is being created. -/
def proxiesAfter (provided : ProvidedCallbacks) : WorkerRequest Value → ProvidedCallbacks
  | .init initialization => initialization.provided
  | _ => provided

/-- Takes messages off the queue as long as none of them makes the worker wait. -/
def processNext (system : WorkerSystem Value) : List (WorkerRequest Value) → WorkerSystem Value
  | [] => { system with worker := { system.worker with messageQueue := [], processing := none } }
  | request :: rest =>
    match refusal? system.worker.ready request with
    | some message => processNext (postAnswer system request (.refusal message)) rest
    | none =>
      { system with worker := { system.worker with
        messageQueue := rest
        processing := some request
        provided := proxiesAfter system.worker.provided request } }

def processQueue (system : WorkerSystem Value) : WorkerSystem Value :=
  match system.worker.processing with
  | some _ => system
  | none => processNext system system.worker.messageQueue

/-- Settles the promise of a call of a proxy. -/
def settleProxyCall (worker : WorkerThread Value) (requestId : RequestId) (index : ℕ)
    (settlement : Except String (Option Value)) : WorkerThread Value :=
  { worker with
    pendingCallbacks := worker.pendingCallbacks.erase requestId
    proxyCalls := worker.proxyCalls.modify index fun call =>
      { call with promise := call.promise.or (some settlement) } }

def enqueue (system : WorkerSystem Value) (request : WorkerRequest Value) : WorkerSystem Value :=
  processQueue { system with worker := { system.worker with
    messageQueue := system.worker.messageQueue ++ [request] } }

/-- The listener `onmessage` of the worker. -/
def onmessage (system : WorkerSystem Value) (request : WorkerRequest Value) :
    WorkerSystem Value :=
  match request with
  | .callbackAnswer requestId reply =>
    match system.worker.pendingCallbacks[requestId]? with
    | some index =>
      { system with worker := settleProxyCall system.worker requestId index reply.settlement }
    | none => system.enqueue request
  | _ => system.enqueue request

def workerReceives (system : WorkerSystem Value) : WorkerSystem Value :=
  match system.toWorker with
  | [] => system
  | request :: rest => onmessage { system with toWorker := rest } request

/-- What `processMessage` does once what it waits for has ended. -/
def processed (system : WorkerSystem Value) (request : WorkerRequest Value)
    (outcome : Except Raised Value) : WorkerSystem Value :=
  match request, outcome with
  | .init _, .ok _ =>
    { system with
      worker := { system.worker with ready := true }
      toMain := system.toMain ++ [.ready] }
  | _, _ => postAnswer system request (.handler outcome)

/-- The message that is processed is done, and the next one is taken off the queue. -/
def processingEnds (system : WorkerSystem Value) (outcome : Except Raised Value) :
    WorkerSystem Value :=
  match system.worker.processing with
  | some request =>
    let done := processed system request outcome
    processQueue { done with worker := { done.worker with processing := none } }
  | none => system

/-- A callback proxy is called by the client that was created with it. -/
def callProxy (system : WorkerSystem Value) (callbackType : CallbackType) (args : List Value)
    (drawn : String) : WorkerSystem Value :=
  if system.worker.provided.has callbackType then
    let requestId := callbackType.text ++ "-" ++ drawn
    { system with
      worker := { system.worker with
        pendingCallbacks :=
          system.worker.pendingCallbacks.insert requestId system.worker.proxyCalls.length
        proxyCalls := system.worker.proxyCalls ++ [⟨⟨callbackType, args, requestId⟩, none⟩] }
      toMain := system.toMain ++ [.executeCallback callbackType args requestId] }
  else system

def timedOutMessage (requestId : RequestId) : String :=
  "Callback " ++ requestId ++ " timed out"

/-- The timer of a callback that has not been answered. -/
def callbackTimesOut (system : WorkerSystem Value) (requestId : RequestId) :
    WorkerSystem Value :=
  match system.worker.pendingCallbacks[requestId]? with
  | some index =>
    { system with worker :=
      settleProxyCall system.worker requestId index (.error (timedOutMessage requestId)) }
  | none => system

/-! ### Runs -/

def step (system : WorkerSystem Value) : WorkerEvent Value → WorkerSystem Value
  | .callMethodWithWorker call => system.callMethodWithWorker call
  | .postCall drawn => system.postCall drawn
  | .mainReceives => system.mainReceives
  | .callbackEnds index ended => system.callbackEnds index ended
  | .workerReceives => system.workerReceives
  | .processingEnds outcome => system.processingEnds outcome
  | .callProxy callbackType args drawn => system.callProxy callbackType args drawn
  | .callbackTimesOut requestId => system.callbackTimesOut requestId

end WorkerSystem

end MidenClient
