/-
This file models the lock that coordinates concurrent syncs of the web client
(`web-client/js/syncLock.js`), with the promises, timers and Web Lock requests that its
callers leave behind.

The state of a database is changed by callbacks: a timer that expires, a lock that is granted
or refused, a release. Each of them belongs to one call of `acquireSyncLock` and reads what
that call captured, so a call is a record that lives on after the function has returned. The
environment decides which callback runs next.
-/

import MidenClient.Library.Run

namespace MidenClient

open Std (ExtTreeMap)

/-- A value that is thrown or a promise is rejected with: an error, or any other value by its
text. -/
inductive Thrown where
  | error (message : String)
  | value (text : String)
  deriving DecidableEq, Repr

/-- What is no error is wrapped in one. -/
def Thrown.asError : Thrown → Thrown
  | .error message => .error message
  | .value text => .error text

/-- Calls of `acquireSyncLock` for one database, in their order. -/
abbrev CallId := ℕ

variable {Result : Type}

/-- What the promise of a call is settled with. -/
inductive Settlement (Result : Type) where
  | acquired
  | coalesced (result : Result)
  | rejected (error : Thrown)
  deriving DecidableEq, Repr

/-- The in-process state of a database. A waiter is the call that waits, and the function that
gives the Web Lock back is the call that holds it. -/
structure SyncState (Result : Type) where
  inProgress : Bool
  result : Option Result
  error : Option Thrown
  waiters : List CallId
  releaseLock : Option CallId
  syncGeneration : ℕ
  deriving DecidableEq, Repr

/-- A caller waits for the sync in progress, or attempts a sync of its own. -/
inductive CallRole where
  | waiter
  | attempt
  deriving DecidableEq, Repr

/-- The Web Lock request of a call. -/
inductive LockRequest where
  | none
  | pending
  | held
  deriving DecidableEq, Repr

/-- A call of `acquireSyncLock`. The generation of an attempt is the one it captured; that of a
waiter is the generation that was in progress, which its callbacks never read. `released` is
what a caller that was told to have acquired the lock released it with. -/
structure Call (Result : Type) where
  role : CallRole
  generation : ℕ
  timeoutId : Bool
  timedOut : Bool
  request : LockRequest
  promise : Option (Settlement Result)
  released : Option (Except Thrown Result)

def SyncLock.timedOutError : Thrown :=
  .error "Sync lock acquisition timed out"

namespace Call

/-- A promise that is settled ignores later calls of its functions. -/
def settle (call : Call Result) (settlement : Settlement Result) : Call Result :=
  { call with promise := call.promise.or (some settlement) }

/-- The callbacks `onResult` and `onError` of a waiter, which clear its timer. -/
def notify (call : Call Result) (settlement : Settlement Result) : Call Result :=
  { call with timeoutId := false }.settle settlement

/-- What the timer of a call does to the call itself. -/
def expire (call : Call Result) : Call Result :=
  { call with timeoutId := false, timedOut := true }.settle (.rejected SyncLock.timedOutError)

/-- The lock is granted and kept. -/
def grant (call : Call Result) : Call Result :=
  { call with timeoutId := false, request := .held }.settle .acquired

def refuse (call : Call Result) (error : Thrown) : Call Result :=
  { call with timeoutId := false, request := .none }.settle (.rejected error.asError)

/-- The request is over, and its lock given back. -/
def giveBack (call : Call Result) : Call Result :=
  { call with request := .none }

/-- The caller released the lock, with a result or an error. -/
def release (call : Call Result) (outcome : Except Thrown Result) : Call Result :=
  { call with released := some outcome }

/-- The caller has been told that it acquired the lock, and has not released it. -/
def holds (call : Call Result) : Bool :=
  match call.promise with
  | some .acquired => call.released.isNone
  | _ => false

/-- How the attempt of a call ended, as those who wait for it are told. -/
def attemptEnd (call : Call Result) : Option (Settlement Result) :=
  match call.released, call.promise with
  | some (.ok result), _ => some (.coalesced result)
  | some (.error error), _ => some (.rejected error)
  | none, some (.rejected error) => some (.rejected error)
  | none, _ => none

end Call

/-- The state of a database, and the calls made for it so far. -/
structure SyncLock (Result : Type) where
  state : SyncState Result
  calls : List (Call Result)

/-- What can happen next. A timer, a request and a holder are named by their call. -/
inductive LockEvent (Result : Type) where
  | acquire (timeoutMs : ℕ) (hasWebLocks : Bool)
  | timerExpires (call : CallId)
  | lockGranted (call : CallId)
  | requestFails (call : CallId) (error : Thrown)
  | release (call : CallId) (result : Result)
  | releaseWithError (call : CallId) (error : Thrown)

namespace SyncLock

/-- The state that `getSyncState` creates. -/
def initial : SyncLock Result :=
  ⟨⟨false, none, none, [], none, 0⟩, []⟩

def modifyCall (lock : SyncLock Result) (call : CallId) (change : Call Result → Call Result) :
    SyncLock Result :=
  { lock with calls := lock.calls.modify call change }

/-- Calls back every waiter, and forgets them. -/
def settleWaiters (lock : SyncLock Result) (settlement : Settlement Result) : SyncLock Result where
  state := { lock.state with waiters := [] }
  calls := lock.state.waiters.foldl
    (fun calls waiter => calls.modify waiter fun call => call.notify settlement) lock.calls

/-! ### Acquiring -/

/-- Joins the waiters of the sync in progress. -/
def joinWaiters (lock : SyncLock Result) (timeoutMs : ℕ) : SyncLock Result where
  state := { lock.state with waiters := lock.state.waiters ++ [lock.calls.length] }
  calls := lock.calls ++ [{
    role := .waiter
    generation := lock.state.syncGeneration
    timeoutId := 0 < timeoutMs
    timedOut := false
    request := .none
    promise := none
    released := none }]

/-- Marks a sync as in progress. With Web Locks the call now waits for its request; without
them it has acquired the lock. -/
def beginAttempt (lock : SyncLock Result) (timeoutMs : ℕ) (hasWebLocks : Bool) :
    SyncLock Result where
  state := { lock.state with
    inProgress := true
    result := none
    error := none
    syncGeneration := lock.state.syncGeneration + 1 }
  calls := lock.calls ++ [{
    role := .attempt
    generation := lock.state.syncGeneration + 1
    timeoutId := hasWebLocks && decide (0 < timeoutMs)
    timedOut := false
    request := if hasWebLocks then .pending else .none
    promise := if hasWebLocks then none else some .acquired
    released := none }]

def acquireSyncLock (lock : SyncLock Result) (timeoutMs : ℕ) (hasWebLocks : Bool) :
    SyncLock Result :=
  if lock.state.inProgress then lock.joinWaiters timeoutMs
  else lock.beginAttempt timeoutMs hasWebLocks

/-! ### The callbacks of a call -/

/-- The timer of a waiter takes it off the list. -/
def waiterTimedOut (lock : SyncLock Result) (call : CallId) : SyncLock Result :=
  modifyCall
    { lock with state := { lock.state with waiters := lock.state.waiters.erase call } } call
    Call.expire

/-- The timer of an attempt ends it, unless a later one has begun. -/
def attemptTimedOut (lock : SyncLock Result) (call : CallId) (generation : ℕ) :
    SyncLock Result :=
  let ended :=
    if lock.state.syncGeneration = generation then
      settleWaiters { lock with state := { lock.state with inProgress := false } }
        (.rejected timedOutError)
    else lock
  ended.modifyCall call Call.expire

def timerExpires (lock : SyncLock Result) (call : CallId) : SyncLock Result :=
  match lock.calls[call]? with
  | some record =>
    if record.timeoutId then
      match record.role with
      | .waiter => lock.waiterTimedOut call
      | .attempt => lock.attemptTimedOut call record.generation
    else lock
  | none => lock

/-- The callback of a granted request. The lock is given back at once when the attempt has timed
out or a later one has begun. -/
def lockGranted (lock : SyncLock Result) (call : CallId) : SyncLock Result :=
  match lock.calls[call]? with
  | some record =>
    if record.request = .pending then
      if record.timedOut || lock.state.syncGeneration ≠ record.generation then
        lock.modifyCall call Call.giveBack
      else
        modifyCall { lock with state := { lock.state with releaseLock := some call } } call
          Call.grant
    else lock
  | none => lock

/-- A request is refused, or its lock is lost. -/
def requestFails (lock : SyncLock Result) (call : CallId) (error : Thrown) : SyncLock Result :=
  match lock.calls[call]? with
  | some record =>
    if record.request = .none then lock
    else
      let state :=
        if lock.state.syncGeneration = record.generation then
          { lock.state with inProgress := false }
        else lock.state
      modifyCall { lock with state := state } call fun record => record.refuse error
  | none => lock

/-! ### Releasing -/

/-- Gives the Web Lock back. -/
def giveBack (lock : SyncLock Result) : SyncLock Result :=
  match lock.state.releaseLock with
  | some call =>
    modifyCall { lock with state := { lock.state with releaseLock := none } } call Call.giveBack
  | none => lock

/-- Without a sync in progress there is only a warning. -/
def releaseSyncLock (lock : SyncLock Result) (result : Result) : SyncLock Result :=
  if lock.state.inProgress then
    (settleWaiters { lock with
      state := { lock.state with result := some result, inProgress := false } }
      (.coalesced result)).giveBack
  else lock

def releaseSyncLockWithError (lock : SyncLock Result) (error : Thrown) : SyncLock Result :=
  if lock.state.inProgress then
    (settleWaiters { lock with
      state := { lock.state with error := some error, inProgress := false } }
      (.rejected error)).giveBack
  else lock

/-- A caller has been told that it acquired the lock, and has not released it. -/
def holds (lock : SyncLock Result) (call : CallId) : Bool :=
  match lock.calls[call]? with
  | some record => record.holds
  | none => false

/-! ### Runs -/

/-- Only a holder releases the lock, and only once. -/
def step (lock : SyncLock Result) : LockEvent Result → SyncLock Result
  | .acquire timeoutMs hasWebLocks => lock.acquireSyncLock timeoutMs hasWebLocks
  | .timerExpires call => lock.timerExpires call
  | .lockGranted call => lock.lockGranted call
  | .requestFails call error => lock.requestFails call error
  | .release call result =>
    if lock.holds call then
      releaseSyncLock (lock.modifyCall call fun record => record.release (.ok result)) result
    else lock
  | .releaseWithError call error =>
    if lock.holds call then
      releaseSyncLockWithError (lock.modifyCall call fun record => record.release (.error error))
        error
    else lock

end SyncLock

/-! ### All databases -/

/-- The states of all databases. Web Locks have a name for each of them. -/
abbrev SyncLocks (Result : Type) := ExtTreeMap String (SyncLock Result)

namespace SyncLocks

/-- Gets or creates the state of a database. -/
def getSyncState (locks : SyncLocks Result) (dbId : String) : SyncLock Result :=
  locks[dbId]?.getD .initial

def step (locks : SyncLocks Result) (event : String × LockEvent Result) : SyncLocks Result :=
  locks.insert event.1 ((locks.getSyncState event.1).step event.2)

end SyncLocks

end MidenClient
