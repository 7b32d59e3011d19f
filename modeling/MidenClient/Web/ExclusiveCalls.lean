/-
This file models the two promise chains of the web client that keep the calls that need exclusive
access to the client apart: `_serializeWasmCall` of `js/index.js` and `runExclusive` of
`js/asyncLock.js`.

In every state of a run, the functions that have been called are those of the first calls, in
order, and all but the last of them have ended; a function that throws does not hold up the later
ones.
-/

import MidenClient.Library.PromiseChain

namespace MidenClient

open PromiseChain

namespace ExclusiveCalls

/-- `this._wasmCallChain.catch(() => {}).then(fn)`, and then `result.catch(() => {})`. -/
def serializeWasmCall : List Link :=
  [⟨.passThrough, .returnUndefined⟩, ⟨.callFunction, .passThrough⟩,
    ⟨.passThrough, .returnUndefined⟩]

/-- `this._pending.then(() => fn(), () => fn())`, and then
`run.then(() => undefined, () => undefined)`. -/
def runExclusive : List Link :=
  [⟨.callFunction, .callFunction⟩, ⟨.returnUndefined, .returnUndefined⟩]

inductive Queue where
  | wasmCallChain
  | asyncLock
  deriving DecidableEq, Repr

/-- The links that a call adds. -/
def Queue.links : Queue → List Link
  | .wasmCallChain => serializeWasmCall
  | .asyncLock => runExclusive

def Queue.size (queue : Queue) : ℕ :=
  queue.links.length

/-- The place of the link whose promise a call returns. -/
def Queue.returned : Queue → ℕ
  | .wasmCallChain => 1
  | .asyncLock => 0

def Queue.functionPlace (queue : Queue) (number : ℕ) : ℕ :=
  queue.size * number + queue.returned

variable {ε α : Type}

/-- A function is handed over, a promise reacts, or the function of a call ends. -/
inductive Event (ε α : Type) where
  | call
  | react (place : ℕ)
  | finish (number : ℕ) (outcome : Outcome ε α)

def perform (queue : Queue) (chain : LinkChain ε α) : Event ε α → LinkChain ε α
  | .call => chain.extend queue.links
  | .react place => chain.react place
  | .finish number outcome => chain.finish (queue.functionPlace number) outcome

def callCount : List (Event ε α) → ℕ
  | [] => 0
  | .call :: rest => callCount rest + 1
  | .react _ :: rest => callCount rest
  | .finish _ _ :: rest => callCount rest

/-- The functions called are those of the first calls, in order; all but the last of them have
ended; and while none of them runs, the promises go on to react until all calls are settled. -/
structure OneAtATime (queue : Queue) (chain : LinkChain ε α) (calls : ℕ) : Prop where
  inOrder : ∃ begun ≤ calls, chain.called = (List.range begun).map queue.functionPlace ∧
    ∀ number, number + 1 < begun →
      ∃ outcome, chain.outcomeAt (queue.functionPlace number) = some outcome
  proceeds : (∀ number < calls, queue.functionPlace number ∈ chain.called →
      chain.outcomeAt (queue.functionPlace number) ≠ none) →
    (∀ place, chain.react place = chain) →
    ∀ number < calls, ∃ outcome, chain.outcomeAt (queue.functionPlace number) = some outcome

/-! ### The links of a run -/

theorem callsAll_links (queue : Queue) : CallsAll queue.links := by
  intro place link found
  cases queue with
  | wasmCallChain =>
    rcases place with _ | _ | _ | place
    · cases found
      exact .inr (by decide)
    · cases found
      exact .inl ⟨rfl, .inr ⟨_, rfl, by decide, rfl⟩⟩
    · cases found
      exact .inr (by decide)
    · cases found
  | asyncLock =>
    rcases place with _ | _ | place
    · cases found
      exact .inl ⟨rfl, .inl rfl⟩
    · cases found
      exact .inr (by decide)
    · cases found

theorem shape_foldl (queue : Queue) (events : List (Event ε α)) (chain : LinkChain ε α) :
    (events.foldl (perform queue) chain).shape =
      chain.shape ++ (List.replicate (callCount events) queue.links).flatten := by
  induction events generalizing chain with
  | nil => exact (List.append_nil _).symm
  | cons event rest inductionHypothesis =>
    rw [List.foldl_cons, inductionHypothesis]
    rcases event with _ | place | ⟨number, outcome⟩
    · rw [perform, LinkChain.shape_extend, callCount, List.replicate_succ, List.flatten_cons,
        List.append_assoc]
    · rw [perform, LinkChain.shape_react, callCount]
    · rw [perform, LinkChain.shape_finish, callCount]

theorem getElem?_flatten_replicate (block : List Link) (count place : ℕ) :
    (List.replicate count block).flatten[place]? =
      if place < block.length * count then block[place % block.length]? else none := by
  induction count generalizing place with
  | zero => simp
  | succ count inductionHypothesis =>
    rw [List.replicate_succ, List.flatten_cons]
    rcases lt_or_ge place block.length with early | late
    · rw [List.getElem?_append_left early, Nat.mod_eq_of_lt early,
        if_pos (early.trans_le (Nat.le_mul_of_pos_right _ (Nat.succ_pos count)))]
    · have less : place - block.length < block.length * count ↔
          place < block.length * (count + 1) := by
        rw [Nat.mul_succ]
        omega
      rw [List.getElem?_append_right late, inductionHypothesis, ← Nat.mod_eq_sub_mod late]
      simp only [less]

theorem functionPlace_lt {queue : Queue} {number calls : ℕ} (less : number < calls) :
    queue.functionPlace number < queue.size * calls := by
  have bound : queue.returned < queue.size := by
    cases queue <;> decide
  have next := Nat.mul_le_mul_left queue.size less
  rw [Nat.mul_succ] at next
  rw [Queue.functionPlace]
  omega

theorem functionPlace_mod (queue : Queue) (number : ℕ) :
    queue.functionPlace number % queue.size = queue.returned := by
  rw [Queue.functionPlace, Nat.mul_add_mod]
  cases queue <;> rfl

theorem functionPlace_strictMono (queue : Queue) : StrictMono queue.functionPlace := by
  intro first second less
  have bound : 0 < queue.size := by
    cases queue <;> decide
  exact Nat.add_lt_add_right (Nat.mul_lt_mul_of_pos_left less bound) _

/-- The links with a function stand where the calls have put them. -/
theorem onFulfilled_eq_callFunction_iff (queue : Queue) (events : List (Event ε α)) (place : ℕ) :
    (∃ link, (events.foldl (perform queue) LinkChain.empty).shape[place]? = some link ∧
      link.onFulfilled = .callFunction) ↔
        ∃ number < callCount events, queue.functionPlace number = place := by
  have offset : ∀ rest < queue.size, (∃ link, queue.links[rest]? = some link ∧
      link.onFulfilled = .callFunction) ↔ rest = queue.returned := by
    cases queue <;> decide
  have bound : queue.returned < queue.size := by
    cases queue <;> decide
  rw [shape_foldl, LinkChain.shape, LinkChain.empty, List.map_nil, List.nil_append,
    getElem?_flatten_replicate]
  constructor
  · rintro ⟨link, found, function⟩
    split at found
    · rename_i less
      have rest := (offset (place % queue.size) (Nat.mod_lt _ (by omega))).mp
        ⟨link, found, function⟩
      refine ⟨place / queue.size, Nat.div_lt_of_lt_mul less, ?_⟩
      rw [Queue.functionPlace, ← rest, Nat.div_add_mod]
    · cases found
  · rintro ⟨number, less, rfl⟩
    obtain ⟨link, found, function⟩ := (offset queue.returned bound).mpr rfl
    refine ⟨link, ?_, function⟩
    have mod : queue.functionPlace number % queue.links.length = queue.returned :=
      functionPlace_mod queue number
    have inside : queue.functionPlace number < queue.links.length * callCount events :=
      functionPlace_lt less
    rw [mod, if_pos inside, found]

/-! ### The functions called -/

/-- Numbers in increasing order, with all that are smaller, are the first ones. -/
theorem eq_range_of_pairwise {numbers : List ℕ} (ordered : numbers.Pairwise (· < ·))
    (closed : ∀ later ∈ numbers, ∀ earlier < later, earlier ∈ numbers) :
    numbers = List.range numbers.length := by
  induction numbers using List.reverseRecOn with
  | nil => rfl
  | append_singleton rest last inductionHypothesis =>
    obtain ⟨ordered_rest, -, below⟩ := List.pairwise_append.mp ordered
    have less : ∀ number ∈ rest, number < last := fun number member =>
      below number member last (List.mem_singleton_self last)
    have same := inductionHypothesis ordered_rest fun later member earlier before => by
      rcases List.mem_append.mp (closed later (List.mem_append_left _ member) earlier before) with
        inside | only
      · exact inside
      · rw [List.mem_singleton.mp only] at before
        exact absurd (less later member) (Nat.not_lt.mpr before.le)
    have mem_rest : ∀ number, number ∈ rest ↔ number < rest.length := fun number => by
      rw [← List.mem_range, ← same]
    have last_eq : last = rest.length := by
      rcases lt_trichotomy last rest.length with early | equal | late
      · exact absurd (less last ((mem_rest last).mpr early)) (Nat.lt_irrefl last)
      · exact equal
      · have inside := closed last (List.mem_append_right _ (List.mem_singleton_self last))
          rest.length late
        rcases List.mem_append.mp inside with inside | only
        · exact absurd ((mem_rest _).mp inside) (Nat.lt_irrefl _)
        · exact (List.mem_singleton.mp only).symm
    rw [List.length_append, List.length_singleton, List.range_succ, ← same, last_eq]

/-- What an event does to the chain. -/
def Event.toChain (queue : Queue) : Event ε α → PromiseChain.Event ε α
  | .call => .extend queue.links
  | .react place => .react place
  | .finish number outcome => .finish (queue.functionPlace number) outcome

theorem perform_toChain (queue : Queue) (chain : LinkChain ε α) (event : Event ε α) :
    chain.perform (event.toChain queue) = perform queue chain event := by
  cases event <;> rfl

theorem serialized_foldl (queue : Queue) (events : List (Event ε α)) :
    Serialized (events.foldl (perform queue) LinkChain.empty) := by
  have allowed : ∀ event ∈ events.map (Event.toChain queue), event.Allowed := by
    intro event member
    obtain ⟨made, -, rfl⟩ := List.mem_map.mp member
    cases made with
    | call => exact callsAll_links queue
    | react place => trivial
    | finish number outcome => trivial
  have serialized := serialized_of_allowed allowed
  rw [List.foldl_map] at serialized
  simpa only [perform_toChain] using serialized

/-- The place of a call holds a link with a function. -/
theorem exists_link (queue : Queue) {events : List (Event ε α)} {number : ℕ}
    (less : number < callCount events) :
    ∃ link state, (events.foldl (perform queue)
        LinkChain.empty).links[queue.functionPlace number]? = some (link, state) ∧
      link.onFulfilled = .callFunction := by
  obtain ⟨link, found, function⟩ :=
    (onFulfilled_eq_callFunction_iff queue events _).mpr ⟨number, less, rfl⟩
  rw [LinkChain.shape, List.getElem?_map] at found
  obtain ⟨⟨same, state⟩, at_place, rfl⟩ := Option.map_eq_some_iff.mp found
  exact ⟨same, state, at_place, function⟩

/-- What has been called is what a call has handed over. -/
theorem exists_number {queue : Queue} {events : List (Event ε α)} {place : ℕ}
    (member : place ∈ (events.foldl (perform queue) LinkChain.empty).called) :
    ∃ number < callCount events, queue.functionPlace number = place := by
  obtain ⟨link, state, found, function, -⟩ :=
    ((serialized_foldl queue events).called place).mp member
  refine (onFulfilled_eq_callFunction_iff queue events place).mp ⟨link, ?_, function⟩
  rw [LinkChain.shape, List.getElem?_map, found, Option.map_some]

/-- Before a function is called, those of the earlier calls have been called and have ended. -/
theorem ended_of_called {queue : Queue} {events : List (Event ε α)} {earlier later : ℕ}
    (before : earlier < later)
    (member : queue.functionPlace later ∈ (events.foldl (perform queue) LinkChain.empty).called) :
    queue.functionPlace earlier ∈ (events.foldl (perform queue) LinkChain.empty).called ∧
      ∃ outcome, (events.foldl (perform queue) LinkChain.empty).outcomeAt
        (queue.functionPlace earlier) = some outcome := by
  have serialized := serialized_foldl queue events
  obtain ⟨number, less, same⟩ := exists_number member
  rw [(functionPlace_strictMono queue).injective same] at less
  obtain ⟨link, state, found, function⟩ := exists_link queue (before.trans less)
  obtain ⟨outcome, rfl⟩ := serialized.inTurn _ _ link state
    (functionPlace_strictMono queue before) member found
  exact ⟨(serialized.called _).mpr ⟨link, _, found, function, by simp⟩, outcome,
    LinkChain.outcomeAt_eq_some.mpr ⟨link, found⟩⟩

/-- The functions called are those of the first calls. -/
theorem exists_called_eq (queue : Queue) (events : List (Event ε α)) :
    ∃ begun ≤ callCount events, (events.foldl (perform queue) LinkChain.empty).called =
      (List.range begun).map queue.functionPlace := by
  obtain ⟨numbers, called⟩ : (events.foldl (perform queue) LinkChain.empty).called ∈
      Set.range (List.map queue.functionPlace) := by
    rw [Set.range_list_map]
    intro place member
    obtain ⟨number, -, same⟩ := exists_number member
    exact ⟨number, same⟩
  have mem_numbers : ∀ number, number ∈ numbers ↔
      queue.functionPlace number ∈ (events.foldl (perform queue) LinkChain.empty).called := by
    intro number
    rw [← called, List.mem_map_of_injective (functionPlace_strictMono queue).injective]
  have ordered : numbers.Pairwise (· < ·) := by
    have places := (serialized_foldl queue events).ordered
    rw [← called, List.pairwise_map] at places
    exact places.imp (functionPlace_strictMono queue).lt_iff_lt.mp
  have range := eq_range_of_pairwise ordered fun later member earlier before =>
    (mem_numbers earlier).mpr (ended_of_called before ((mem_numbers later).mp member)).1
  refine ⟨numbers.length, ?_, ?_⟩
  · by_contra more
    have inside : callCount events ∈ numbers := by
      rw [range, List.mem_range]
      omega
    obtain ⟨number, less, same⟩ := exists_number ((mem_numbers _).mp inside)
    rw [(functionPlace_strictMono queue).injective same] at less
    exact Nat.lt_irrefl _ less
  · rw [← range, called]

/-- In every state of a run, functions are called one at a time and in order, and the chain goes
on whether they succeed or throw. -/
theorem exclusiveCalls_oneAtATime (queue : Queue) (events : List (Event ε α)) :
    OneAtATime queue (events.foldl (perform queue) LinkChain.empty) (callCount events) where
  inOrder := by
    obtain ⟨begun, most, called⟩ := exists_called_eq queue events
    refine ⟨begun, most, called, fun number before => ?_⟩
    refine (ended_of_called (Nat.lt_succ_self number) ?_).2
    rw [called]
    exact List.mem_map_of_mem (List.mem_range.mpr before)
  proceeds := by
    intro idle still number less
    obtain ⟨link, state, found, -⟩ := exists_link queue less
    have quiet : ∀ (place : ℕ) other, (events.foldl (perform queue) LinkChain.empty).links[place]? ≠
        some (other, .running) := by
      intro place other runs
      have member := (serialized_foldl queue events).running place other runs
      obtain ⟨called, before, rfl⟩ := exists_number member
      refine idle called before member ?_
      rw [LinkChain.outcomeAt, runs]
    obtain ⟨outcome, rfl⟩ := (serialized_foldl queue events).proceeds quiet still _ link state found
    exact ⟨outcome, LinkChain.outcomeAt_eq_some.mpr ⟨link, found⟩⟩

end ExclusiveCalls

end MidenClient
