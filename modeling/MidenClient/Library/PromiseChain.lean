/-
This file gives the rules for chains of promises: each link reacts to the promise before it, once
that is settled, and the first link to a promise that is fulfilled from the start. A link passes
on how that one was settled, is fulfilled with nothing, or calls a function, whose promise it
then is settled like.

A chain to which blocks of links are added serializes the functions of its links, as long as a
link with a function calls it however the promise before it is settled, or that one is never
rejected.
-/

import MidenClient.Library.Run

namespace PromiseChain

/-- What a link does when the promise before it is fulfilled, or rejected. -/
inductive Handler where
  | passThrough
  | returnUndefined
  | callFunction
  deriving DecidableEq, Repr

structure Link where
  onFulfilled : Handler
  onRejected : Handler
  deriving DecidableEq, Repr

variable {ε α : Type}

/-- What a promise is settled with. -/
abbrev Outcome (ε α : Type) := Except ε (Option α)

inductive LinkState (ε α : Type) where
  | waiting
  | running
  | settled (outcome : Outcome ε α)

/-- The links of a chain, and the places of those whose functions have been called. -/
structure LinkChain (ε α : Type) where
  links : List (Link × LinkState ε α)
  called : List ℕ

def Link.handler (link : Link) : Outcome ε α → Handler
  | .ok _ => link.onFulfilled
  | .error _ => link.onRejected

namespace LinkChain

def empty : LinkChain ε α :=
  ⟨[], []⟩

def outcomeAt (chain : LinkChain ε α) (place : ℕ) : Option (Outcome ε α) :=
  match chain.links[place]? with
  | some (_, .settled outcome) => some outcome
  | _ => none

/-- How the promise before a link is settled. -/
def outcomeBefore (chain : LinkChain ε α) : ℕ → Option (Outcome ε α)
  | 0 => some (.ok none)
  | place + 1 => chain.outcomeAt place

def setState (chain : LinkChain ε α) (place : ℕ) (state : LinkState ε α) : LinkChain ε α :=
  { chain with links := chain.links.modify place fun link => (link.1, state) }

/-- A block of links is added. -/
def extend (chain : LinkChain ε α) (block : List Link) : LinkChain ε α :=
  { chain with links := chain.links ++ block.map fun link => (link, .waiting) }

/-- A link reacts. -/
def react (chain : LinkChain ε α) (place : ℕ) : LinkChain ε α :=
  match chain.links[place]?, chain.outcomeBefore place with
  | some (link, .waiting), some outcome =>
    match link.handler outcome with
    | .passThrough => chain.setState place (.settled outcome)
    | .returnUndefined => chain.setState place (.settled (.ok none))
    | .callFunction => { chain.setState place .running with called := chain.called ++ [place] }
  | _, _ => chain

/-- The promise of the function of a link is settled. -/
def finish (chain : LinkChain ε α) (place : ℕ) (outcome : Outcome ε α) : LinkChain ε α :=
  match chain.links[place]? with
  | some (_, .running) => chain.setState place (.settled outcome)
  | _ => chain

theorem links_setState_eq_some {chain : LinkChain ε α} {place other : ℕ} {link : Link}
    {state given : LinkState ε α} :
    (chain.setState place given).links[other]? = some (link, state) ↔
      other = place ∧ state = given ∧ (∃ old, chain.links[place]? = some (link, old)) ∨
        other ≠ place ∧ chain.links[other]? = some (link, state) := by
  rw [setState, List.getElem?_modify]
  by_cases same : other = place
  · subst same
    rcases found : chain.links[other]? with _ | ⟨first, old⟩
    · simp
    · simp [eq_comm, and_comm]
  · simp [same, Ne.symm same]

@[simp]
theorem length_setState (chain : LinkChain ε α) (place : ℕ) (state : LinkState ε α) :
    (chain.setState place state).links.length = chain.links.length :=
  List.length_modify ..

@[simp]
theorem called_setState (chain : LinkChain ε α) (place : ℕ) (state : LinkState ε α) :
    (chain.setState place state).called = chain.called :=
  rfl

/-- A link stays the same, whatever becomes of it. -/
theorem map_fst_setState (chain : LinkChain ε α) (place other : ℕ) (state : LinkState ε α) :
    (chain.setState place state).links[other]?.map Prod.fst =
      chain.links[other]?.map Prod.fst := by
  rw [setState, List.getElem?_modify]
  rcases chain.links[other]? with _ | ⟨link, old⟩
  · rfl
  · by_cases same : place = other <;> simp [same]

theorem outcomeAt_eq_some {chain : LinkChain ε α} {place : ℕ} {outcome : Outcome ε α} :
    chain.outcomeAt place = some outcome ↔
      ∃ link, chain.links[place]? = some (link, .settled outcome) := by
  rw [outcomeAt]
  rcases chain.links[place]? with _ | ⟨link, _ | _ | settled⟩ <;> simp

/-- The links of a chain, without what has become of them. -/
def shape (chain : LinkChain ε α) : List Link :=
  chain.links.map Prod.fst

@[simp]
theorem shape_setState (chain : LinkChain ε α) (place : ℕ) (state : LinkState ε α) :
    (chain.setState place state).shape = chain.shape := by
  refine List.ext_getElem? fun other => ?_
  rw [shape, shape, List.getElem?_map, List.getElem?_map, map_fst_setState]

theorem shape_react (chain : LinkChain ε α) (place : ℕ) :
    (chain.react place).shape = chain.shape := by
  rw [react]
  split
  · rename_i link outcome found before
    rcases link.handler outcome with _ | _ | _
    · exact shape_setState ..
    · exact shape_setState ..
    · exact shape_setState chain place .running
  · rfl

theorem shape_finish (chain : LinkChain ε α) (place : ℕ) (outcome : Outcome ε α) :
    (chain.finish place outcome).shape = chain.shape := by
  rw [finish]
  split
  · exact shape_setState ..
  · rfl

theorem shape_extend (chain : LinkChain ε α) (block : List Link) :
    (chain.extend block).shape = chain.shape ++ block := by
  rw [shape, extend, List.map_append, List.map_map]
  exact congrArg _ (List.map_id block)

theorem links_extend_eq_some {chain : LinkChain ε α} {block : List Link} {place : ℕ} {link : Link}
    {state : LinkState ε α} :
    (chain.extend block).links[place]? = some (link, state) ↔
      chain.links[place]? = some (link, state) ∨
        chain.links.length ≤ place ∧ block[place - chain.links.length]? = some link ∧
          state = .waiting := by
  rw [extend]
  rcases lt_or_ge place chain.links.length with early | late
  · rw [List.getElem?_append_left early]
    simp [Nat.not_le.mpr early]
  · rw [List.getElem?_append_right late, List.getElem?_map]
    simp [late, Prod.ext_iff, eq_comm]

end LinkChain

/-! ### Blocks -/

/-- A link that is fulfilled, unless the promise before it is fulfilled and it passes that on. -/
def Link.NeverRejects (link : Link) : Prop :=
  link.onFulfilled ≠ .callFunction ∧ link.onRejected = .returnUndefined

/-- A link has no function, or calls it however the promise before it is settled. -/
def Link.Calls (link : Link) (before : Option Link) : Prop :=
  link.onFulfilled = .callFunction ∧
    (link.onRejected = .callFunction ∨ ∃ other, before = some other ∧ other.NeverRejects) ∨
  link.onFulfilled ≠ .callFunction ∧ link.onRejected ≠ .callFunction

/-- The links of a block call their functions, whatever the block comes after. -/
def CallsAll (block : List Link) : Prop :=
  ∀ (place : ℕ) (link : Link), block[place]? = some link →
    link.Calls (if place = 0 then none else block[place - 1]?)

/-! ### The invariant -/

/-- The links up to a place are settled, and those after it wait. -/
structure InTurn (chain : LinkChain ε α) (reached : ℕ) : Prop where
  reached_le : reached ≤ chain.links.length
  before : ∀ place link state, place < reached → chain.links[place]? = some (link, state) →
    ∃ outcome, state = .settled outcome
  here : ∀ link outcome, chain.links[reached]? ≠ some (link, .settled outcome)
  after : ∀ place link state, reached < place → chain.links[place]? = some (link, state) →
    state = .waiting
  ordered : chain.called.Pairwise (· < ·)
  called : ∀ place, place ∈ chain.called ↔ ∃ link state, chain.links[place]? = some (link, state) ∧
    link.onFulfilled = .callFunction ∧ state ≠ .waiting
  running : ∀ (place : ℕ) link, chain.links[place]? = some (link, .running) →
    link.onFulfilled = .callFunction
  quiet : ∀ (place : ℕ) link reason, chain.links[place]? = some (link, .settled (.error reason)) →
    ¬link.NeverRejects
  calls : ∀ (place : ℕ) link state, chain.links[place]? = some (link, state) →
    link.Calls (if place = 0 then none else chain.links[place - 1]?.map Prod.fst)

/-! ### What is seen of a chain -/

/-- The functions of a chain are called one at a time, in the order of their links and after those
of all links before have ended; and as long as none of them runs, the chain goes on until every
link is settled. -/
structure Serialized (chain : LinkChain ε α) : Prop where
  ordered : chain.called.Pairwise (· < ·)
  called : ∀ place, place ∈ chain.called ↔ ∃ link state, chain.links[place]? = some (link, state) ∧
    link.onFulfilled = .callFunction ∧ state ≠ .waiting
  running : ∀ (place : ℕ) link, chain.links[place]? = some (link, .running) → place ∈ chain.called
  alone : ∀ (first second : ℕ) link other, chain.links[first]? = some (link, .running) →
    chain.links[second]? = some (other, .running) → first = second
  inTurn : ∀ (earlier later : ℕ) link state, earlier < later → later ∈ chain.called →
    chain.links[earlier]? = some (link, state) → ∃ outcome, state = .settled outcome
  proceeds : (∀ (place : ℕ) link, chain.links[place]? ≠ some (link, .running)) →
    (∀ place, chain.react place = chain) →
    ∀ (place : ℕ) link state, chain.links[place]? = some (link, state) →
      ∃ outcome, state = .settled outcome

namespace InTurn

variable {chain : LinkChain ε α} {reached : ℕ}

theorem empty : InTurn (LinkChain.empty : LinkChain ε α) 0 where
  reached_le := le_rfl
  before := by
    intro place link state early
    omega
  here := by
    intro link outcome found
    simp [LinkChain.empty] at found
  after := by
    intro place link state late found
    simp [LinkChain.empty] at found
  ordered := List.Pairwise.nil
  called := by
    intro place
    simp [LinkChain.empty]
  running := by
    intro place link found
    simp [LinkChain.empty] at found
  quiet := by
    intro place link reason found
    simp [LinkChain.empty] at found
  calls := by
    intro place link state found
    simp [LinkChain.empty] at found

/-- A link that has not been reached is settled by none. -/
theorem outcomeAt_eq_none (inTurn : InTurn chain reached) {place : ℕ} (late : reached ≤ place) :
    chain.outcomeAt place = none := by
  rw [LinkChain.outcomeAt]
  split
  · rename_i link outcome found
    rcases late.eq_or_lt with same | later
    · rw [← same] at found
      exact absurd found (inTurn.here link outcome)
    · cases inTurn.after place link _ later found
  · rfl

/-- The promise before the link that is reached is settled. -/
theorem exists_outcomeBefore (inTurn : InTurn chain reached) :
    ∃ outcome, chain.outcomeBefore reached = some outcome := by
  rcases reached with _ | place
  · exact ⟨_, rfl⟩
  · have bound : place < chain.links.length := inTurn.reached_le
    obtain ⟨outcome, settled⟩ := inTurn.before place chain.links[place].1 chain.links[place].2
      (Nat.lt_succ_self place) (List.getElem?_eq_getElem bound)
    refine ⟨outcome, ?_⟩
    rw [LinkChain.outcomeBefore, LinkChain.outcomeAt, List.getElem?_eq_getElem bound]
    have whole : chain.links[place] = (chain.links[place].1, .settled outcome) :=
      Prod.ext rfl settled
    rw [whole]

/-- A link with a function calls it when it is reached. -/
theorem handler_eq (inTurn : InTurn chain reached) {link : Link} {state : LinkState ε α}
    (found : chain.links[reached]? = some (link, state)) {outcome : Outcome ε α}
    (before : chain.outcomeBefore reached = some outcome)
    (function : link.onFulfilled = .callFunction) : link.handler outcome = .callFunction := by
  rcases inTurn.calls reached link state found with
    ⟨-, always | ⟨other, earlier, quiet⟩⟩ | ⟨never, -⟩
  · cases outcome with
    | ok value => exact function
    | error reason => exact always
  · cases outcome with
    | ok value => exact function
    | error reason =>
      rcases reached with _ | place
      · cases earlier
      · rw [if_neg (Nat.succ_ne_zero place), Nat.add_sub_cancel] at earlier
        obtain ⟨entry, at_place, rfl⟩ := Option.map_eq_some_iff.mp earlier
        rw [LinkChain.outcomeBefore, LinkChain.outcomeAt, at_place] at before
        split at before
        · rename_i same
          rw [Option.some_inj] at same before
          rw [before] at same
          rw [same] at at_place quiet
          exact absurd quiet (inTurn.quiet place _ reason at_place)
        · cases before
  · exact absurd function never

/-- A link without a function has no handler that calls one. -/
theorem handler_ne (inTurn : InTurn chain reached) {place : ℕ} {link : Link}
    {state : LinkState ε α} (found : chain.links[place]? = some (link, state))
    (outcome : Outcome ε α) (none_called : link.onFulfilled ≠ .callFunction) :
    link.handler outcome ≠ .callFunction := by
  rcases inTurn.calls place link state found with ⟨function, -⟩ | ⟨-, never⟩
  · exact absurd function none_called
  · cases outcome with
    | ok value => exact none_called
    | error reason => exact never

theorem serialized (inTurn : InTurn chain reached) : Serialized chain where
  ordered := inTurn.ordered
  called := inTurn.called
  running := by
    intro place link found
    exact (inTurn.called place).mpr
      ⟨link, .running, found, inTurn.running place link found, by simp⟩
  alone := by
    intro first second link other at_first at_second
    have only : ∀ (place : ℕ) link, chain.links[place]? = some (link, .running) →
        place = reached := by
      intro place link found
      rcases lt_trichotomy place reached with early | same | late
      · obtain ⟨outcome, settled⟩ := inTurn.before place link _ early found
        cases settled
      · exact same
      · cases inTurn.after place link _ late found
    rw [only first link at_first, only second other at_second]
  inTurn := by
    intro earlier later link state before member found
    obtain ⟨other, started, at_later, -, begun⟩ := (inTurn.called later).mp member
    refine inTurn.before earlier link state ?_ found
    by_contra late
    exact begun (inTurn.after later other started (by omega) at_later)
  proceeds := by
    intro idle still place link state found
    by_cases early : place < reached
    · exact inTurn.before place link state early found
    · -- The link that is reached waits, so that it can react.
      exfalso
      have bound : reached < chain.links.length := by
        have := (List.getElem?_eq_some_iff.mp found).1
        omega
      obtain ⟨outcome, before⟩ := inTurn.exists_outcomeBefore
      have at_reached := List.getElem?_eq_getElem bound
      have unchanged := congrArg (fun next => next.links[reached]?) (still reached)
      rcases waits : chain.links[reached] with ⟨first, _ | _ | settled⟩
      · rw [waits] at at_reached
        simp only [LinkChain.react, at_reached, before] at unchanged
        split at unchanged <;>
          simp [LinkChain.setState, at_reached] at unchanged
      · rw [waits] at at_reached
        exact idle reached first at_reached
      · rw [waits] at at_reached
        exact inTurn.here first settled at_reached

/-! ### Steps -/

/-- What calls its function after a rejected promise does so after any link. -/
theorem calls_of_none {link : Link} (first : link.Calls none) (before : Option Link) :
    link.Calls before := by
  rcases first with ⟨function, always | ⟨other, earlier, -⟩⟩ | never
  · exact .inl ⟨function, .inl always⟩
  · cases earlier
  · exact .inr never

theorem extend (inTurn : InTurn chain reached) {block : List Link} (callsAll : CallsAll block) :
    InTurn (chain.extend block) reached where
  reached_le := by
    rw [LinkChain.extend, List.length_append]
    exact inTurn.reached_le.trans (Nat.le_add_right ..)
  before := by
    intro place link state early found
    rcases LinkChain.links_extend_eq_some.mp found with old | ⟨late, -, -⟩
    · exact inTurn.before place link state early old
    · have := inTurn.reached_le
      omega
  here := by
    intro link outcome found
    rcases LinkChain.links_extend_eq_some.mp found with old | ⟨-, -, waits⟩
    · exact inTurn.here link outcome old
    · cases waits
  after := by
    intro place link state late found
    rcases LinkChain.links_extend_eq_some.mp found with old | ⟨-, -, waits⟩
    · exact inTurn.after place link state late old
    · exact waits
  ordered := inTurn.ordered
  called := by
    intro place
    rw [LinkChain.extend, inTurn.called place]
    constructor
    · rintro ⟨link, state, found, function, begun⟩
      exact ⟨link, state, LinkChain.links_extend_eq_some.mpr (.inl found), function, begun⟩
    · rintro ⟨link, state, found, function, begun⟩
      rcases LinkChain.links_extend_eq_some.mp found with old | ⟨-, -, waits⟩
      · exact ⟨link, state, old, function, begun⟩
      · exact absurd waits begun
  running := by
    intro place link found
    rcases LinkChain.links_extend_eq_some.mp found with old | ⟨-, -, waits⟩
    · exact inTurn.running place link old
    · cases waits
  quiet := by
    intro place link reason found
    rcases LinkChain.links_extend_eq_some.mp found with old | ⟨-, -, waits⟩
    · exact inTurn.quiet place link reason old
    · cases waits
  calls := by
    intro place link state found
    rcases LinkChain.links_extend_eq_some.mp found with old | ⟨late, added, -⟩
    · have bound := (List.getElem?_eq_some_iff.mp old).1
      rw [LinkChain.extend, List.getElem?_append_left (by omega)]
      exact inTurn.calls place link state old
    · have alone := callsAll (place - chain.links.length) link added
      rcases late.eq_or_lt with same | later
      · rw [if_pos (by omega)] at alone
        exact calls_of_none alone _
      · rw [if_neg (by omega)] at alone
        rw [if_neg (by omega), LinkChain.extend, List.getElem?_append_right (by omega),
          List.getElem?_map, Option.map_map]
        have same_place : place - 1 - chain.links.length = place - chain.links.length - 1 := by
          omega
        have same_link : Prod.fst ∘ (fun link : Link => (link, (.waiting : LinkState ε α))) = id :=
          rfl
        rw [same_place, same_link, Option.map_id]
        exact alone

/-- The link that is reached is settled. -/
theorem settle (inTurn : InTurn chain reached) {link : Link} {state : LinkState ε α}
    (found : chain.links[reached]? = some (link, state)) {outcome : Outcome ε α}
    (begun : link.onFulfilled = .callFunction → state ≠ .waiting)
    (loud : ∀ reason, outcome = .error reason → ¬link.NeverRejects) :
    InTurn (chain.setState reached (.settled outcome)) (reached + 1) where
  reached_le := by
    rw [LinkChain.length_setState]
    exact (List.getElem?_eq_some_iff.mp found).1
  before := by
    intro place other later early at_place
    rcases LinkChain.links_setState_eq_some.mp at_place with ⟨-, settled, -⟩ | ⟨apart, old⟩
    · exact ⟨outcome, settled⟩
    · exact inTurn.before place other later (by omega) old
  here := by
    intro other settled at_next
    rcases LinkChain.links_setState_eq_some.mp at_next with ⟨same, -, -⟩ | ⟨-, old⟩
    · omega
    · cases inTurn.after (reached + 1) other _ (Nat.lt_succ_self reached) old
  after := by
    intro place other later late at_place
    rcases LinkChain.links_setState_eq_some.mp at_place with ⟨same, -, -⟩ | ⟨-, old⟩
    · omega
    · exact inTurn.after place other later (by omega) old
  ordered := inTurn.ordered
  called := by
    intro place
    rw [LinkChain.called_setState, inTurn.called place]
    constructor
    · rintro ⟨other, old, at_place, function, started⟩
      by_cases same : place = reached
      · exact ⟨other, .settled outcome,
          LinkChain.links_setState_eq_some.mpr (.inl ⟨same, rfl, old, same ▸ at_place⟩), function,
          (by simp)⟩
      · exact ⟨other, old, LinkChain.links_setState_eq_some.mpr (.inr ⟨same, at_place⟩), function,
          started⟩
    · rintro ⟨other, later, at_place, function, started⟩
      rcases LinkChain.links_setState_eq_some.mp at_place with ⟨same, -, old, at_reached⟩ | ⟨-, old⟩
      · rw [found, Option.some_inj, Prod.mk.injEq] at at_reached
        obtain ⟨rfl, rfl⟩ := at_reached
        exact ⟨link, state, same ▸ found, function, begun function⟩
      · exact ⟨other, later, old, function, started⟩
  running := by
    intro place other at_place
    rcases LinkChain.links_setState_eq_some.mp at_place with ⟨-, runs, -⟩ | ⟨-, old⟩
    · cases runs
    · exact inTurn.running place other old
  quiet := by
    intro place other reason at_place
    rcases LinkChain.links_setState_eq_some.mp at_place with
      ⟨-, settled, old, at_reached⟩ | ⟨-, old⟩
    · rw [found, Option.some_inj, Prod.mk.injEq] at at_reached
      rw [← at_reached.1]
      cases settled
      exact loud reason rfl
    · exact inTurn.quiet place other reason old
  calls := by
    intro place other later at_place
    rw [LinkChain.map_fst_setState]
    rcases LinkChain.links_setState_eq_some.mp at_place with ⟨same, -, old, at_reached⟩ | ⟨-, old⟩
    · exact inTurn.calls place other old (same ▸ at_reached)
    · exact inTurn.calls place other later old

/-- The link that is reached calls its function. -/
theorem start (inTurn : InTurn chain reached) {link : Link}
    (found : chain.links[reached]? = some (link, .waiting))
    (function : link.onFulfilled = .callFunction) :
    InTurn { chain.setState reached .running with called := chain.called ++ [reached] }
      reached where
  reached_le := by
    rw [LinkChain.length_setState]
    exact inTurn.reached_le
  before := by
    intro place other later early at_place
    rcases LinkChain.links_setState_eq_some.mp at_place with ⟨same, -, -⟩ | ⟨-, old⟩
    · omega
    · exact inTurn.before place other later early old
  here := by
    intro other settled at_reached
    rcases LinkChain.links_setState_eq_some.mp at_reached with ⟨-, runs, -⟩ | ⟨apart, -⟩
    · cases runs
    · exact apart rfl
  after := by
    intro place other later late at_place
    rcases LinkChain.links_setState_eq_some.mp at_place with ⟨same, -, -⟩ | ⟨-, old⟩
    · omega
    · exact inTurn.after place other later late old
  ordered := by
    refine List.pairwise_append.mpr ⟨inTurn.ordered, List.pairwise_singleton _ _, ?_⟩
    intro earlier member last only
    rw [List.mem_singleton.mp only]
    obtain ⟨other, later, at_earlier, -, begun⟩ := (inTurn.called earlier).mp member
    rcases lt_trichotomy earlier reached with before | same | late
    · exact before
    · rw [same, found, Option.some_inj, Prod.mk.injEq] at at_earlier
      exact absurd at_earlier.2.symm begun
    · exact absurd (inTurn.after earlier other later late at_earlier) begun
  called := by
    intro place
    rw [List.mem_append, List.mem_singleton, inTurn.called place]
    constructor
    · rintro (⟨other, old, at_place, calls, begun⟩ | rfl)
      · by_cases same : place = reached
        · rw [same, found, Option.some_inj, Prod.mk.injEq] at at_place
          exact absurd at_place.2.symm begun
        · exact ⟨other, old, LinkChain.links_setState_eq_some.mpr (.inr ⟨same, at_place⟩), calls,
            begun⟩
      · exact ⟨link, .running, LinkChain.links_setState_eq_some.mpr (.inl ⟨rfl, rfl, _, found⟩),
          function, (by simp)⟩
    · rintro ⟨other, later, at_place, calls, begun⟩
      rcases LinkChain.links_setState_eq_some.mp at_place with ⟨same, -, -⟩ | ⟨-, old⟩
      · exact .inr same
      · exact .inl ⟨other, later, old, calls, begun⟩
  running := by
    intro place other at_place
    rcases LinkChain.links_setState_eq_some.mp at_place with ⟨-, -, old, at_reached⟩ | ⟨-, old⟩
    · rw [found, Option.some_inj, Prod.mk.injEq] at at_reached
      rw [← at_reached.1]
      exact function
    · exact inTurn.running place other old
  quiet := by
    intro place other reason at_place
    rcases LinkChain.links_setState_eq_some.mp at_place with ⟨-, runs, -⟩ | ⟨-, old⟩
    · cases runs
    · exact inTurn.quiet place other reason old
  calls := by
    intro place other later at_place
    change other.Calls (if place = 0 then none else
      (chain.setState reached .running).links[place - 1]?.map Prod.fst)
    rw [LinkChain.map_fst_setState]
    rcases LinkChain.links_setState_eq_some.mp at_place with ⟨same, -, old, at_reached⟩ | ⟨-, old⟩
    · exact inTurn.calls place other old (same ▸ at_reached)
    · exact inTurn.calls place other later old

/-- Only the link that is reached reacts. -/
theorem react (inTurn : InTurn chain reached) (place : ℕ) :
    ∃ next, InTurn (chain.react place) next := by
  rw [LinkChain.react]
  split
  · rename_i link outcome found before
    have same : place = reached := by
      rcases lt_trichotomy place reached with early | same | late
      · obtain ⟨settled, absurdity⟩ := inTurn.before place link _ early found
        cases absurdity
      · exact same
      · rcases place with _ | previous
        · omega
        · rw [LinkChain.outcomeBefore, inTurn.outcomeAt_eq_none (by omega)] at before
          cases before
    subst same
    rcases handled : link.handler outcome with _ | _ | _
    · refine ⟨place + 1, inTurn.settle found ?_ ?_⟩
      · intro function
        rw [inTurn.handler_eq found before function] at handled
        cases handled
      · rintro reason rfl ⟨-, swallows⟩
        rw [Link.handler, swallows] at handled
        cases handled
    · refine ⟨place + 1, inTurn.settle found ?_ ?_⟩
      · intro function
        rw [inTurn.handler_eq found before function] at handled
        cases handled
      · intro reason absurdity
        cases absurdity
    · refine ⟨place, inTurn.start found ?_⟩
      by_contra none_called
      exact inTurn.handler_ne found outcome none_called handled
  · exact ⟨reached, inTurn⟩

/-- Only the function of the link that is reached ends. -/
theorem finish (inTurn : InTurn chain reached) (place : ℕ) (outcome : Outcome ε α) :
    ∃ next, InTurn (chain.finish place outcome) next := by
  rw [LinkChain.finish]
  split
  · rename_i link found
    have same : place = reached := by
      rcases lt_trichotomy place reached with early | same | late
      · obtain ⟨settled, absurdity⟩ := inTurn.before place link _ early found
        cases absurdity
      · exact same
      · cases inTurn.after place link _ late found
    subst same
    refine ⟨place + 1, inTurn.settle found ?_ ?_⟩
    · intro function waits
      cases waits
    · rintro reason - ⟨never, -⟩
      exact never (inTurn.running place link found)
  · exact ⟨reached, inTurn⟩

end InTurn

/-! ### Runs -/

/-- A block of links is added, a link reacts, or the promise of its function is settled. -/
inductive Event (ε α : Type) where
  | extend (block : List Link)
  | react (place : ℕ)
  | finish (place : ℕ) (outcome : Outcome ε α)

def LinkChain.perform (chain : LinkChain ε α) : Event ε α → LinkChain ε α
  | .extend block => chain.extend block
  | .react place => chain.react place
  | .finish place outcome => chain.finish place outcome

/-- The blocks that are added call their functions. -/
def Event.Allowed : Event ε α → Prop
  | .extend block => CallsAll block
  | _ => True

/-- In every state of a run, the functions have been called in turn. -/
theorem serialized_of_allowed {events : List (Event ε α)}
    (allowed : ∀ event ∈ events, event.Allowed) :
    Serialized (events.foldl LinkChain.perform LinkChain.empty) := by
  suffices ∀ chain : LinkChain ε α, (∃ reached, InTurn chain reached) →
      ∃ reached, InTurn (events.foldl LinkChain.perform chain) reached by
    obtain ⟨reached, inTurn⟩ := this LinkChain.empty ⟨0, InTurn.empty⟩
    exact inTurn.serialized
  induction events with
  | nil =>
    intro chain holds
    exact holds
  | cons event rest inductionHypothesis =>
    rintro chain ⟨reached, inTurn⟩
    refine inductionHypothesis (fun later member => allowed later (.tail _ member)) _ ?_
    have first := allowed event (.head _)
    rcases event with block | place | ⟨place, outcome⟩
    · exact ⟨reached, inTurn.extend first⟩
    · exact inTurn.react place
    · exact inTurn.finish place outcome

end PromiseChain
