/-
This file gives the rule for runs of a state machine: a list of operations performed one
after the other, each of which meets a condition in the state it starts from. What every
such step keeps holds in every state the run reaches.
-/

import Mathlib

namespace Run

universe u v

variable {State : Type u} {Operation : Type v} (perform : State → Operation → State)
  (condition : State → Operation → Prop)

/-- Every operation meets the condition in the state in which it is performed. -/
def Conforms : State → List Operation → Prop
  | _, [] => True
  | state, operation :: rest =>
    condition state operation ∧ Conforms (perform state operation) rest

variable {perform condition}

theorem conforms_append {state : State} {first second : List Operation} :
    Conforms perform condition state (first ++ second) ↔
      Conforms perform condition state first ∧
        Conforms perform condition (first.foldl perform state) second := by
  induction first generalizing state with
  | nil => exact ⟨fun holds => ⟨trivial, holds⟩, And.right⟩
  | cons operation rest inductionHypothesis =>
    rw [List.cons_append, Conforms, Conforms, inductionHypothesis, and_assoc, List.foldl_cons]

/-- What conforming steps keep holds after a conforming run. -/
theorem foldl_invariant {invariant : State → Prop}
    (keeps : ∀ state operation, invariant state → condition state operation →
      invariant (perform state operation))
    {state : State} {operations : List Operation} (holds : invariant state)
    (conforms : Conforms perform condition state operations) :
    invariant (operations.foldl perform state) := by
  induction operations generalizing state with
  | nil => exact holds
  | cons operation rest inductionHypothesis =>
    exact inductionHypothesis (keeps state operation holds conforms.1) conforms.2

/-- What conforming steps keep holds in every state that a conforming run reaches. -/
theorem prefix_invariant {invariant : State → Prop}
    (keeps : ∀ state operation, invariant state → condition state operation →
      invariant (perform state operation))
    {state : State} {operations reached : List Operation} (holds : invariant state)
    (conforms : Conforms perform condition state operations)
    (prefixed : reached <+: operations) : invariant (reached.foldl perform state) := by
  obtain ⟨later, rfl⟩ := prefixed
  exact foldl_invariant keeps holds (conforms_append.mp conforms).1

/-- A property that a step keeps exactly when it meets the condition holds in every state of a run
exactly when the run conforms. The invariant is what the property needs to say so. -/
theorem forall_prefix_iff_conforms {invariant property : State → Prop}
    (implies : ∀ state, invariant state → property state)
    (exactly : ∀ state operation, invariant state →
      (property (perform state operation) ↔ condition state operation))
    (keeps : ∀ state operation, invariant state → condition state operation →
      invariant (perform state operation))
    {state : State} {operations : List Operation} (holds : invariant state) :
    (∀ reached, reached <+: operations → property (reached.foldl perform state)) ↔
      Conforms perform condition state operations := by
  induction operations generalizing state with
  | nil =>
    refine ⟨fun _ => trivial, fun _ reached prefixed => ?_⟩
    rw [List.prefix_nil.mp prefixed]
    exact implies state holds
  | cons operation rest inductionHypothesis =>
    constructor
    · intro throughout
      have met := (exactly state operation holds).mp (throughout [operation] ⟨rest, rfl⟩)
      refine ⟨met, (inductionHypothesis (keeps state operation holds met)).mp ?_⟩
      rintro reached ⟨later, rfl⟩
      exact throughout (operation :: reached) ⟨later, rfl⟩
    · rintro ⟨met, conforms⟩ reached prefixed
      rcases reached with _ | ⟨head, reached⟩
      · exact implies state holds
      · obtain ⟨rfl, earlier⟩ := List.cons_prefix_cons.mp prefixed
        exact (inductionHypothesis (keeps state head holds met)).mpr conforms reached earlier

/-- A run conforms when every one of its operations meets the condition. -/
theorem conforms_iff_forall_step {state : State} {operations : List Operation} :
    Conforms perform condition state operations ↔
      ∀ reached operation, reached ++ [operation] <+: operations →
        condition (reached.foldl perform state) operation := by
  constructor
  · rintro conforms reached operation ⟨later, rfl⟩
    rw [List.append_assoc] at conforms
    exact (conforms_append.mp conforms).2.1
  · intro each
    induction operations generalizing state with
    | nil => exact trivial
    | cons operation rest inductionHypothesis =>
      refine ⟨each [] operation ⟨rest, rfl⟩, inductionHypothesis fun reached later prefixed => ?_⟩
      exact each (operation :: reached) later (List.cons_prefix_cons.mpr ⟨rfl, prefixed⟩)

/-- Conditions that agree as long as an invariant holds, which they keep, are met by the same
runs. -/
theorem conforms_congr {invariant : State → Prop} {other : State → Operation → Prop}
    (same : ∀ state operation, invariant state →
      (other state operation ↔ condition state operation))
    (keeps : ∀ state operation, invariant state → condition state operation →
      invariant (perform state operation))
    {state : State} {operations : List Operation} (holds : invariant state) :
    Conforms perform other state operations ↔ Conforms perform condition state operations := by
  induction operations generalizing state with
  | nil => exact Iff.rfl
  | cons operation rest inductionHypothesis =>
    rw [Conforms, Conforms, same state operation holds, and_congr_right_iff]
    exact fun met => inductionHypothesis (keeps state operation holds met)

/-- Operations that each leave a view of the state alone do so together. -/
theorem foldl_view {View : Type*} (view : State → View)
    (each : ∀ state operation, view (perform state operation) = view state)
    (operations : List Operation) (state : State) :
    view (operations.foldl perform state) = view state := by
  induction operations generalizing state with
  | nil => rfl
  | cons operation rest inductionHypothesis =>
    rw [List.foldl_cons, inductionHypothesis, each]

end Run
