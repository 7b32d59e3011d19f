/-
This file gives the rules for computations that can fail in two ways: with an error, which
their caller gets to see, or with a panic, which ends the program. A computation returns
when it does not panic.

A sequence returns when its first part does, and the rest does on its result. A list is
worked through until the first failure, so an item counts only while all items before it
succeed.
-/

import MidenClient.Library.Fallible

namespace Panicking

open Fallible

universe u v

/-- How a computation fails. -/
inductive Failure (ε : Type u) where
  | error (error : ε)
  | panicked (message : String)
  deriving DecidableEq, Repr

variable {ε α β : Type u} {ι : Type v}

/-- A computation without panics. -/
def fallible (computation : Except ε α) : Except (Failure ε) α :=
  computation.mapError .error

/-- A value that is not there is an error, for which the program ends. -/
def expect (message : String) : Option α → Except (Failure ε) α
  | some value => .ok value
  | none => .error (.panicked message)

/-- Passes errors on in another form. -/
def mapFailure {φ : Type u} (convert : ε → φ) :
    Except (Failure ε) α → Except (Failure φ) α
  | .ok value => .ok value
  | .error (.error error) => .error (.error (convert error))
  | .error (.panicked message) => .error (.panicked message)

/-- The computation ends with a value or an error. -/
def Returns (computation : Except (Failure ε) α) : Prop :=
  ∀ message, computation ≠ .error (.panicked message)

def Succeeds {φ : Type u} (computation : Except φ α) : Prop :=
  ∃ value, computation = .ok value

theorem mapError_eq_ok {φ : Type u} {convert : ε → φ} {result : Except ε α} {value : α} :
    result.mapError convert = .ok value ↔ result = .ok value := by
  refine ⟨eq_ok_of_mapError, ?_⟩
  rintro rfl
  rfl

theorem returns_ok (value : α) : Returns (.ok value : Except (Failure ε) α) :=
  fun _ same => (nomatch same)

theorem returns_error (reason : ε) : Returns (.error (.error reason) : Except (Failure ε) α) :=
  fun _ same => (nomatch same)

theorem returns_fallible (computation : Except ε α) : Returns (fallible computation) := by
  cases computation with
  | ok value => exact returns_ok value
  | error reason => exact returns_error reason

theorem fallible_eq_ok {computation : Except ε α} {value : α} :
    fallible computation = .ok value ↔ computation = .ok value := by
  cases computation with
  | ok other =>
    exact ⟨fun same => congrArg _ (Except.ok.inj same),
      fun same => congrArg _ (Except.ok.inj same)⟩
  | error reason => exact ⟨fun same => (nomatch same), fun same => (nomatch same)⟩

theorem returns_expect_iff {message : String} {value : Option α} :
    Returns (expect message value : Except (Failure ε) α) ↔ ∃ present, value = some present := by
  cases value with
  | none =>
    refine ⟨fun returns => absurd rfl (returns message), ?_⟩
    rintro ⟨_, absent⟩
    cases absent
  | some present => exact ⟨fun _ => ⟨present, rfl⟩, fun _ => returns_ok present⟩

theorem expect_eq_ok {message : String} {value : Option α} {present : α} :
    (expect message value : Except (Failure ε) α) = .ok present ↔ value = some present := by
  cases value with
  | none => exact ⟨fun same => (nomatch same), fun same => (nomatch same)⟩
  | some other =>
    exact ⟨fun same => congrArg some (Except.ok.inj same),
      fun same => congrArg _ (Option.some.inj same)⟩

theorem returns_mapFailure_iff {φ : Type u} {convert : ε → φ}
    {computation : Except (Failure ε) α} :
    Returns (mapFailure convert computation) ↔ Returns computation := by
  rcases computation with (error | message) | value
  · exact ⟨fun _ => returns_error error, fun _ => returns_error (convert error)⟩
  · exact ⟨fun returns => absurd rfl (returns message), fun returns => absurd rfl (returns message)⟩
  · exact ⟨fun _ => returns_ok value, fun _ => returns_ok value⟩

theorem mapFailure_eq_ok {φ : Type u} {convert : ε → φ} {computation : Except (Failure ε) α}
    {value : α} : mapFailure convert computation = .ok value ↔ computation = .ok value := by
  rcases computation with (error | message) | other
  · exact ⟨fun same => (nomatch same), fun same => (nomatch same)⟩
  · exact ⟨fun same => (nomatch same), fun same => (nomatch same)⟩
  · exact ⟨fun same => congrArg _ (Except.ok.inj same), fun same => congrArg _ (Except.ok.inj same)⟩

/-- A sequence returns when its first part does, and the rest on its result. -/
theorem returns_bind {first : Except (Failure ε) α} {rest : α → Except (Failure ε) β} :
    Returns (first >>= rest) ↔ Returns first ∧ ∀ value, first = .ok value →
      Returns (rest value) := by
  cases first with
  | error reason =>
    refine ⟨fun returns => ⟨fun message same => ?_, fun _ same => (nomatch same)⟩,
      fun returns message same => ?_⟩
    · cases same
      exact returns message rfl
    · cases same
      exact returns.1 message rfl
  | ok value =>
    refine ⟨fun returns => ⟨returns_ok value, fun other same => ?_⟩,
      fun returns => returns.2 value rfl⟩
    cases same
    exact returns

/-- After a part that cannot panic only the rest counts. -/
theorem returns_fallible_bind {first : Except ε α} {rest : α → Except (Failure ε) β} :
    Returns (fallible first >>= rest) ↔ ∀ value, first = .ok value → Returns (rest value) := by
  rw [returns_bind, and_iff_right (returns_fallible first)]
  exact forall_congr' fun value => by rw [fallible_eq_ok]

/-! ### Lists -/

/-- An item is safe while all items before it are good. -/
def SafeWhile (good safe : ι → Prop) : List ι → Prop
  | [] => True
  | item :: rest => safe item ∧ (good item → SafeWhile good safe rest)

/-- The items before which all others are good are safe. -/
theorem safeWhile_iff {good safe : ι → Prop} {items : List ι} :
    SafeWhile good safe items ↔ ∀ before item after, items = before ++ item :: after →
      (∀ other ∈ before, good other) → safe item := by
  induction items with
  | nil =>
    refine ⟨fun _ before item after same => ?_, fun _ => trivial⟩
    exact absurd same.symm (List.append_ne_nil_of_right_ne_nil before (List.cons_ne_nil item after))
  | cons head rest inductionHypothesis =>
    rw [SafeWhile, inductionHypothesis]
    constructor
    · rintro ⟨here, later⟩ before item after same allGood
      cases before with
      | nil =>
        cases same
        exact here
      | cons first before =>
        cases same
        exact later (allGood head List.mem_cons_self) before item after rfl
          fun other listed => allGood other (List.mem_cons_of_mem head listed)
    · intro all
      refine ⟨all [] head rest rfl fun _ absent => absurd absent List.not_mem_nil, ?_⟩
      rintro good before item after rfl allGood
      refine all (head :: before) item after rfl fun other listed => ?_
      rcases List.mem_cons.mp listed with rfl | inBefore
      · exact good
      · exact allGood other inBefore

theorem SafeWhile.congr {good safe safe' : ι → Prop} {items : List ι}
    (same : ∀ item ∈ items, safe item ↔ safe' item) :
    SafeWhile good safe items ↔ SafeWhile good safe' items := by
  induction items with
  | nil => exact Iff.rfl
  | cons head rest inductionHypothesis =>
    rw [SafeWhile, SafeWhile, same head List.mem_cons_self,
      inductionHypothesis fun item listed => same item (List.mem_cons_of_mem head listed)]

/-- Working through a list returns when it does on each item it gets to. -/
theorem returns_mapM {step : ι → Except (Failure ε) β} {items : List ι} :
    Returns (items.mapM step) ↔
      SafeWhile (fun item => Succeeds (step item)) (fun item => Returns (step item)) items := by
  induction items with
  | nil => exact ⟨fun _ => trivial, fun _ => returns_ok []⟩
  | cons head rest inductionHypothesis =>
    rw [List.mapM_cons, returns_bind, SafeWhile, and_congr_right_iff]
    intro _
    have restReturns : ∀ made : β, Returns (do
        let others ← rest.mapM step
        return made :: others) ↔ Returns (rest.mapM step) := by
      intro made
      rw [returns_bind]
      exact and_iff_left fun others _ => returns_ok (made :: others)
    constructor
    · rintro each ⟨made, succeeded⟩
      exact inductionHypothesis.mp ((restReturns made).mp (each made succeeded))
    · intro later made succeeded
      exact (restReturns made).mpr (inductionHypothesis.mpr (later ⟨made, succeeded⟩))

/-- A loop whose steps all return does so itself. -/
theorem returns_foldlM {step : α → ι → Except (Failure ε) α}
    (returns : ∀ state item, Returns (step state item)) (items : List ι) (start : α) :
    Returns (items.foldlM step start) := by
  induction items generalizing start with
  | nil => exact returns_ok start
  | cons head rest inductionHypothesis =>
    rw [List.foldlM_cons, returns_bind]
    exact ⟨returns start head, fun next _ => inductionHypothesis next⟩

end Panicking
