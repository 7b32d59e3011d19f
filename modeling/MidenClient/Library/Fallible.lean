/-
This file gives the rules for computations that can fail: how a successful computation
comes apart into successful parts, and what a loop that can fail keeps.

The second part is about computations with a state that survives a failure. An invariant
of such a computation holds of the state it leaves behind whether it fails or not.
-/

import Mathlib

namespace Fallible

universe u

variable {α : Type*} {ε β γ σ : Type u}

/-- A sequence succeeds when its first part does and the rest does on its result. -/
theorem bind_eq_ok {first : Except ε β} {rest : β → Except ε γ} {result : γ} :
    (first >>= rest) = .ok result ↔ ∃ value, first = .ok value ∧ rest value = .ok result := by
  cases first with
  | error reason =>
    constructor
    · intro failed
      cases failed
    · rintro ⟨_, failed, _⟩
      cases failed
  | ok value =>
    constructor
    · exact fun succeeded => ⟨value, rfl, succeeded⟩
    · rintro ⟨_, same, succeeded⟩
      cases same
      exact succeeded

theorem eq_ok_of_mapError {ε' : Type u} {convert : ε → ε'} {result : Except ε β} {value : β}
    (converted : result.mapError convert = .ok value) : result = .ok value := by
  cases result with
  | error reason => cases converted
  | ok other =>
    cases converted
    rfl

theorem map_eq_ok {result : Except ε β} {view : β → γ} {value : γ} :
    result.map view = .ok value ↔ ∃ made, result = .ok made ∧ view made = value := by
  cases result with
  | error reason =>
    constructor
    · intro failed
      cases failed
    · rintro ⟨_, failed, _⟩
      cases failed
  | ok made =>
    constructor
    · exact fun same => ⟨made, rfl, Except.ok.inj same⟩
    · rintro ⟨_, ⟨⟩, rfl⟩
      rfl

/-- The loop rule: an invariant that speaks about the items still to come, and that every
successful step keeps, holds with no item left when the loop succeeds. -/
theorem foldlM_invariant (invariant : List α → σ → Prop) (step : σ → α → Except ε σ)
    (keeps : ∀ item rest state next, invariant (item :: rest) state → step state item = .ok next →
      invariant rest next)
    (items : List α) (start result : σ) (holds : invariant items start)
    (finished : items.foldlM step start = .ok result) : invariant [] result := by
  induction items generalizing start with
  | nil =>
    cases finished
    exact holds
  | cons item rest inductionHypothesis =>
    rw [List.foldlM_cons] at finished
    obtain ⟨next, stepped, remaining⟩ := bind_eq_ok.mp finished
    exact inductionHypothesis next (keeps item rest start next holds stepped) remaining

/-- A loop whose steps succeed or fail by their item alone succeeds when all of them do. -/
theorem foldlM_succeeds_iff {step : σ → α → Except ε σ} {succeeds : α → Prop}
    (steps : ∀ state item, (∃ next, step state item = .ok next) ↔ succeeds item)
    (items : List α) (start : σ) :
    (∃ result, items.foldlM step start = .ok result) ↔ ∀ item ∈ items, succeeds item := by
  induction items generalizing start with
  | nil => exact ⟨fun _ _ absent => absurd absent List.not_mem_nil, fun _ => ⟨start, rfl⟩⟩
  | cons item rest inductionHypothesis =>
    rw [List.forall_mem_cons, List.foldlM_cons]
    constructor
    · rintro ⟨result, finished⟩
      obtain ⟨next, stepped, remaining⟩ := bind_eq_ok.mp finished
      exact ⟨(steps start item).mp ⟨next, stepped⟩,
        (inductionHypothesis next).mp ⟨result, remaining⟩⟩
    · rintro ⟨first, others⟩
      obtain ⟨next, stepped⟩ := (steps start item).mpr first
      obtain ⟨result, remaining⟩ := (inductionHypothesis next).mpr others
      exact ⟨result, bind_eq_ok.mpr ⟨next, stepped, remaining⟩⟩

/-- A loop that collects one result for each item pairs the items with their results. -/
theorem foldlM_forall₂ {γ : Type u} {related : α → γ → Prop}
    {step : List γ → α → Except ε (List γ)}
    (collects : ∀ collected item next, step collected item = .ok next →
      ∃ made, related item made ∧ next = collected ++ [made])
    {items : List α} {start result : List γ} (finished : items.foldlM step start = .ok result) :
    ∃ made, result = start ++ made ∧ List.Forall₂ related items made := by
  induction items generalizing start with
  | nil =>
    cases finished
    exact ⟨[], (List.append_nil _).symm, .nil⟩
  | cons item rest inductionHypothesis =>
    rw [List.foldlM_cons] at finished
    obtain ⟨next, stepped, remaining⟩ := bind_eq_ok.mp finished
    obtain ⟨first, holds, rfl⟩ := collects start item next stepped
    obtain ⟨others, rfl, paired⟩ := inductionHypothesis remaining
    exact ⟨first :: others, by simp, .cons holds paired⟩

/-- Each item has a result that is related to it. -/
theorem mapM_forall₂ {ε α β : Type} (step : α → Except ε β) (related : α → β → Prop)
    (items : List α) (each : ∀ item ∈ items, ∃ value, step item = .ok value ∧ related item value) :
    ∃ values, items.mapM step = .ok values ∧ List.Forall₂ related items values := by
  induction items with
  | nil => exact ⟨[], rfl, .nil⟩
  | cons item rest inductionHypothesis =>
    obtain ⟨value, made, relation⟩ := each item List.mem_cons_self
    obtain ⟨values, others, relations⟩ := inductionHypothesis fun other listed =>
      each other (List.mem_cons_of_mem item listed)
    refine ⟨value :: values, ?_, .cons relation relations⟩
    rw [List.mapM_cons]
    exact bind_eq_ok.mpr ⟨value, made, bind_eq_ok.mpr ⟨values, others, rfl⟩⟩

/-- A list is made of the results of its items, one by one. -/
theorem mapM_eq_ok_iff {ε α β : Type} {step : α → Except ε β} {items : List α} {values : List β} :
    items.mapM step = .ok values ↔
      List.Forall₂ (fun item value => step item = .ok value) items values := by
  induction items generalizing values with
  | nil =>
    rw [List.mapM_nil, List.forall₂_nil_left_iff]
    exact ⟨fun same => (Except.ok.inj same).symm, fun same => congrArg Except.ok same.symm⟩
  | cons item rest inductionHypothesis =>
    rw [List.mapM_cons, List.forall₂_cons_left_iff]
    constructor
    · intro made
      obtain ⟨value, first, made⟩ := bind_eq_ok.mp made
      obtain ⟨others, othersMade, made⟩ := bind_eq_ok.mp made
      exact ⟨value, others, first, inductionHypothesis.mp othersMade, (Except.ok.inj made).symm⟩
    · rintro ⟨value, others, first, paired, rfl⟩
      exact bind_eq_ok.mpr ⟨value, first, bind_eq_ok.mpr ⟨others, inductionHypothesis.mpr paired,
        rfl⟩⟩

/-- One result is made of at most one item. -/
theorem mapM_toList_eq_singleton {step : α → Except ε β} {item : Option α} {value : β} :
    item.toList.mapM step = .ok [value] ↔ ∃ there, item = some there ∧ step there = .ok value := by
  cases item with
  | none =>
    constructor
    · intro made
      cases made
    · rintro ⟨_, absent, _⟩
      cases absent
  | some there =>
    rw [Option.toList_some, List.mapM_cons]
    constructor
    · intro made
      obtain ⟨first, done, rest⟩ := bind_eq_ok.mp made
      obtain ⟨_, nothing, same⟩ := bind_eq_ok.mp rest
      cases nothing
      cases same
      exact ⟨there, rfl, done⟩
    · rintro ⟨_, ⟨⟩, done⟩
      exact bind_eq_ok.mpr ⟨value, done, rfl⟩

/-- What is found first in paired lists is a pair. -/
theorem find?_forall₂ {α β : Type} {related : α → β → Prop} {items : List α} {others : List β}
    (paired : List.Forall₂ related items others) (test : α → Bool) (otherTest : β → Bool)
    (same : ∀ item other, related item other → test item = otherTest other) :
    Option.Rel related (items.find? test) (others.find? otherTest) := by
  induction paired with
  | nil => exact .none
  | @cons item other items others relation _ inductionHypothesis =>
    rw [List.find?_cons, List.find?_cons, same item other relation]
    cases otherTest other with
    | true => exact .some relation
    | false => exact inductionHypothesis

theorem exists_of_forall₂_left {γ : Type*} {related : α → γ → Prop} {items : List α}
    {results : List γ} (paired : List.Forall₂ related items results) {item : α}
    (member : item ∈ items) : ∃ result ∈ results, related item result := by
  induction paired with
  | nil => cases member
  | @cons first made _ _ holds _ inductionHypothesis =>
    rcases List.mem_cons.mp member with rfl | later
    · exact ⟨made, List.mem_cons_self, holds⟩
    · obtain ⟨result, listed, holds⟩ := inductionHypothesis later
      exact ⟨result, List.mem_cons_of_mem made listed, holds⟩

theorem exists_of_forall₂_right {γ : Type*} {related : α → γ → Prop} {items : List α}
    {results : List γ} (paired : List.Forall₂ related items results) {result : γ}
    (member : result ∈ results) : ∃ item ∈ items, related item result :=
  exists_of_forall₂_left paired.flip member

/-- What a list is made into comes from its items. -/
theorem exists_of_mapM {ε α β : Type} {step : α → Except ε β} {items : List α} {values : List β}
    (made : items.mapM step = .ok values) {value : β} (member : value ∈ values) :
    ∃ item ∈ items, step item = .ok value := by
  induction items generalizing values with
  | nil =>
    cases made
    exact absurd member List.not_mem_nil
  | cons item rest inductionHypothesis =>
    rw [List.mapM_cons] at made
    obtain ⟨first, firstMade, made⟩ := bind_eq_ok.mp made
    obtain ⟨others, othersMade, made⟩ := bind_eq_ok.mp made
    cases made
    rcases List.mem_cons.mp member with rfl | later
    · exact ⟨item, List.mem_cons_self, firstMade⟩
    · obtain ⟨other, listed, otherMade⟩ := inductionHypothesis othersMade later
      exact ⟨other, List.mem_cons_of_mem item listed, otherMade⟩

/-- The computation failed for a reason. -/
def refusesWith [DecidableEq ε] (result : Except ε β) (reason : ε) : Bool :=
  match result with
  | .ok _ => false
  | .error other => other = reason

theorem eq_error_of_refusesWith [DecidableEq ε] {result : Except ε β} {reason : ε}
    (refuses : refusesWith result reason = true) : result = .error reason := by
  cases result with
  | ok value => cases refuses
  | error other => rw [of_decide_eq_true refuses]

/-! ### State that survives a failure -/

theorem bind_eq_result_ok {first : EStateM ε σ β} {rest : β → EStateM ε σ γ} {start last : σ}
    {result : γ} :
    (first >>= rest) start = .ok result last ↔
      ∃ value next, first start = .ok value next ∧ rest value next = .ok result last := by
  show EStateM.bind first rest start = .ok result last ↔ _
  unfold EStateM.bind
  cases first start with
  | error reason next =>
    constructor
    · intro failed
      cases failed
    · rintro ⟨_, _, failed, _⟩
      cases failed
  | ok value next =>
    constructor
    · exact fun succeeded => ⟨value, next, rfl, succeeded⟩
    · rintro ⟨_, _, same, succeeded⟩
      cases same
      exact succeeded

/-- Running past a step that succeeded. -/
theorem bind_of_result_ok {first : EStateM ε σ β} {start next : σ} {value : β}
    (ran : first start = .ok value next) (rest : β → EStateM ε σ γ) :
    (first >>= rest) start = rest value next := by
  show EStateM.bind first rest start = _
  rw [EStateM.bind, ran]

/-- A step that reads the state hands it on. -/
theorem get_bind (rest : σ → EStateM ε σ γ) (start : σ) :
    ((get : EStateM ε σ σ) >>= rest) start = rest start start :=
  rfl

theorem bind_eq_result_error {first : EStateM ε σ β} {rest : β → EStateM ε σ γ}
    {start last : σ} {reason : ε} :
    (first >>= rest) start = .error reason last ↔
      first start = .error reason last ∨
        ∃ value next, first start = .ok value next ∧ rest value next = .error reason last := by
  show EStateM.bind first rest start = .error reason last ↔ _
  unfold EStateM.bind
  cases first start with
  | error other next =>
    constructor
    · intro failed
      cases failed
      exact Or.inl rfl
    · rintro (failed | ⟨_, _, succeeded, _⟩)
      · cases failed
        rfl
      · cases succeeded
  | ok value next =>
    constructor
    · exact fun failed => Or.inr ⟨value, next, rfl, failed⟩
    · rintro (failed | ⟨_, _, same, failed⟩)
      · cases failed
      · cases same
        exact failed

/-- The operation succeeded, and its value and state pass a test. -/
def succeedsWith (result : EStateM.Result ε σ β) (test : β → σ → Bool) : Bool :=
  match result with
  | .ok value last => test value last
  | .error _ _ => false

/-- Evaluating an operation shows that it succeeds. -/
theorem exists_of_succeedsWith {result : EStateM.Result ε σ β} {test : β → σ → Bool}
    (succeeds : succeedsWith result test = true) :
    ∃ value last, result = .ok value last ∧ test value last = true := by
  cases result with
  | ok value last => exact ⟨value, last, rfl, succeeds⟩
  | error reason last => cases succeeds

/-- The operation failed for a reason. -/
def failsWith [DecidableEq ε] (result : EStateM.Result ε σ β) (reason : ε) : Bool :=
  match result with
  | .ok _ _ => false
  | .error other _ => other = reason

theorem exists_of_failsWith [DecidableEq ε] {result : EStateM.Result ε σ β} {reason : ε}
    (fails : failsWith result reason = true) : ∃ last, result = .error reason last := by
  cases result with
  | ok value last => cases fails
  | error other last =>
    rw [of_decide_eq_true fails]
    exact ⟨last, rfl⟩

/-- The operation failed, and the state it left passes a test. -/
def failsLeaving (result : EStateM.Result ε σ β) (test : σ → Bool) : Bool :=
  match result with
  | .ok _ _ => false
  | .error _ last => test last

theorem exists_of_failsLeaving {result : EStateM.Result ε σ β} {test : σ → Bool}
    (fails : failsLeaving result test = true) :
    ∃ reason last, result = .error reason last ∧ test last = true := by
  cases result with
  | ok value last => cases fails
  | error reason last => exact ⟨reason, last, rfl, fails⟩

/-- The loop rule for the value that a successful loop computes. -/
theorem foldlM_result_invariant (invariant : β → Prop) (step : β → α → EStateM ε σ β)
    (items : List α)
    (keeps : ∀ item ∈ items, ∀ value start next last, invariant value →
      step value item start = .ok next last → invariant next)
    (value result : β) (start last : σ) (holds : invariant value)
    (finished : items.foldlM step value start = .ok result last) : invariant result := by
  induction items generalizing value start with
  | nil =>
    cases finished
    exact holds
  | cons item rest inductionHypothesis =>
    rw [List.foldlM_cons] at finished
    obtain ⟨next, middle, stepped, remaining⟩ := bind_eq_result_ok.mp finished
    exact inductionHypothesis (fun other member => keeps other (List.mem_cons_of_mem item member))
      next middle (keeps item List.mem_cons_self value start next middle holds stepped) remaining

/-- The loop rule for the value and the state of a successful loop. -/
theorem foldlM_result_state_invariant (invariant : β → σ → Prop) (step : β → α → EStateM ε σ β)
    (items : List α)
    (keeps : ∀ item ∈ items, ∀ value start next last, invariant value start →
      step value item start = .ok next last → invariant next last)
    (value result : β) (start last : σ) (holds : invariant value start)
    (finished : items.foldlM step value start = .ok result last) : invariant result last := by
  induction items generalizing value start with
  | nil =>
    cases finished
    exact holds
  | cons item rest inductionHypothesis =>
    rw [List.foldlM_cons] at finished
    obtain ⟨next, middle, stepped, remaining⟩ := bind_eq_result_ok.mp finished
    exact inductionHypothesis (fun other member => keeps other (List.mem_cons_of_mem item member))
      next middle (keeps item List.mem_cons_self value start next middle holds stepped) remaining

/-- What every step of a successful loop establishes for its item, and keeps for the earlier ones,
holds for all items at the end. -/
theorem foldlM_result_covers (covers : α → β → σ → Prop)
    {step : β → α → EStateM ε σ β} {items : List α}
    (adds : ∀ item ∈ items, ∀ value start next last, step value item start = .ok next last →
      covers item next last)
    (keeps : ∀ item ∈ items, ∀ other value start next last, covers other value start →
      step value item start = .ok next last → covers other next last)
    {value result : β} {start last : σ}
    (finished : items.foldlM step value start = .ok result last) :
    ∀ item ∈ items, covers item result last := by
  induction items generalizing value start with
  | nil => exact fun _ absent => absurd absent List.not_mem_nil
  | cons head rest inductionHypothesis =>
    rw [List.foldlM_cons] at finished
    obtain ⟨next, middle, stepped, remaining⟩ := bind_eq_result_ok.mp finished
    have later := inductionHypothesis
      (fun item member => adds item (List.mem_cons_of_mem head member))
      (fun item member => keeps item (List.mem_cons_of_mem head member)) remaining
    intro item member
    rcases List.mem_cons.mp member with rfl | listed
    · exact foldlM_result_state_invariant (covers item) step rest
        (fun other inRest value start next last holds ran =>
          keeps other (List.mem_cons_of_mem item inRest) item value start next last holds ran)
        next result middle last
        (adds item List.mem_cons_self value start next middle stepped) remaining
    · exact later item listed

/-- A loop that collects one result for each item pairs the items with their results, while an
invariant says what each step can rely on. -/
theorem foldlM_result_forall₂ {γ : Type*} {related : α → γ → Prop} (invariant : β → σ → Prop)
    (collected : β → List γ) {step : β → α → EStateM ε σ β} {items : List α}
    (collects : ∀ item ∈ items, ∀ value start next last, invariant value start →
      step value item start = .ok next last →
        invariant next last ∧
          ∃ made, related item made ∧ collected next = collected value ++ [made])
    {value result : β} {start last : σ} (holds : invariant value start)
    (finished : items.foldlM step value start = .ok result last) :
    ∃ made, collected result = collected value ++ made ∧ List.Forall₂ related items made := by
  induction items generalizing value start with
  | nil =>
    cases finished
    exact ⟨[], (List.append_nil _).symm, .nil⟩
  | cons item rest inductionHypothesis =>
    rw [List.foldlM_cons] at finished
    obtain ⟨next, middle, stepped, remaining⟩ := bind_eq_result_ok.mp finished
    obtain ⟨kept, first, paired, grown⟩ :=
      collects item List.mem_cons_self value start next middle holds stepped
    obtain ⟨others, added, listed⟩ := inductionHypothesis
      (fun other member => collects other (List.mem_cons_of_mem item member)) kept remaining
    refine ⟨first :: others, ?_, .cons paired listed⟩
    rw [added, grown, List.append_assoc, List.singleton_append]

/-- Runs a computation that does not touch the state. -/
def fromExcept (computation : Except ε β) : EStateM ε σ β :=
  fun state =>
    match computation with
    | .ok value => .ok value state
    | .error reason => .error reason state

theorem fromExcept_eq_ok {computation : Except ε β} {value : β} {start last : σ} :
    fromExcept computation start = .ok value last ↔ computation = .ok value ∧ start = last := by
  unfold fromExcept
  cases computation with
  | error reason => simp
  | ok result => simp

theorem fromExcept_eq_error {computation : Except ε β} {reason : ε} {start last : σ} :
    fromExcept computation start = .error reason last ↔
      computation = .error reason ∧ start = last := by
  unfold fromExcept
  cases computation with
  | error other => simp
  | ok value => simp

theorem fromExcept_bind (computation : Except ε β) (rest : β → EStateM ε σ γ) (start : σ) :
    (fromExcept computation >>= rest) start =
      match computation with
      | .ok value => rest value start
      | .error reason => .error reason start := by
  cases computation <;> rfl

/-- The state a computation leaves behind. -/
def finalState : EStateM.Result ε σ β → σ
  | .ok _ state => state
  | .error _ state => state

theorem finalState_fromExcept (computation : Except ε β) (start : σ) :
    finalState (fromExcept computation start) = start := by
  unfold fromExcept
  cases computation <;> rfl

/-- A second part that leaves some view of the state alone does not show in it. -/
theorem view_finalState_bind {δ : Type*} (view : σ → δ) {first : EStateM ε σ β}
    {rest : β → EStateM ε σ γ}
    (keeps : ∀ value state, view (finalState (rest value state)) = view state) (start : σ) :
    view (finalState ((first >>= rest) start)) = view (finalState (first start)) := by
  show view (finalState (EStateM.bind first rest start)) = _
  unfold EStateM.bind
  rcases first start with ⟨value, next⟩ | ⟨reason, next⟩
  · exact keeps value next
  · rfl

/-- A second part that leaves the state alone does not show in the final state. -/
theorem finalState_bind {first : EStateM ε σ β} {rest : β → EStateM ε σ γ}
    (keeps : ∀ value state, finalState (rest value state) = state) (start : σ) :
    finalState ((first >>= rest) start) = finalState (first start) :=
  view_finalState_bind id keeps start

/-- The invariant holds of the final state when it holds at the start, also after a failure. -/
def Preserves (invariant : σ → Prop) (operation : EStateM ε σ β) : Prop :=
  ∀ start, invariant start → invariant (finalState (operation start))

theorem Preserves.of_ok {invariant : σ → Prop} {operation : EStateM ε σ β}
    (preserves : Preserves invariant operation) {start next : σ} {value : β}
    (holds : invariant start) (succeeded : operation start = .ok value next) : invariant next := by
  have kept := preserves start holds
  rwa [succeeded] at kept

theorem Preserves.bind {invariant : σ → Prop} {first : EStateM ε σ β}
    {rest : β → EStateM ε σ γ} (before : Preserves invariant first)
    (after : ∀ value, Preserves invariant (rest value)) : Preserves invariant (first >>= rest) := by
  intro start holds
  have kept := before start holds
  show invariant (finalState (EStateM.bind first rest start))
  unfold EStateM.bind
  cases outcome : first start with
  | error reason next =>
    rw [outcome] at kept
    exact kept
  | ok value next =>
    rw [outcome] at kept
    exact after value next kept

/-- A failure keeps the invariant, and a success ends with the given value and state. -/
def Ends (invariant : σ → Prop) (result : β → σ → Prop) (operation : EStateM ε σ β) : Prop :=
  ∀ start, invariant start →
    (∃ reason last, operation start = .error reason last ∧ invariant last) ∨
      ∃ value last, operation start = .ok value last ∧ result value last

/-- Only the last part decides how a success ends. -/
theorem Ends.bind {invariant : σ → Prop} {result : γ → σ → Prop} {first : EStateM ε σ β}
    {rest : β → EStateM ε σ γ} (before : Preserves invariant first)
    (after : ∀ value, Ends invariant result (rest value)) :
    Ends invariant result (first >>= rest) := by
  intro start holds
  have kept := before start holds
  rcases outcome : first start with ⟨value, next⟩ | ⟨reason, next⟩
  · rw [outcome] at kept
    rw [bind_of_result_ok outcome]
    exact after value next kept
  · rw [outcome] at kept
    exact Or.inl ⟨reason, next, bind_eq_result_error.mpr (Or.inl outcome), kept⟩

theorem Preserves.pure (invariant : σ → Prop) (value : β) :
    Preserves invariant (pure value : EStateM ε σ β) :=
  fun _ holds => holds

theorem Preserves.get (invariant : σ → Prop) : Preserves invariant (get : EStateM ε σ σ) :=
  fun _ holds => holds

theorem Preserves.fromExcept (invariant : σ → Prop) (computation : Except ε β) :
    Preserves invariant (fromExcept computation) := by
  intro start holds
  rw [finalState_fromExcept]
  exact holds

theorem Preserves.foldlM_of_mem {invariant : σ → Prop} {step : β → α → EStateM ε σ β}
    {items : List α} (steps : ∀ value, ∀ item ∈ items, Preserves invariant (step value item))
    (start : β) : Preserves invariant (items.foldlM step start) := by
  induction items generalizing start with
  | nil => exact Preserves.pure invariant start
  | cons item rest inductionHypothesis =>
    rw [List.foldlM_cons]
    exact (steps start item List.mem_cons_self).bind (inductionHypothesis fun value other member =>
      steps value other (List.mem_cons_of_mem item member))

theorem Preserves.foldlM {invariant : σ → Prop} {step : β → α → EStateM ε σ β}
    (steps : ∀ value item, Preserves invariant (step value item)) (items : List α) (start : β) :
    Preserves invariant (items.foldlM step start) :=
  Preserves.foldlM_of_mem (fun value item _ => steps value item) start

theorem Preserves.forM {invariant : σ → Prop} {operation : α → EStateM ε σ PUnit}
    (steps : ∀ item, Preserves invariant (operation item)) (items : List α) :
    Preserves invariant (items.forM operation) := by
  induction items with
  | nil => exact Preserves.pure invariant PUnit.unit
  | cons item rest inductionHypothesis => exact (steps item).bind fun _ => inductionHypothesis

/-- Whatever the computation returns satisfies the condition. -/
def Returns (condition : β → Prop) (operation : EStateM ε σ β) : Prop :=
  ∀ start value last, operation start = .ok value last → condition value

theorem Returns.bind {condition : γ → Prop} {middle : β → Prop} {first : EStateM ε σ β}
    {rest : β → EStateM ε σ γ} (before : Returns middle first)
    (after : ∀ value, middle value → Returns condition (rest value)) :
    Returns condition (first >>= rest) := by
  intro start result last finished
  obtain ⟨value, next, firstDone, restDone⟩ := bind_eq_result_ok.mp finished
  exact after value (before start value next firstDone) next result last restDone

theorem Returns.pure {condition : β → Prop} {value : β} (holds : condition value) :
    Returns condition (pure value : EStateM ε σ β) := by
  intro start result last finished
  cases finished
  exact holds

theorem Returns.any (operation : EStateM ε σ β) : Returns (fun _ => True) operation :=
  fun _ _ _ _ => trivial

theorem Returns.foldlM (condition : β → Prop) {step : β → α → EStateM ε σ β} (items : List α)
    (steps : ∀ item ∈ items, ∀ value, condition value → Returns condition (step value item))
    {start : β} (holds : condition start) : Returns condition (items.foldlM step start) := by
  intro state result last finished
  refine foldlM_result_invariant condition step items ?_ start result state last holds finished
  intro item member value middle next after valueHolds stepped
  exact steps item member value valueHolds middle next after stepped

/-! ### Errors -/

/-- Whatever error the computation ends with satisfies the condition. -/
def FailsWith (condition : ε → Prop) (computation : Except ε β) : Prop :=
  ∀ reason, computation = .error reason → condition reason

theorem FailsWith.ok (condition : ε → Prop) (value : β) :
    FailsWith condition (.ok value : Except ε β) := by
  intro reason failed
  cases failed

theorem FailsWith.error {condition : ε → Prop} {reason : ε} (holds : condition reason) :
    FailsWith condition (.error reason : Except ε β) := by
  intro other failed
  cases failed
  exact holds

theorem FailsWith.bind {condition : ε → Prop} {first : Except ε β} {rest : β → Except ε γ}
    (before : FailsWith condition first) (after : ∀ value, FailsWith condition (rest value)) :
    FailsWith condition (first >>= rest) := by
  cases first with
  | error reason => exact FailsWith.error (before reason rfl)
  | ok value => exact after value

theorem FailsWith.foldlM {condition : ε → Prop} {step : σ → α → Except ε σ}
    (steps : ∀ state item, FailsWith condition (step state item)) (items : List α) (start : σ) :
    FailsWith condition (items.foldlM step start) := by
  induction items generalizing start with
  | nil => exact FailsWith.ok condition start
  | cons item rest inductionHypothesis =>
    rw [List.foldlM_cons]
    exact (steps start item).bind inductionHypothesis

/-- Whatever error the operation ends with satisfies the condition. -/
def Throws (condition : ε → Prop) (operation : EStateM ε σ β) : Prop :=
  ∀ start reason last, operation start = .error reason last → condition reason

theorem Throws.bind {condition : ε → Prop} {first : EStateM ε σ β} {rest : β → EStateM ε σ γ}
    (before : Throws condition first) (after : ∀ value, Throws condition (rest value)) :
    Throws condition (first >>= rest) := by
  intro start reason last failed
  rcases bind_eq_result_error.mp failed with failed | ⟨value, next, -, failed⟩
  · exact before start reason last failed
  · exact after value next reason last failed

theorem Throws.pure (condition : ε → Prop) (value : β) :
    Throws condition (pure value : EStateM ε σ β) := by
  intro start reason last failed
  cases failed

theorem Throws.throw {condition : ε → Prop} {reason : ε} (holds : condition reason) :
    Throws condition (throw reason : EStateM ε σ β) := by
  intro start other last failed
  cases failed
  exact holds

theorem Throws.foldlM {condition : ε → Prop} {step : β → α → EStateM ε σ β}
    (steps : ∀ value item, Throws condition (step value item)) (items : List α) (start : β) :
    Throws condition (items.foldlM step start) := by
  induction items generalizing start with
  | nil => exact Throws.pure condition start
  | cons item rest inductionHypothesis =>
    rw [List.foldlM_cons]
    exact (steps start item).bind inductionHypothesis

end Fallible
