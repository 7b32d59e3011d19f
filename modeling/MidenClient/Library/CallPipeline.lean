/-
This file gives a protocol by which one party has its calls served by another. A call is posted
under an id, served, and settled when its answer comes back; requests and answers each keep their
order. The caller looks up by its id what call an answer is for.

As long as no id is used while a call is pending under it, the calls are served in the order in
which they were made, each of them once, and each is settled with its own answer.
-/

import MidenClient.Library.ListEntries
import MidenClient.Library.OrderedMap

open Std (ExtTreeMap)
open scoped OrderedMap

/-- The state of the protocol: the calls made, with what they are settled with; how many of them
have been posted; the ids under which calls are pending; what has been served; and the answers and
requests under way, the next one first. -/
structure CallPipeline (Call Served Answer Promise Id : Type) [LinearOrder Id] where
  calls : List (Call × Option Promise)
  posted : ℕ
  pending : ExtTreeMap Id ℕ
  served : List (Call × Served)
  answers : List (Id × Answer)
  requests : List (Call × Id)

namespace CallPipeline

open ListEntries

variable {Call Served Answer Promise Id : Type} [LinearOrder Id]

/-! ### Keys that number what is pending -/

/-- The map gives the keys of a list their numbers, from the first one on. -/
def Numbers (map : ExtTreeMap Id ℕ) (first : ℕ) (keys : List Id) : Prop :=
  ∀ key number, map[key]? = some number ↔
    ∃ position, keys[position]? = some key ∧ number = first + position

theorem numbers_empty (first : ℕ) : Numbers (∅ : ExtTreeMap Id ℕ) first [] := by
  intro key number
  simp

theorem Numbers.getElem?_eq_none {map : ExtTreeMap Id ℕ} {first : ℕ} {keys : List Id}
    (numbers : Numbers map first keys) {key : Id} : map[key]? = none ↔ key ∉ keys := by
  constructor
  · intro absent member
    obtain ⟨position, found⟩ := List.mem_iff_getElem?.mp member
    have numbered := (numbers key (first + position)).mpr ⟨position, found, rfl⟩
    rw [absent] at numbered
    exact absurd numbered (by simp)
  · intro fresh
    rcases found : map[key]? with _ | number
    · rfl
    · obtain ⟨position, member, -⟩ := (numbers key number).mp found
      exact absurd (List.mem_iff_getElem?.mpr ⟨position, member⟩) fresh

theorem Numbers.insert {map : ExtTreeMap Id ℕ} {first : ℕ} {keys : List Id}
    (numbers : Numbers map first keys) {key : Id} (fresh : key ∉ keys) :
    Numbers (map.insert key (first + keys.length)) first (keys ++ [key]) := by
  intro other number
  rw [ExtTreeMap.getElem?_insert]
  by_cases same : key = other
  · subst same
    rw [if_pos (Std.ReflCmp.compare_self), Option.some_inj]
    constructor
    · rintro rfl
      exact ⟨keys.length, List.getElem?_concat_length, rfl⟩
    · rintro ⟨position, found, rfl⟩
      rw [List.getElem?_append] at found
      split at found
      · exact absurd (List.mem_of_getElem? found) fresh
      · have last : position - keys.length < 1 := (List.getElem?_eq_some_iff.mp found).1
        omega
  · rw [if_neg (by rwa [Std.compare_eq_iff_eq]), numbers other number]
    refine exists_congr fun position => and_congr_left fun _ => ?_
    rw [List.getElem?_append]
    split
    · exact Iff.rfl
    · rename_i beyond
      rw [List.getElem?_eq_none (by omega)]
      rcases found : ([key] : List Id)[position - keys.length]? with _ | last
      · exact Iff.rfl
      · have equal : last = key := List.mem_singleton.mp (List.mem_of_getElem? found)
        rw [equal, Option.some_inj]
        exact ⟨fun found => absurd found (by simp), fun equal => absurd equal same⟩

theorem Numbers.erase {map : ExtTreeMap Id ℕ} {first : ℕ} {key : Id} {keys : List Id}
    (numbers : Numbers map first (key :: keys)) (fresh : key ∉ keys) :
    Numbers (map.erase key) (first + 1) keys := by
  intro other number
  rw [ExtTreeMap.getElem?_erase]
  by_cases same : key = other
  · subst same
    rw [if_pos Std.ReflCmp.compare_self]
    constructor
    · intro found
      cases found
    · rintro ⟨position, found, -⟩
      exact absurd (List.mem_of_getElem? found) fresh
  · rw [if_neg (by rwa [Std.compare_eq_iff_eq]), numbers other number]
    constructor
    · rintro ⟨position, found, rfl⟩
      rcases position with _ | position
      · exact absurd (Option.some_inj.mp found) same
      · exact ⟨position, found, by omega⟩
    · rintro ⟨position, found, rfl⟩
      exact ⟨position + 1, found, by omega⟩

theorem Numbers.head {map : ExtTreeMap Id ℕ} {first : ℕ} {key : Id} {keys : List Id}
    (numbers : Numbers map first (key :: keys)) : map[key]? = some first :=
  (numbers key first).mpr ⟨0, rfl, rfl⟩

/-- A key that is given the next number while it still has one takes it away from whoever had
it. -/
theorem Numbers.overwritten {map : ExtTreeMap Id ℕ} {first : ℕ} {keys : List Id}
    (numbers : Numbers map first keys) {key : Id} (used : key ∈ keys) :
    ∃ position, position < keys.length ∧
      ∀ other : Id,
        (map.insert key (first + keys.length))[other]? ≠ some (first + position) := by
  obtain ⟨position, found⟩ := List.mem_iff_getElem?.mp used
  have bound : position < keys.length := (List.getElem?_eq_some_iff.mp found).1
  refine ⟨position, bound, fun other numbered => ?_⟩
  rw [ExtTreeMap.getElem?_insert] at numbered
  split at numbered
  · have := Option.some_inj.mp numbered
    omega
  · rename_i different
    obtain ⟨place, at_place, equal⟩ := (numbers other _).mp numbered
    have same : place = position := by omega
    subst same
    rw [found] at at_place
    exact different (Std.compare_eq_iff_eq.mpr (Option.some_inj.mp at_place))

/-! ### Steps -/

section Steps

variable (answer : Served → Answer) (settlement : Answer → Promise)
  (allowed : Call → Served → Prop)

def call (pipeline : CallPipeline Call Served Answer Promise Id) (made : Call) :
    CallPipeline Call Served Answer Promise Id :=
  { pipeline with calls := pipeline.calls ++ [(made, none)] }

def post (pipeline : CallPipeline Call Served Answer Promise Id) (made : Call) (id : Id) :
    CallPipeline Call Served Answer Promise Id :=
  { pipeline with
    posted := pipeline.posted + 1
    pending := pipeline.pending.insert id pipeline.posted
    requests := pipeline.requests ++ [(made, id)] }

def serve (pipeline : CallPipeline Call Served Answer Promise Id) (made : Call) (id : Id)
    (rest : List (Call × Id)) (served : Served) : CallPipeline Call Served Answer Promise Id :=
  { pipeline with
    requests := rest
    served := pipeline.served ++ [(made, served)]
    answers := pipeline.answers ++ [(id, answer served)] }

def settle (pipeline : CallPipeline Call Served Answer Promise Id) (id : Id) (given : Answer)
    (rest : List (Id × Answer)) (number : ℕ) : CallPipeline Call Served Answer Promise Id :=
  { pipeline with
    answers := rest
    pending := pipeline.pending.erase id
    calls := pipeline.calls.modify number fun made =>
      (made.1, made.2.or (some (settlement given))) }

/-- What one step of the protocol does: a call is made; the next one is posted under an id that
no call is pending under; the next request is served; the next answer settles the call that is
pending under its id. -/
inductive Step : CallPipeline Call Served Answer Promise Id →
    CallPipeline Call Served Answer Promise Id → Prop
  | call (pipeline) (made : Call) : Step pipeline (pipeline.call made)
  | post (pipeline) (made : Call) (promise : Option Promise) (id : Id)
      (next : pipeline.calls[pipeline.posted]? = some (made, promise))
      (fresh : pipeline.pending[id]? = none) : Step pipeline (pipeline.post made id)
  | serve (pipeline) (made : Call) (id : Id) (rest : List (Call × Id)) (served : Served)
      (next : pipeline.requests = (made, id) :: rest) (permitted : allowed made served) :
      Step pipeline (pipeline.serve answer made id rest served)
  | settle (pipeline) (id : Id) (given : Answer) (rest : List (Id × Answer)) (number : ℕ)
      (next : pipeline.answers = (id, given) :: rest)
      (found : pipeline.pending[id]? = some number) :
      Step pipeline (pipeline.settle settlement id given rest number)

/-! ### The invariant -/

/-- The ids of the calls that are posted and not settled, in the order of the calls. -/
def ids (pipeline : CallPipeline Call Served Answer Promise Id) : List Id :=
  pipeline.answers.map Prod.fst ++ pipeline.requests.map Prod.snd

/-- So many calls are settled, each with its own answer; the answers under way are for the calls
that come next, and the requests under way for the posted calls after these. -/
structure Orderly (pipeline : CallPipeline Call Served Answer Promise Id) (settled : ℕ) :
    Prop where
  posted_le : pipeline.posted ≤ pipeline.calls.length
  settled_le : settled ≤ pipeline.served.length
  promises : ∀ number made, pipeline.calls[number]? = some made →
    made.2 = if number < settled then
      pipeline.served[number]?.map fun entry => settlement (answer entry.2) else none
  answers : pipeline.answers.map Prod.snd =
    (pipeline.served.drop settled).map fun entry => answer entry.2
  requests : pipeline.served.map Prod.fst ++ pipeline.requests.map Prod.fst =
    (pipeline.calls.map Prod.fst).take pipeline.posted
  permitted : ∀ entry ∈ pipeline.served, allowed entry.1 entry.2
  distinct : pipeline.ids.Nodup
  pending : Numbers pipeline.pending settled pipeline.ids

namespace Orderly

variable {answer settlement allowed}
  {pipeline : CallPipeline Call Served Answer Promise Id} {settled : ℕ}

/-- Nothing has been called. -/
theorem initial : Orderly answer settlement allowed
    (⟨[], 0, ∅, [], [], []⟩ : CallPipeline Call Served Answer Promise Id) 0 where
  posted_le := le_rfl
  settled_le := le_rfl
  promises := by
    intro number made found
    simp at found
  answers := rfl
  requests := rfl
  permitted := by
    intro entry member
    exact absurd member List.not_mem_nil
  distinct := List.nodup_nil
  pending := numbers_empty 0

theorem length_answers (orderly : Orderly answer settlement allowed pipeline settled) :
    pipeline.answers.length + settled = pipeline.served.length := by
  have lengths := congrArg List.length orderly.answers
  rw [List.length_map, List.length_map, List.length_drop] at lengths
  have := orderly.settled_le
  omega

theorem length_requests (orderly : Orderly answer settlement allowed pipeline settled) :
    pipeline.served.length + pipeline.requests.length = pipeline.posted := by
  have lengths := congrArg List.length orderly.requests
  rw [List.length_append, List.length_map, List.length_map, List.length_take,
    List.length_map] at lengths
  have := orderly.posted_le
  omega

theorem length_ids (orderly : Orderly answer settlement allowed pipeline settled) :
    settled + pipeline.ids.length = pipeline.posted := by
  have answered := orderly.length_answers
  have requested := orderly.length_requests
  rw [ids, List.length_append, List.length_map, List.length_map]
  omega

theorem call (orderly : Orderly answer settlement allowed pipeline settled) (made : Call) :
    Orderly answer settlement allowed (pipeline.call made) settled where
  posted_le := by
    have := orderly.posted_le
    show pipeline.posted ≤ (pipeline.calls ++ [(made, none)]).length
    rw [List.length_append]
    omega
  settled_le := orderly.settled_le
  promises := by
    intro number entry found
    rcases getElem?_concat_cases found with before | ⟨rfl, rfl⟩
    · exact orderly.promises number entry before
    · have := orderly.length_ids
      have := orderly.posted_le
      rw [if_neg (by omega)]
  answers := orderly.answers
  requests := by
    have := orderly.posted_le
    rw [CallPipeline.call, List.map_append,
      List.take_append_of_le_length (by rwa [List.length_map])]
    exact orderly.requests
  permitted := orderly.permitted
  distinct := orderly.distinct
  pending := orderly.pending

theorem post (orderly : Orderly answer settlement allowed pipeline settled) {made : Call}
    {promise : Option Promise} {id : Id}
    (next : pipeline.calls[pipeline.posted]? = some (made, promise))
    (fresh : pipeline.pending[id]? = none) :
    Orderly answer settlement allowed (pipeline.post made id) settled := by
  have unused : id ∉ pipeline.ids := orderly.pending.getElem?_eq_none.mp fresh
  have grown : (pipeline.post made id).ids = pipeline.ids ++ [id] := by
    simp [ids, CallPipeline.post, List.append_assoc]
  exact {
    posted_le := (List.getElem?_eq_some_iff.mp next).1
    settled_le := orderly.settled_le
    promises := orderly.promises
    answers := orderly.answers
    requests := by
      have named : (pipeline.calls.map Prod.fst)[pipeline.posted]? = some made := by
        rw [List.getElem?_map, next]
        rfl
      rw [CallPipeline.post, List.map_append, ← List.append_assoc, orderly.requests,
        List.take_add_one, named]
      rfl
    permitted := orderly.permitted
    distinct := by
      rw [grown]
      exact List.nodup_append.mpr ⟨orderly.distinct, List.nodup_singleton id, by
        intro first member second last
        rw [List.mem_singleton.mp last]
        exact fun equal => unused (equal ▸ member)⟩
    pending := by
      rw [grown]
      have numbered := orderly.pending.insert unused
      rwa [orderly.length_ids] at numbered }

theorem serve (orderly : Orderly answer settlement allowed pipeline settled) {made : Call}
    {id : Id} {rest : List (Call × Id)} {served : Served}
    (next : pipeline.requests = (made, id) :: rest) (permitted : allowed made served) :
    Orderly answer settlement allowed (pipeline.serve answer made id rest served) settled := by
  have same : (pipeline.serve answer made id rest served).ids = pipeline.ids := by
    simp [ids, CallPipeline.serve, next, List.append_assoc]
  exact {
    posted_le := orderly.posted_le
    settled_le := by
      have := orderly.settled_le
      rw [CallPipeline.serve, List.length_append]
      omega
    promises := by
      intro number entry found
      rw [orderly.promises number entry found]
      split
      · rename_i early
        have := orderly.settled_le
        rw [CallPipeline.serve, List.getElem?_append_left (by omega)]
      · rfl
    answers := by
      rw [CallPipeline.serve, List.drop_append_of_le_length orderly.settled_le, List.map_append,
        List.map_append, orderly.answers]
      rfl
    requests := by
      have requests := orderly.requests
      rw [next] at requests
      rw [CallPipeline.serve, ← requests, List.map_append, List.append_assoc]
      rfl
    permitted := by
      intro entry member
      rcases List.mem_append.mp member with earlier | last
      · exact orderly.permitted entry earlier
      · rw [List.mem_singleton.mp last]
        exact permitted
    distinct := by
      rw [same]
      exact orderly.distinct
    pending := by
      rw [same]
      exact orderly.pending }

/-- The next answer is that of the next call. -/
theorem next_served (orderly : Orderly answer settlement allowed pipeline settled) {id : Id}
    {given : Answer} {rest : List (Id × Answer)} (next : pipeline.answers = (id, given) :: rest) :
    ∃ entry, pipeline.served[settled]? = some entry ∧ given = answer entry.2 ∧
      rest.map Prod.snd = (pipeline.served.drop (settled + 1)).map fun entry => answer entry.2 := by
  have answers := orderly.answers
  have bound : settled < pipeline.served.length := by
    have := orderly.length_answers
    rw [next, List.length_cons] at this
    omega
  rw [next, List.drop_eq_getElem_cons bound, List.map_cons, List.map_cons] at answers
  obtain ⟨head, tail⟩ := List.cons_eq_cons.mp answers
  exact ⟨pipeline.served[settled], List.getElem?_eq_getElem bound, head, tail⟩

theorem settle (orderly : Orderly answer settlement allowed pipeline settled) {id : Id}
    {given : Answer} {rest : List (Id × Answer)} {number : ℕ}
    (next : pipeline.answers = (id, given) :: rest)
    (found : pipeline.pending[id]? = some number) :
    Orderly answer settlement allowed (pipeline.settle settlement id given rest number)
      (settled + 1) := by
  have split : pipeline.ids = id :: (pipeline.settle settlement id given rest number).ids := by
    simp [ids, CallPipeline.settle, next]
  have distinct := orderly.distinct
  have pending := orderly.pending
  rw [split] at distinct pending
  have numbered : number = settled := by
    rw [pending.head] at found
    exact (Option.some_inj.mp found).symm
  subst numbered
  obtain ⟨entry, at_entry, rfl, others⟩ := orderly.next_served next
  exact {
    posted_le := by
      rw [CallPipeline.settle, List.length_modify]
      exact orderly.posted_le
    settled_le := (List.getElem?_eq_some_iff.mp at_entry).1
    promises := by
      intro place made at_place
      obtain ⟨before, at_before, changed⟩ := getElem?_modify_cases at_place
      have promised := orderly.promises place before at_before
      rw [CallPipeline.settle]
      rcases changed with ⟨rfl, rfl⟩ | ⟨elsewhere, rfl⟩
      · rw [if_neg (lt_irrefl _)] at promised
        simp [promised, at_entry]
      · rw [promised]
        by_cases early : place < number
        · rw [if_pos early, if_pos (by omega)]
        · rw [if_neg early, if_neg (by omega)]
    answers := others
    requests := by
      -- What a call is settled with does not change the call.
      rw [CallPipeline.settle, map_modify Prod.fst]
      · exact orderly.requests
      · exact fun made => rfl
    permitted := orderly.permitted
    distinct := distinct.of_cons
    pending := pending.erase (List.nodup_cons.mp distinct).1 }

/-- Every step keeps the calls in order. -/
theorem step (orderly : Orderly answer settlement allowed pipeline settled)
    {next : CallPipeline Call Served Answer Promise Id}
    (stepped : Step answer settlement allowed pipeline next) :
    ∃ settled, Orderly answer settlement allowed next settled := by
  cases stepped with
  | call made => exact ⟨settled, orderly.call made⟩
  | post made promise id next fresh => exact ⟨settled, orderly.post next fresh⟩
  | serve made id rest served next permitted => exact ⟨settled, orderly.serve next permitted⟩
  | settle id given rest number next found => exact ⟨settled + 1, orderly.settle next found⟩

/-- So do all steps of a run. -/
theorem steps (orderly : ∃ settled, Orderly answer settlement allowed pipeline settled)
    {next : CallPipeline Call Served Answer Promise Id}
    (stepped : Relation.ReflTransGen (Step answer settlement allowed) pipeline next) :
    ∃ settled, Orderly answer settlement allowed next settled := by
  induction stepped with
  | refl => exact orderly
  | tail _ last inductionHypothesis =>
    obtain ⟨settled, orderly⟩ := inductionHypothesis
    exact orderly.step last

end Orderly

/-! ### What callers see -/

/-- The calls that are served are those made first, each of them once and as its kind permits;
a call is settled with its own answer, and not before an earlier one; a posted call that is not
settled is pending, and is settled once nothing is under way any more. -/
structure InTurn (pipeline : CallPipeline Call Served Answer Promise Id) : Prop where
  served : pipeline.served.map Prod.fst <+: pipeline.calls.map Prod.fst
  permitted : ∀ entry ∈ pipeline.served, allowed entry.1 entry.2
  settled : ∀ (number : ℕ) made promise, pipeline.calls[number]? = some (made, some promise) →
    ∃ served, pipeline.served[number]? = some (made, served) ∧
      promise = settlement (answer served)
  inOrder : ∀ (earlier later : ℕ) made promise settled, earlier < later →
    pipeline.calls[later]? = some settled → settled.2 ≠ none →
    pipeline.calls[earlier]? = some (made, promise) → promise ≠ none
  awaited : ∀ (number : ℕ) made, number < pipeline.posted →
    pipeline.calls[number]? = some (made, none) → ∃ id : Id, pipeline.pending[id]? = some number
  complete : pipeline.answers = [] → pipeline.requests = [] →
    ∀ (number : ℕ) made promise, number < pipeline.posted →
      pipeline.calls[number]? = some (made, promise) → promise ≠ none

namespace Orderly

variable {answer settlement allowed}
  {pipeline : CallPipeline Call Served Answer Promise Id} {settled : ℕ}

/-- Exactly the first calls are settled. -/
theorem settled_iff (orderly : Orderly answer settlement allowed pipeline settled) {number : ℕ}
    {made : Call × Option Promise} (found : pipeline.calls[number]? = some made) :
    made.2 ≠ none ↔ number < settled := by
  rw [orderly.promises number made found]
  constructor
  · intro promised
    by_contra late
    exact promised (if_neg late)
  · intro early
    have bound := lt_of_lt_of_le early orderly.settled_le
    rw [if_pos early, List.getElem?_eq_getElem bound]
    simp

theorem inTurn (orderly : Orderly answer settlement allowed pipeline settled) :
    InTurn answer settlement allowed pipeline where
  served := by
    refine (List.prefix_append _ (pipeline.requests.map Prod.fst)).trans ?_
    rw [orderly.requests]
    exact List.take_prefix _ _
  permitted := orderly.permitted
  settled := by
    intro number made promise found
    have early : number < settled := (orderly.settled_iff found).mp (Option.some_ne_none promise)
    have bound := lt_of_lt_of_le early orderly.settled_le
    have promised := orderly.promises number _ found
    rw [if_pos early, List.getElem?_eq_getElem bound, Option.map_some, Option.some_inj] at promised
    refine ⟨pipeline.served[number].2, ?_, promised⟩
    -- The call that was served is the one that was made.
    have requests := congrArg (fun list => list[number]?) orderly.requests
    have posted := orderly.length_requests
    rw [List.getElem?_append_left (by rwa [List.length_map]), List.getElem?_take,
      if_pos (by omega), List.getElem?_map, List.getElem?_map, found,
      List.getElem?_eq_getElem bound, Option.map_some, Option.map_some, Option.some_inj] at requests
    exact (List.getElem?_eq_getElem bound).trans (congrArg some (Prod.ext requests rfl))
  inOrder := by
    intro earlier later made promise settled before found promised at_earlier
    have early := (orderly.settled_iff found).mp promised
    exact (orderly.settled_iff at_earlier).mpr (before.trans early)
  awaited := by
    intro number made posted found
    have late : ¬number < settled := fun early => (orderly.settled_iff found).mpr early rfl
    have bound : number - settled < pipeline.ids.length := by
      have := orderly.length_ids
      omega
    refine ⟨pipeline.ids[number - settled], (orderly.pending _ number).mpr ?_⟩
    exact ⟨number - settled, List.getElem?_eq_getElem bound, by omega⟩
  complete := by
    intro answers requests number made promise posted found
    have lengths := orderly.length_ids
    rw [ids, answers, requests, List.map_nil, List.map_nil, List.append_nil, List.length_nil]
      at lengths
    exact (orderly.settled_iff found).mpr (by omega)

/-- A call that is posted under an id that another call is pending under takes the answer of the
other call away from it. -/
theorem not_inTurn_post (orderly : Orderly answer settlement allowed pipeline settled)
    (made : Call) {id : Id} (used : pipeline.pending[id]? ≠ none) :
    ¬InTurn answer settlement allowed (pipeline.post made id) := by
  intro inTurn
  have member : id ∈ pipeline.ids := by
    by_contra fresh
    exact used (orderly.pending.getElem?_eq_none.mpr fresh)
  obtain ⟨position, bound, lost⟩ := orderly.pending.overwritten member
  rw [orderly.length_ids] at lost
  have posted := orderly.length_ids
  have counted : settled + position < pipeline.calls.length := by
    have := orderly.posted_le
    omega
  have found := List.getElem?_eq_getElem counted
  have open_call : pipeline.calls[settled + position].2 = none := by
    by_contra promised
    have := (orderly.settled_iff found).mp promised
    omega
  obtain ⟨other, numbered⟩ := inTurn.awaited (settled + position)
    pipeline.calls[settled + position].1
    (lt_of_lt_of_le (by omega) (Nat.le_succ pipeline.posted)) (by
      rw [← open_call]
      exact found)
  exact lost other numbered

end Orderly

end Steps

end CallPipeline
