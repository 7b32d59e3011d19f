/-
This file says when the client gets all nullifiers of a range of blocks
(`sync_nullifiers` in `rust-client/src/rpc/tonic_client/mod.rs`).

The prefixes are sent in chunks, and the range of each chunk is answered page by page. A page
with pagination data ends the loop or moves it on. A page without such data is the whole rest of
the range, but the loop asks for the same range again.
-/

import MidenClient.Rpc.HarmlessAnswers

namespace MidenClient

open Panicking Fallible

namespace NodeCalls

/-! ### Honest answers -/

/-- The last block of a range when the chain ends at a tip. -/
def rangeEnd (blockTo : Option UInt32) (tip : UInt32) : UInt32 :=
  blockTo.elim tip fun bound => min bound tip

/-- The updates of the chain with one of the prefixes, in blocks from the first to the last one. -/
def InRange (prefixOf : Nullifier → UInt16) (history : NullifierUpdate → Prop)
    (prefixes : List UInt16) (first last : UInt32) (update : NullifierUpdate) : Prop :=
  history update ∧ prefixOf update.nullifier ∈ prefixes ∧
    first.toNat ≤ update.blockNum ∧ update.blockNum ≤ last.toNat

/-- The response covers the requested range up to a last block, and has the updates up to there.
Without pagination data it covers the whole range. -/
structure HonestPage (prefixOf : Nullifier → UInt16) (history : NullifierUpdate → Prop)
    (tip : UInt32) (request : NullifierRequest) (response : Proto.SyncNullifiersResponse)
    (batch : List NullifierUpdate) (last : UInt32) : Prop where
  converts : nullifierBatch response.nullifiers = .ok batch
  notEmpty : request.blockFrom ≤ last
  inRange : last ≤ rangeEnd request.blockTo tip
  updates : ∀ update, update ∈ batch ↔
    InRange prefixOf history request.prefixes request.blockFrom last update
  pagination : ∀ page, response.paginationInfo = some page →
    page.blockNum = last ∧ page.chainTip = tip
  complete : response.paginationInfo = none → last = rangeEnd request.blockTo tip

/-- Every request for a range with a block in it is answered by a page. The chain only grows. -/
structure ServesNullifiers (answers : Answers NullifierRequest Proto.SyncNullifiersResponse)
    (prefixOf : Nullifier → UInt16) (history : NullifierUpdate → Prop) (tip : ℕ → UInt32) :
    Prop where
  grows : ∀ earlier later, earlier ≤ later → tip earlier ≤ tip later
  answered : ∀ number request, request.blockFrom ≤ rangeEnd request.blockTo (tip number) →
    ∃ response batch last, answers number request = .ok response ∧
      HonestPage prefixOf history (tip number) request response batch last

theorem rangeEnd_mono (blockTo : Option UInt32) {tip later : UInt32} (grown : tip ≤ later) :
    rangeEnd blockTo tip ≤ rangeEnd blockTo later := by
  cases blockTo with
  | none => exact grown
  | some bound =>
    show (if bound ≤ tip then bound else tip) ≤ if bound ≤ later then bound else later
    simp only [UInt32.le_iff_toNat_le] at grown ⊢
    split
    · split
      · exact le_rfl
      · omega
    · split
      · omega
      · exact grown

variable {prefixOf : Nullifier → UInt16} {history : NullifierUpdate → Prop}
  {prefixes chunk : List UInt16} {first middle last : UInt32} {update : NullifierUpdate}

theorem InRange.of_le {wider : UInt32} (within : InRange prefixOf history chunk first last update)
    (grown : last ≤ wider) : InRange prefixOf history chunk first wider update := by
  obtain ⟨known, matched, after, before⟩ := within
  exact ⟨known, matched, after, before.trans (UInt32.le_iff_toNat_le.mp grown)⟩

/-- A block number below another one can be incremented. -/
theorem toNat_add_one {number bound : UInt32} (below : number < bound) :
    (number + 1).toNat = number.toNat + 1 := by
  have range := bound.toNat_lt
  rw [UInt32.lt_iff_toNat_lt] at below
  rw [UInt32.toNat_add]
  exact Nat.mod_eq_of_lt (by show number.toNat + 1 < _; omega)

theorem add_one_le {number bound : UInt32} (below : number < bound) : number + 1 ≤ bound := by
  rw [UInt32.le_iff_toNat_le, toNat_add_one below]
  exact UInt32.lt_iff_toNat_lt.mp below

/-- Two adjacent ranges are one. -/
theorem inRange_append (split : first ≤ middle) (before : middle < last) :
    InRange prefixOf history chunk first middle update ∨
        InRange prefixOf history chunk (middle + 1) last update ↔
      InRange prefixOf history chunk first last update := by
  unfold InRange
  rw [toNat_add_one before]
  rw [UInt32.le_iff_toNat_le] at split
  rw [UInt32.lt_iff_toNat_lt] at before
  constructor
  · rintro (⟨known, matched, after, within⟩ | ⟨known, matched, after, within⟩)
    · exact ⟨known, matched, after, within.trans before.le⟩
    · exact ⟨known, matched, split.trans (Nat.le_of_succ_le after), within⟩
  · rintro ⟨known, matched, after, within⟩
    rcases Nat.lt_or_ge middle.toNat update.blockNum with later | earlier
    · exact Or.inr ⟨known, matched, later, within⟩
    · exact Or.inl ⟨known, matched, after, earlier⟩

/-! ### One chunk -/

section Chunk

variable (answers : Answers NullifierRequest Proto.SyncNullifiersResponse) (blockTo : Option UInt32)

/-- Within some requests a chunk is answered up to the end of the range by a page with pagination
data. The number is that of the request after this page. -/
def endsAt (chunk : List UInt16) : ℕ → ℕ → UInt32 → Option ℕ
  | 0, _, _ => none
  | iterations + 1, number, blockFrom =>
    match answers number ⟨chunk, blockFrom, blockTo⟩ with
    | .error _ => none
    | .ok response =>
      match response.paginationInfo with
      | none => endsAt chunk iterations (number + 1) blockFrom
      | some page =>
        if rangeEnd blockTo page.chainTip ≤ page.blockNum then some (number + 1)
        else endsAt chunk iterations (number + 1) (page.blockNum + 1)

/-- Within some requests a chunk is answered up to the end of the range, with or without pagination
data in the last page. -/
def Completes (chunk : List UInt16) : ℕ → ℕ → UInt32 → Prop
  | 0, _, _ => False
  | iterations + 1, number, blockFrom =>
    match answers number ⟨chunk, blockFrom, blockTo⟩ with
    | .error _ => False
    | .ok response =>
      match response.paginationInfo with
      | none => True
      | some page => rangeEnd blockTo page.chainTip ≤ page.blockNum ∨
          Completes chunk iterations (number + 1) (page.blockNum + 1)

end Chunk

variable {answers : Answers NullifierRequest Proto.SyncNullifiersResponse} {blockTo : Option UInt32}
  {build : BuildTarget} {tip : ℕ → UInt32} {iterations number next : ℕ} {blockFrom : UInt32}
  {collected : List NullifierUpdate}

/-- How the loop goes on after an answer that reaches a last block. -/
inductive PageStep (answers : Answers NullifierRequest Proto.SyncNullifiersResponse)
    (blockTo : Option UInt32) (build : BuildTarget) (chunk : List UInt16) (target : UInt32)
    (number : ℕ) (blockFrom : UInt32) (batch : List NullifierUpdate) (last : UInt32) : Prop
  /-- The answer has no pagination data, and its range is asked for again. -/
  | again (atEnd : last = target)
      (pages : ∀ iterations collected,
        nullifierPages build answers chunk blockTo (iterations + 1) number blockFrom collected =
          nullifierPages build answers chunk blockTo iterations (number + 1) blockFrom
            (collected ++ batch))
      (ends : ∀ iterations, endsAt answers blockTo chunk (iterations + 1) number blockFrom =
        endsAt answers blockTo chunk iterations (number + 1) blockFrom)
      (completes : ∀ iterations,
        Completes answers blockTo chunk (iterations + 1) number blockFrom)
  | final (atEnd : last = target)
      (pages : ∀ iterations collected,
        nullifierPages build answers chunk blockTo (iterations + 1) number blockFrom collected =
          .ok (number + 1, collected ++ batch))
      (ends : ∀ iterations, endsAt answers blockTo chunk (iterations + 1) number blockFrom =
        some (number + 1))
  | more (before : last < target)
      (pages : ∀ iterations collected,
        nullifierPages build answers chunk blockTo (iterations + 1) number blockFrom collected =
          nullifierPages build answers chunk blockTo iterations (number + 1) (last + 1)
            (collected ++ batch))
      (ends : ∀ iterations, endsAt answers blockTo chunk (iterations + 1) number blockFrom =
        endsAt answers blockTo chunk iterations (number + 1) (last + 1))
      (completes : ∀ iterations,
        Completes answers blockTo chunk (iterations + 1) number blockFrom ↔
          Completes answers blockTo chunk iterations (number + 1) (last + 1))

theorem nextPage_of_atEnd {page : Proto.PaginationInfo} (forward : ¬page.blockNum < blockFrom)
    (atEnd : rangeEnd blockTo page.chainTip ≤ page.blockNum) :
    nextPage build blockFrom blockTo (some page) = .ok none := by
  unfold nextPage
  dsimp only
  rw [if_neg forward]
  exact if_pos atEnd

theorem nextPage_of_before {page : Proto.PaginationInfo} (forward : ¬page.blockNum < blockFrom)
    (before : page.blockNum < rangeEnd blockTo page.chainTip) :
    nextPage build blockFrom blockTo (some page) = .ok (some (page.blockNum + 1)) := by
  unfold nextPage
  dsimp only
  rw [if_neg forward]
  refine (if_neg (UInt32.not_le.mpr before)).trans ?_
  rw [increment_of_lt before]
  rfl

/-- A round of the loop whose answer converts. -/
theorem nullifierPages_succ (build : BuildTarget) {response : Proto.SyncNullifiersResponse}
    {batch : List NullifierUpdate}
    (answered : answers number ⟨chunk, blockFrom, blockTo⟩ = .ok response)
    (converts : nullifierBatch response.nullifiers = .ok batch) (iterations : ℕ)
    (collected : List NullifierUpdate) :
    nullifierPages build answers chunk blockTo (iterations + 1) number blockFrom collected =
      (nextPage build blockFrom blockTo response.paginationInfo >>= fun
        | some next => nullifierPages build answers chunk blockTo iterations (number + 1) next
            (collected ++ batch)
        | none => return (number + 1, collected ++ batch)) := by
  rw [nullifierPages, answered]
  show (fallible (nullifierBatch response.nullifiers) >>= _) = _
  rw [converts]
  rfl

/-- What one honest answer does. -/
theorem pageStep (serves : ServesNullifiers answers prefixOf history tip)
    (within : blockFrom ≤ rangeEnd blockTo (tip number)) (build : BuildTarget)
    (chunk : List UInt16) :
    ∃ batch last, blockFrom ≤ last ∧ last ≤ rangeEnd blockTo (tip number) ∧
      (∀ update, update ∈ batch ↔ InRange prefixOf history chunk blockFrom last update) ∧
      PageStep answers blockTo build chunk (rangeEnd blockTo (tip number)) number blockFrom batch
        last := by
  obtain ⟨response, batch, last, answered, honest⟩ :=
    serves.answered number ⟨chunk, blockFrom, blockTo⟩ within
  refine ⟨batch, last, honest.notEmpty, honest.inRange, honest.updates, ?_⟩
  have unrolled := nullifierPages_succ build answered honest.converts
  cases info : response.paginationInfo with
  | none =>
    refine .again (honest.complete info) (fun iterations collected => ?_) (fun iterations => ?_)
      fun iterations => ?_
    · rw [unrolled, info]
      rfl
    · rw [endsAt, answered]
      dsimp only
      rw [info]
    · rw [Completes, answered]
      dsimp only
      rw [info]
      trivial
  | some page =>
    obtain ⟨blockNum, chainTip⟩ := honest.pagination page info
    have forward : ¬page.blockNum < blockFrom := by
      rw [blockNum, UInt32.not_lt]
      exact honest.notEmpty
    by_cases atEnd : rangeEnd blockTo page.chainTip ≤ page.blockNum
    · refine .final (UInt32.le_antisymm honest.inRange ?_) (fun iterations collected => ?_)
        fun iterations => ?_
      · rwa [chainTip, blockNum] at atEnd
      · rw [unrolled, info, nextPage_of_atEnd forward atEnd]
        rfl
      · rw [endsAt, answered]
        dsimp only
        rw [info]
        dsimp only
        rw [if_pos atEnd]
    · have before := UInt32.not_le.mp atEnd
      refine .more ?_ (fun iterations collected => ?_) (fun iterations => ?_) fun iterations => ?_
      · rwa [chainTip, blockNum] at before
      · rw [unrolled, info, nextPage_of_before forward before, blockNum]
        rfl
      · rw [endsAt, answered]
        dsimp only
        rw [info]
        dsimp only
        rw [if_neg atEnd, blockNum]
      · rw [Completes, answered]
        dsimp only
        rw [info]
        dsimp only
        rw [or_iff_right atEnd, blockNum]

/-- A chunk that is not ended within its requests is an error. -/
theorem nullifierPages_of_open (serves : ServesNullifiers answers prefixOf history tip)
    (within : blockFrom ≤ rangeEnd blockTo (tip number))
    (open_ : endsAt answers blockTo chunk iterations number blockFrom = none) :
    nullifierPages build answers chunk blockTo iterations number blockFrom collected =
      .error (.error (.paginationError
        "too many pagination iterations, possible infinite loop")) := by
  induction iterations generalizing number blockFrom collected with
  | zero => rfl
  | succ iterations inductionHypothesis =>
    have grown := rangeEnd_mono blockTo (serves.grows number (number + 1) (Nat.le_succ number))
    obtain ⟨batch, last, -, -, -, step⟩ := pageStep serves within build chunk
    cases step with
    | again _ pages ends _ =>
      rw [pages]
      exact inductionHypothesis (UInt32.le_trans within grown) ((ends iterations).symm.trans open_)
    | final _ _ ends => cases (ends iterations).symm.trans open_
    | more before pages ends _ =>
      rw [pages]
      refine inductionHypothesis ?_ ((ends iterations).symm.trans open_)
      exact UInt32.le_trans (add_one_le before) grown

/-- A chunk that ends within its requests has the updates up to the end of its range, at a tip
between the first and the last request. -/
theorem nullifierPages_of_ends (serves : ServesNullifiers answers prefixOf history tip)
    (within : blockFrom ≤ rangeEnd blockTo (tip number))
    (ends : endsAt answers blockTo chunk iterations number blockFrom = some next) :
    number < next ∧ ∃ result last,
      nullifierPages build answers chunk blockTo iterations number blockFrom collected =
        .ok (next, result) ∧
      rangeEnd blockTo (tip number) ≤ last ∧ last ≤ rangeEnd blockTo (tip next) ∧
      ∀ update, update ∈ result ↔
        update ∈ collected ∨ InRange prefixOf history chunk blockFrom last update := by
  induction iterations generalizing number blockFrom collected with
  | zero => cases ends
  | succ iterations inductionHypothesis =>
    have grown := rangeEnd_mono blockTo (serves.grows number (number + 1) (Nat.le_succ number))
    obtain ⟨batch, reached, notEmpty, inRange, listed, step⟩ := pageStep serves within build chunk
    cases step with
    | again atEnd pages endsAgain _ =>
      obtain ⟨later, result, last, run, covered, bounded, members⟩ :=
        @inductionHypothesis (number + 1) blockFrom (collected ++ batch)
          (UInt32.le_trans within grown) ((endsAgain iterations).symm.trans ends)
      refine ⟨Nat.lt_of_succ_lt later, result, last, (pages iterations collected).trans run,
        UInt32.le_trans grown covered, bounded, fun update => ?_⟩
      rw [members, List.mem_append, listed, or_assoc]
      refine or_congr_right (or_iff_right_of_imp fun early => early.of_le ?_)
      exact atEnd ▸ UInt32.le_trans grown covered
    | final atEnd pages endsHere =>
      cases (endsHere iterations).symm.trans ends
      refine ⟨Nat.lt_succ_self number, collected ++ batch, reached, pages iterations collected,
        atEnd ▸ UInt32.le_refl _, atEnd ▸ grown, fun update => ?_⟩
      rw [List.mem_append, listed]
    | more before pages endsLater _ =>
      obtain ⟨later, result, last, run, covered, bounded, members⟩ :=
        @inductionHypothesis (number + 1) (reached + 1) (collected ++ batch)
          (UInt32.le_trans (add_one_le before) grown) ((endsLater iterations).symm.trans ends)
      have wider := UInt32.le_trans grown covered
      refine ⟨Nat.lt_of_succ_lt later, result, last, (pages iterations collected).trans run, wider,
        bounded, fun update => ?_⟩
      rw [members, List.mem_append, listed, or_assoc,
        inRange_append notEmpty (UInt32.lt_of_lt_of_le before wider)]

/-! ### All chunks -/

/-- Every chunk is ended by a page with pagination data, one chunk after the other. -/
def AllEnd (answers : Answers NullifierRequest Proto.SyncNullifiersResponse)
    (blockTo : Option UInt32) (blockNum : UInt32) : List (List UInt16) → ℕ → Prop
  | [], _ => True
  | chunk :: rest, number =>
    match endsAt answers blockTo chunk maxIterations number blockNum with
    | none => False
    | some next => AllEnd answers blockTo blockNum rest next

/-- No chunk needs more pages than the limit, as far as the chunks are reached. -/
def AllComplete (answers : Answers NullifierRequest Proto.SyncNullifiersResponse)
    (blockTo : Option UInt32) (blockNum : UInt32) : List (List UInt16) → ℕ → Prop
  | [], _ => True
  | chunk :: rest, number =>
    Completes answers blockTo chunk maxIterations number blockNum ∧
      ∀ next, endsAt answers blockTo chunk maxIterations number blockNum = some next →
        AllComplete answers blockTo blockNum rest next

/-- The loop over the chunks. -/
def chunkPages (build : BuildTarget)
    (answers : Answers NullifierRequest Proto.SyncNullifiersResponse) (blockNum : UInt32)
    (blockTo : Option UInt32) (chunks : List (List UInt16)) (progress : ℕ × List NullifierUpdate) :
    Except (Failure NodeError) (ℕ × List NullifierUpdate) :=
  chunks.foldlM (fun progress chunk => nullifierPages build answers chunk blockTo maxIterations
    progress.1 blockNum progress.2) progress

variable {blockNum : UInt32} {chunks : List (List UInt16)}

theorem allEnd_cons_iff :
    AllEnd answers blockTo blockNum (chunk :: chunks) number ↔
      ∃ next, endsAt answers blockTo chunk maxIterations number blockNum = some next ∧
        AllEnd answers blockTo blockNum chunks next := by
  rw [AllEnd]
  cases endsAt answers blockTo chunk maxIterations number blockNum with
  | none => simp
  | some next => simp

theorem chunkPages_of_open (serves : ServesNullifiers answers prefixOf history tip)
    (within : blockNum ≤ rangeEnd blockTo (tip number))
    (open_ : ¬AllEnd answers blockTo blockNum chunks number) :
    chunkPages build answers blockNum blockTo chunks (number, collected) =
      .error (.error (.paginationError
        "too many pagination iterations, possible infinite loop")) := by
  induction chunks generalizing number collected with
  | nil => exact absurd trivial open_
  | cons chunk rest inductionHypothesis =>
    unfold chunkPages at inductionHypothesis ⊢
    rw [List.foldlM_cons]
    rw [allEnd_cons_iff] at open_
    cases ends : endsAt answers blockTo chunk maxIterations number blockNum with
    | none =>
      rw [nullifierPages_of_open serves within ends]
      rfl
    | some next =>
      obtain ⟨later, result, last, run, -, -, -⟩ :=
        @nullifierPages_of_ends prefixOf history chunk answers blockTo build tip maxIterations
          number next blockNum collected serves within ends
      rw [run]
      have grown := rangeEnd_mono blockTo (serves.grows number next later.le)
      exact inductionHypothesis (UInt32.le_trans within grown) fun rest => open_ ⟨next, ends, rest⟩

/-- When all chunks end, they have the updates up to the ends of their ranges. -/
theorem chunkPages_of_ends (serves : ServesNullifiers answers prefixOf history tip)
    (within : blockNum ≤ rangeEnd blockTo (tip number))
    (ends : AllEnd answers blockTo blockNum chunks number) :
    ∃ next result, ∃ lasts : List (List UInt16 × UInt32), lasts.map Prod.fst = chunks ∧
      number ≤ next ∧
      chunkPages build answers blockNum blockTo chunks (number, collected) = .ok (next, result) ∧
      (∀ entry ∈ lasts, rangeEnd blockTo (tip number) ≤ entry.2 ∧
        entry.2 ≤ rangeEnd blockTo (tip next)) ∧
      ∀ update, update ∈ result ↔ update ∈ collected ∨
        ∃ entry ∈ lasts, InRange prefixOf history entry.1 blockNum entry.2 update := by
  induction chunks generalizing number collected with
  | nil =>
    refine ⟨number, collected, [], rfl, le_rfl, rfl, fun _ absent => (nomatch absent),
      fun update => ?_⟩
    simp
  | cons chunk rest inductionHypothesis =>
    obtain ⟨middle, here, ends⟩ := allEnd_cons_iff.mp ends
    obtain ⟨later, found, last, run, covered, bounded, members⟩ :=
      @nullifierPages_of_ends prefixOf history chunk answers blockTo build tip maxIterations
        number middle blockNum collected serves within here
    have grown := rangeEnd_mono blockTo (serves.grows number middle later.le)
    obtain ⟨next, result, lasts, names, after, runRest, spans, membersRest⟩ :=
      @inductionHypothesis middle found (UInt32.le_trans within grown) ends
    have grownRest := rangeEnd_mono blockTo (serves.grows middle next after)
    refine ⟨next, result, (chunk, last) :: lasts, by rw [List.map_cons, names],
      later.le.trans after, ?_, ?_, fun update => ?_⟩
    · unfold chunkPages at runRest ⊢
      rw [List.foldlM_cons, run]
      exact runRest
    · intro entry listed
      rcases List.mem_cons.mp listed with rfl | listed
      · exact ⟨covered, UInt32.le_trans bounded grownRest⟩
      · exact ⟨UInt32.le_trans grown (spans entry listed).1, (spans entry listed).2⟩
    · rw [membersRest, members, or_assoc]
      simp only [List.mem_cons, exists_eq_or_imp]

/-- A prefix that is asked for is covered up to the last of the ends of its chunks. -/
theorem exists_covered {low high : UInt32} (spanned : low ≤ high)
    {lasts : List (List UInt16 × UInt32)}
    (spans : ∀ entry ∈ lasts, low ≤ entry.2 ∧ entry.2 ≤ high) (asked : UInt16) :
    ∃ covered, low ≤ covered ∧ covered ≤ high ∧ ∀ block : ℕ,
      (∃ entry ∈ lasts, asked ∈ entry.1 ∧ block ≤ entry.2.toNat) ↔
        (∃ entry ∈ lasts, asked ∈ entry.1) ∧ block ≤ covered.toNat := by
  induction lasts with
  | nil => exact ⟨low, UInt32.le_refl low, spanned, fun block => by simp⟩
  | cons entry rest inductionHypothesis =>
    obtain ⟨covered, lower, upper, members⟩ :=
      inductionHypothesis fun other listed => spans other (List.mem_cons_of_mem entry listed)
    obtain ⟨entryLower, entryUpper⟩ := spans entry List.mem_cons_self
    simp only [List.mem_cons, exists_eq_or_imp, members]
    by_cases here : asked ∈ entry.1
    · by_cases there : ∃ other ∈ rest, asked ∈ other.1
      · rcases UInt32.le_total covered entry.2 with below | above
        · refine ⟨entry.2, entryLower, entryUpper, fun block => ?_⟩
          have within := UInt32.le_iff_toNat_le.mp below
          simp only [here, there, true_and, or_self]
          omega
        · refine ⟨covered, lower, upper, fun block => ?_⟩
          have within := UInt32.le_iff_toNat_le.mp above
          simp only [here, there, true_and, or_self]
          omega
      · exact ⟨entry.2, entryLower, entryUpper, fun block => by simp [here, there]⟩
    · exact ⟨covered, lower, upper, fun block => by simp [here]⟩

theorem flatten_toChunks_go {α : Type} (size : ℕ) (items : List α) (chunk : Array α)
    (done : Array (List α)) :
    (List.toChunks.go size items chunk done).flatten =
      done.toList.flatten ++ chunk.toList ++ items := by
  induction items generalizing chunk done with
  | nil => simp [List.toChunks.go]
  | cons item rest inductionHypothesis =>
    unfold List.toChunks.go
    split
    · rw [inductionHypothesis]
      simp
    · rw [inductionHypothesis]
      simp

/-- The chunks hold the items of the list. -/
theorem flatten_toChunks {α : Type} (size : ℕ) (items : List α) :
    (items.toChunks size).flatten = items := by
  unfold List.toChunks
  split
  · rfl
  · exact List.append_nil _
  · rw [flatten_toChunks_go]
    rfl

theorem mem_sortedUpdates (updates : List NullifierUpdate) (update : NullifierUpdate) :
    update ∈ sortedUpdates updates ↔ update ∈ updates := by
  unfold sortedUpdates
  simp only [List.mem_map, (List.mergeSort_perm _ _).mem_iff, List.mem_dedup]
  constructor
  · rintro ⟨pair, ⟨other, listed, rfl⟩, rfl⟩
    exact listed
  · exact fun listed => ⟨_, ⟨update, listed, rfl⟩, rfl⟩

theorem nodup_sortedUpdates (updates : List NullifierUpdate) : (sortedUpdates updates).Nodup := by
  refine List.Nodup.map ?_ ((List.mergeSort_perm _ _).nodup_iff.mpr (List.nodup_dedup _))
  intro first second same
  obtain ⟨nullifier, blockNum⟩ := NullifierUpdate.mk.inj same
  exact ofLex.injective (Prod.ext nullifier blockNum)

/-- The updates of the chain with one of the prefixes, each once, in blocks up to the end of the
range. When the chain grows between the requests, the end is that at one of them. -/
structure ExactUpdates (prefixOf : Nullifier → UInt16) (history : NullifierUpdate → Prop)
    (tip : ℕ → UInt32) (prefixes : List UInt16) (blockNum : UInt32) (blockTo : Option UInt32)
    (updates : List NullifierUpdate) : Prop where
  nodup : updates.Nodup
  exact_ : ∃ (number : ℕ) (covered : UInt16 → UInt32),
    (∀ asked, rangeEnd blockTo (tip 0) ≤ covered asked ∧
      covered asked ≤ rangeEnd blockTo (tip number)) ∧
    ∀ update, update ∈ updates ↔ InRange prefixOf history prefixes blockNum
      (covered (prefixOf update.nullifier)) update

/-- The chunks of the prefixes for a limit. -/
def chunksFor (limits : RpcLimits) (prefixes : List UInt16) : List (List UInt16) :=
  prefixes.toChunks limits.nullifiersLimit.toNat

theorem syncNullifiers_eq_chunkPages {source : LimitsSource} {limits : RpcLimits}
    (limited : getRpcLimits source = .ok limits) (positive : limits.nullifiersLimit ≠ 0)
    (build : BuildTarget) (prefixes : List UInt16) :
    syncNullifiers build source answers prefixes blockNum blockTo =
      (chunkPages build answers blockNum blockTo (chunksFor limits prefixes) (0, []) >>=
        fun collected => return sortedUpdates collected.2) := by
  have parts : chunks limits.nullifiersLimit prefixes = .ok (chunksFor limits prefixes) :=
    if_neg positive
  unfold syncNullifiers
  rw [limited]
  show (chunks limits.nullifiersLimit prefixes >>= _) = _
  rw [parts]
  rfl

/-- With an honest node nothing overflows. As long as no chunk needs too many pages, all updates of
the range come back exactly when every chunk is ended by a page with pagination data. -/
theorem syncNullifiers_exact_iff {source : LimitsSource} {limits : RpcLimits}
    (limited : getRpcLimits source = .ok limits) (positive : limits.nullifiersLimit ≠ 0)
    (serves : ServesNullifiers answers prefixOf history tip) (prefixes : List UInt16)
    (blockNum : UInt32) (blockTo : Option UInt32)
    (within : blockNum ≤ rangeEnd blockTo (tip 0)) (build : BuildTarget) :
    Returns (syncNullifiers build source answers prefixes blockNum blockTo) ∧
      ((AllComplete answers blockTo blockNum (chunksFor limits prefixes) 0 →
          ∃ updates, syncNullifiers build source answers prefixes blockNum blockTo = .ok updates ∧
            ExactUpdates prefixOf history tip prefixes blockNum blockTo updates) ↔
        (AllComplete answers blockTo blockNum (chunksFor limits prefixes) 0 →
          AllEnd answers blockTo blockNum (chunksFor limits prefixes) 0)) := by
  have run := @syncNullifiers_eq_chunkPages answers blockTo blockNum source limits limited positive
    build prefixes
  refine ⟨returns_syncNullifiers_iff.mpr fun other same => ?_, imp_congr_right fun _ =>
    ⟨fun exact_ => ?_, fun ends => ?_⟩⟩
  · cases limited.symm.trans same
    exact positive
  · obtain ⟨updates, done, -⟩ := exact_
    by_contra open_
    rw [run, chunkPages_of_open serves within open_] at done
    cases done
  · obtain ⟨next, result, lasts, names, -, done, spans, members⟩ :=
      @chunkPages_of_ends prefixOf history answers blockTo build tip 0 [] blockNum
        (chunksFor limits prefixes) serves within ends
    refine ⟨sortedUpdates result, by rw [run, done]; rfl, nodup_sortedUpdates result, ?_⟩
    have spanned := rangeEnd_mono blockTo (serves.grows 0 next (Nat.zero_le next))
    choose covered lower upper covers using exists_covered spanned spans
    refine ⟨next, covered, fun asked => ⟨lower asked, upper asked⟩, fun update => ?_⟩
    have asked : (∃ entry ∈ lasts, prefixOf update.nullifier ∈ entry.1) ↔
        prefixOf update.nullifier ∈ prefixes := by
      rw [← flatten_toChunks limits.nullifiersLimit.toNat prefixes, List.mem_flatten]
      show _ ↔ ∃ chunk ∈ chunksFor limits prefixes, _
      rw [← names]
      simp only [List.mem_map, exists_exists_and_eq_and]
    rw [mem_sortedUpdates, members]
    unfold InRange
    rw [← asked]
    have upTo := covers (prefixOf update.nullifier) update.blockNum
    simp only [List.not_mem_nil, false_or]
    constructor
    · rintro ⟨entry, listed, known, matched, after, before⟩
      obtain ⟨there, within⟩ := upTo.mp ⟨entry, listed, matched, before⟩
      exact ⟨known, there, after, within⟩
    · rintro ⟨known, there, after, before⟩
      obtain ⟨entry, listed, matched, within⟩ := upTo.mpr ⟨there, before⟩
      exact ⟨entry, listed, known, matched, after, within⟩

end NodeCalls

/-! ### A node without pagination data -/

namespace CompleteAnswers

open NodeCalls

/-- The nullifier of one note, which is consumed in block 3 of a chain of ten blocks. -/
def consumed : NullifierUpdate :=
  ⟨0, 3⟩

/-- Every request is answered up to the end of its range. -/
def answers (withPagination : Bool) : Answers NullifierRequest Proto.SyncNullifiersResponse :=
  fun _ request => .ok
    ⟨if withPagination then some ⟨10, rangeEnd request.blockTo 10⟩ else none,
      if 0 ∈ request.prefixes ∧ request.blockFrom ≤ 3 ∧ 3 ≤ rangeEnd request.blockTo 10
        then [⟨some ⟨0, 0, 0, 0⟩, 3⟩] else []⟩

def limits : RpcLimits :=
  ⟨1000, 1000, 1000, 1000⟩

def source : LimitsSource :=
  ⟨some limits, .error (.invalidResponse "")⟩

theorem serves (withPagination : Bool) :
    ServesNullifiers (answers withPagination) (fun _ => 0) (· = consumed) fun _ => 10 where
  grows _ _ _ := UInt32.le_refl 10
  answered _ request within := by
    refine ⟨_, if 0 ∈ request.prefixes ∧ request.blockFrom ≤ 3 ∧ 3 ≤ rangeEnd request.blockTo 10
        then [consumed] else [], rangeEnd request.blockTo 10, rfl, ?_, within, UInt32.le_refl _,
      fun update => ?_, fun page given => ?_, fun _ => rfl⟩
    · show nullifierBatch (if 0 ∈ request.prefixes ∧ request.blockFrom ≤ 3 ∧
        3 ≤ rangeEnd request.blockTo 10 then _ else _) = _
      split
      · rfl
      · rfl
    · unfold InRange
      split
      · rename_i asked
        rw [List.mem_singleton]
        refine ⟨?_, And.left⟩
        rintro rfl
        exact ⟨rfl, asked⟩
      · rename_i other
        refine ⟨fun absent => (nomatch absent), ?_⟩
        rintro ⟨rfl, asked⟩
        exact absurd asked other
    · cases withPagination with
      | true =>
        cases given
        exact ⟨rfl, rfl⟩
      | false => cases given

/-- The nullifiers of two notes with different prefixes, which are consumed in blocks 3 and 8. -/
def bothConsumed : List NullifierUpdate :=
  [⟨0, 3⟩, ⟨1, 8⟩]

def prefixOfBoth (nullifier : Nullifier) : UInt16 :=
  if nullifier = 0 then 0 else 1

/-- No page goes beyond block 5 if it starts before. -/
def pageEnd (request : NullifierRequest) : UInt32 :=
  if request.blockFrom ≤ 5 ∧ 5 ≤ rangeEnd request.blockTo 10 then 5
  else rangeEnd request.blockTo 10

def onPage (request : NullifierRequest) : List NullifierUpdate :=
  bothConsumed.filter fun update => decide (prefixOfBoth update.nullifier ∈ request.prefixes ∧
    request.blockFrom.toNat ≤ update.blockNum ∧ update.blockNum ≤ (pageEnd request).toNat)

def pagedAnswers : Answers NullifierRequest Proto.SyncNullifiersResponse :=
  fun _ request => .ok ⟨some ⟨10, pageEnd request⟩, (onPage request).map fun update =>
    ⟨some ⟨UInt64.ofNat update.nullifier, 0, 0, 0⟩, UInt32.ofNat update.blockNum⟩⟩

theorem pagedAnswers_serves :
    ServesNullifiers pagedAnswers prefixOfBoth (· ∈ bothConsumed) fun _ => 10 where
  grows _ _ _ := UInt32.le_refl 10
  answered _ request within := by
    refine ⟨_, onPage request, pageEnd request, rfl, ?_, ?_, ?_, fun update => ?_,
      fun page given => ?_, fun absent => (nomatch absent)⟩
    · unfold onPage bothConsumed
      simp only [List.filter_cons, List.filter_nil]
      split <;> split <;> rfl
    · unfold pageEnd
      split
      · rename_i inside
        exact inside.1
      · exact within
    · unfold pageEnd
      split
      · rename_i inside
        exact inside.2
      · exact UInt32.le_refl _
    · simp only [onPage, List.mem_filter, decide_eq_true_eq, InRange]
    · cases given
      exact ⟨rfl, rfl⟩

/-- Each prefix is sent by itself. -/
def pagedLimits : RpcLimits :=
  ⟨1000, 1, 1000, 1000⟩

def pagedSource : LimitsSource :=
  ⟨some pagedLimits, .error (.invalidResponse "")⟩

/-- With pagination data the nullifiers are found, over two chunks and two pages of each. -/
theorem syncNullifiers_exact_paginated :
    ∃ updates, syncNullifiers ⟨64, true⟩ pagedSource pagedAnswers [0, 1] 0 none = .ok updates ∧
      ExactUpdates prefixOfBoth (· ∈ bothConsumed) (fun _ => 10) [0, 1] 0 none updates :=
  (syncNullifiers_exact_iff rfl (by decide) pagedAnswers_serves [0, 1] 0 none (by decide)
    ⟨64, true⟩).2.mpr
    (fun _ => show AllEnd pagedAnswers none 0 (chunksFor pagedLimits [0, 1]) 0 from trivial)
    ⟨Or.inr (Or.inl (by decide)), fun _ _ => ⟨Or.inr (Or.inl (by decide)), fun _ _ => trivial⟩⟩

/-- Without it the loop asks for the same range until it gives up. -/
theorem endsAt_eq_none (chunk : List UInt16) (iterations number : ℕ) :
    endsAt (answers false) none chunk iterations number 0 = none := by
  induction iterations generalizing number with
  | zero => rfl
  | succ iterations inductionHypothesis => exact inductionHypothesis (number + 1)

theorem not_allEnd : ¬AllEnd (answers false) none 0 (chunksFor limits [0]) 0 := by
  have single : chunksFor limits [0] = [[0]] := rfl
  rw [single, allEnd_cons_iff]
  rintro ⟨next, found, -⟩
  rw [endsAt_eq_none] at found
  cases found

theorem syncNullifiers_fails :
    syncNullifiers ⟨64, true⟩ source (answers false) [0] 0 none = .error (.error (.paginationError
      "too many pagination iterations, possible infinite loop")) := by
  have run := @syncNullifiers_eq_chunkPages (answers false) none 0 source limits rfl (by decide)
    ⟨64, true⟩ [0]
  have failed := @chunkPages_of_open (fun _ => 0) (· = consumed) (answers false) none ⟨64, true⟩
    (fun _ => 10) 0 [] 0 (chunksFor limits [0]) (serves false) (by decide) not_allEnd
  rw [failed] at run
  exact run

/-- One complete answer is enough for the prefix, and the call fails. -/
theorem syncNullifiers_not_exact :
    ¬∀ (limits : RpcLimits) (source : LimitsSource)
      (answers : Answers NullifierRequest Proto.SyncNullifiersResponse)
      (prefixOf : Nullifier → UInt16) (history : NullifierUpdate → Prop) (tip : ℕ → UInt32)
      (prefixes : List UInt16) (blockNum : UInt32) (blockTo : Option UInt32) (build : BuildTarget),
      getRpcLimits source = .ok limits → limits.nullifiersLimit ≠ 0 →
      ServesNullifiers answers prefixOf history tip → blockNum ≤ rangeEnd blockTo (tip 0) →
      AllComplete answers blockTo blockNum (chunksFor limits prefixes) 0 →
        ∃ updates, syncNullifiers build source answers prefixes blockNum blockTo = .ok updates ∧
          ExactUpdates prefixOf history tip prefixes blockNum blockTo updates := by
  intro always
  obtain ⟨updates, done, -⟩ := always limits source (answers false) (fun _ => 0) (· = consumed)
    (fun _ => 10) [0] 0 none ⟨64, true⟩ rfl (by decide) (serves false) (by decide)
    ⟨trivial, fun _ _ => trivial⟩
  rw [syncNullifiers_fails] at done
  cases done

end CompleteAnswers

end MidenClient
