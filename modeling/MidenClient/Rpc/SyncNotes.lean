/-
This file models the paginated request for notes
(`NodeRpcClient::sync_notes_with_details` in `rust-client/src/rpc/mod.rs`), and says on
which pages of the node it returns the whole range.

The node answers a request for a range of blocks with a prefix of it, and says where the
prefix ends. The loop stops at the first page that has no notes or that ends one block
before the chain tip, whatever the requested end of the range is. The block after a page is a
number of 32 bits: behind the last one the addition panics or starts over from the genesis block.
-/

import MidenClient.Note.Import

namespace MidenClient

open Std (ExtTreeMap)
open Panicking

/-- A response to a request for notes. -/
structure NoteSyncInfo where
  chainTip : BlockNumber
  /-- The last block the node checked. -/
  blockTo : BlockNumber
  blocks : List NoteBlock

/-- The blocks with all metadata filled in, and the bodies of the public notes. -/
structure SyncNotesResult where
  blocks : List NoteBlock
  publicNotes : ExtTreeMap NoteId Note

/-- The answers of the node. How much of a range it covers may change from request to request,
so the requests are numbered. -/
structure NoteSyncNode where
  syncNotes : ℕ → BlockNumber → Option BlockNumber → Finset NoteTag → Except RpcError NoteSyncInfo
  getNotesById : List NoteId → Except RpcError (List FetchedNote)

/-- The first blocks of the requests made, and how the call ended, if it did. -/
structure Paginated (α : Type) where
  requests : List BlockNumber
  outcome : Option (Except (Failure RpcError) α)

/-- The loop stops at a page without notes, or when the next one would start at the tip. -/
def NoteSyncInfo.isDone (noteSync : NoteSyncInfo) (cursor : BlockNumber) : Bool :=
  noteSync.blocks.isEmpty || decide (noteSync.chainTip ≤ cursor)

/-- The page stops the loop, when there is a block number behind it. -/
def NoteSyncInfo.isLast (noteSync : NoteSyncInfo) : Bool :=
  noteSync.isDone (noteSync.blockTo + 1)

/-! ### Details of the notes -/

/-- Fills the metadata of a note that came without it. -/
def CommittedNote.fillMetadata (note : CommittedNote) (metadata : NoteMetadata) : CommittedNote :=
  match note.metadata with
  | none => { note with noteType := metadata.noteType, metadata := some metadata }
  | some _ => note

namespace NoteSyncNode

variable [NoteLibrary]

/-- The notes whose details are fetched: the public ones and those without metadata. -/
def requestedNotes (blocks : List NoteBlock) : List NoteId :=
  ((blocks.flatMap fun block => OrderedMap.values block.notes).filter fun note =>
    note.metadata.isNone || note.noteType ≠ .isPrivate).map CommittedNote.noteId

def fillBlock (fetched : FetchedNote) (block : NoteBlock) : NoteBlock :=
  match block.notes[fetched.id]? with
  | some note =>
    { block with notes := block.notes.insert fetched.id (note.fillMetadata fetched.metadata) }
  | none => block

def addFetched (result : SyncNotesResult) (fetched : FetchedNote) : SyncNotesResult where
  blocks := result.blocks.map (fillBlock fetched)
  publicNotes := match fetched with
    | .isPublic note _ => result.publicNotes.insert note.id note
    | .isPrivate .. => result.publicNotes

/-- A single request for the details of all notes that need them. -/
def fetchDetails (node : NoteSyncNode) (blocks : List NoteBlock) :
    Except RpcError SyncNotesResult :=
  if requestedNotes blocks = [] then .ok ⟨blocks, ∅⟩
  else do
    let fetched ← node.getNotesById (requestedNotes blocks)
    return fetched.foldl addFetched ⟨blocks, ∅⟩

/-! ### The loop -/

/-- One request, and where the next page starts. -/
def requestPage (build : BuildTarget) (node : NoteSyncNode) (call : ℕ) (cursor : BlockNumber)
    (blockTo : Option BlockNumber) (tags : Finset NoteTag) :
    Except (Failure RpcError) (NoteSyncInfo × BlockNumber) := do
  let noteSync ← fallible (node.syncNotes call cursor blockTo tags)
  let next ← build.nextBlock noteSync.blockTo
  return (noteSync, next)

/-- The loop over the pages, with a bound on the number of requests. -/
def paginate (build : BuildTarget) (node : NoteSyncNode) (blockTo : Option BlockNumber)
    (tags : Finset NoteTag) :
    ℕ → ℕ → BlockNumber → List NoteBlock → Paginated (List NoteBlock)
  | 0, _, _, _ => ⟨[], none⟩
  | fuel + 1, call, cursor, allBlocks =>
    match requestPage build node call cursor blockTo tags with
    | .error failure => ⟨[cursor], some (.error failure)⟩
    | .ok (noteSync, next) =>
      if noteSync.isDone next then ⟨[cursor], some (.ok (allBlocks ++ noteSync.blocks))⟩
      else
        let rest := paginate build node blockTo tags fuel (call + 1) next
          (allBlocks ++ noteSync.blocks)
        ⟨cursor :: rest.requests, rest.outcome⟩

/-- `sync_notes_with_details`, stopped after a number of requests. -/
def syncNotesWithDetails (build : BuildTarget) (node : NoteSyncNode) (fuel : ℕ)
    (blockFrom : BlockNumber) (blockTo : Option BlockNumber) (tags : Finset NoteTag) :
    Paginated SyncNotesResult :=
  let pages := paginate build node blockTo tags fuel 0 blockFrom []
  ⟨pages.requests, pages.outcome.map fun blocks => blocks >>= fun blocks =>
    fallible (node.fetchDetails blocks)⟩

end NoteSyncNode

/-! ### The chain and its pages -/

/-- The note blocks of a chain: for each block its notes with the tags, if it has any. The number of
a block has 32 bits. -/
structure NoteChain where
  tip : BlockNumber
  tip_lt : tip < 2 ^ 32
  noteBlock : Finset NoteTag → BlockNumber → Option NoteBlock
  numbered : ∀ tags number block, noteBlock tags number = some block →
    block.blockHeader.blockNum = number

namespace NoteChain

/-- The last block of a requested range. -/
def rangeEnd (chain : NoteChain) : Option BlockNumber → BlockNumber
  | none => chain.tip
  | some bound => min bound chain.tip

/-- The note blocks from the first to the last block, both included. -/
def noteBlocks (chain : NoteChain) (tags : Finset NoteTag) (first last : BlockNumber) :
    List NoteBlock :=
  (List.range' first (last + 1 - first)).filterMap (chain.noteBlock tags)

end NoteChain

namespace NoteSyncNode

/-- An answer covers a prefix of the range that is not empty, and has its note blocks. -/
structure Page (chain : NoteChain) (cursor : BlockNumber) (blockTo : Option BlockNumber)
    (tags : Finset NoteTag) (noteSync : NoteSyncInfo) : Prop where
  chainTip : noteSync.chainTip = chain.tip
  notEmpty : cursor ≤ noteSync.blockTo
  inRange : noteSync.blockTo ≤ chain.rangeEnd blockTo
  blocks : noteSync.blocks = chain.noteBlocks tags cursor noteSync.blockTo

/-- The node serves the chain: it answers every request for a range with blocks in it by a page,
and returns the details it is asked for. Requests for no block are answered in any way. -/
structure Serves (node : NoteSyncNode) (chain : NoteChain) : Prop where
  page : ∀ call cursor blockTo tags, cursor ≤ chain.rangeEnd blockTo →
    ∃ noteSync, node.syncNotes call cursor blockTo tags = .ok noteSync ∧
      Page chain cursor blockTo tags noteSync
  details : ∀ ids, ∃ fetched, node.getNotesById ids = .ok fetched

/-- The pages that cover the range, in the order of requests for one after the other. -/
def pages (node : NoteSyncNode) (chain : NoteChain) (blockTo : Option BlockNumber)
    (tags : Finset NoteTag) : ℕ → ℕ → BlockNumber → List NoteSyncInfo
  | 0, _, _ => []
  | fuel + 1, call, cursor =>
    if chain.rangeEnd blockTo < cursor then []
    else
      match node.syncNotes call cursor blockTo tags with
      | .error _ => []
      | .ok noteSync =>
        noteSync :: pages node chain blockTo tags fuel (call + 1) (noteSync.blockTo + 1)

/-! ### Details change no block -/

end NoteSyncNode

/-- The block after its details were fetched: the same notes with the same proofs, and the same
metadata where it was known. -/
structure NoteBlock.ResolvesTo (block resolved : NoteBlock) : Prop where
  blockHeader : resolved.blockHeader = block.blockHeader
  inclusionProofs : ∀ id : NoteId, (resolved.notes[id]?).map CommittedNote.inclusionProof =
    (block.notes[id]?).map CommittedNote.inclusionProof
  known : ∀ (id : NoteId) note, block.notes[id]? = some note → note.metadata.isSome →
    resolved.notes[id]? = some note

theorem NoteBlock.ResolvesTo.refl (block : NoteBlock) : block.ResolvesTo block :=
  ⟨rfl, fun _ => rfl, fun _ _ found _ => found⟩

namespace NoteSyncNode

section Details

variable [NoteLibrary]

theorem resolvesTo_fillBlock {block resolved : NoteBlock} (resolves : block.ResolvesTo resolved)
    (fetched : FetchedNote) : block.ResolvesTo (fillBlock fetched resolved) := by
  unfold fillBlock
  rcases found : resolved.notes[fetched.id]? with _ | note
  · exact resolves
  · refine ⟨resolves.blockHeader, fun id => ?_, fun id knownNote stored known => ?_⟩
    · rw [← resolves.inclusionProofs id, ExtTreeMap.getElem?_insert]
      by_cases same : fetched.id = id
      · subst same
        rw [if_pos Std.ReflCmp.compare_self, found]
        unfold CommittedNote.fillMetadata
        rcases note.metadata with _ | metadata <;> rfl
      · rw [if_neg (by rwa [Std.compare_eq_iff_eq])]
    · have kept := resolves.known id knownNote stored known
      rw [ExtTreeMap.getElem?_insert]
      by_cases same : fetched.id = id
      · subst same
        rw [if_pos Std.ReflCmp.compare_self]
        rw [found] at kept
        cases kept
        obtain ⟨metadata, present⟩ := Option.isSome_iff_exists.mp known
        simp only [CommittedNote.fillMetadata, present]
      · rw [if_neg (by rwa [Std.compare_eq_iff_eq])]
        exact kept

theorem resolvesTo_foldl_addFetched {blocks : List NoteBlock} (fetched : List FetchedNote)
    (result : SyncNotesResult) (resolves : List.Forall₂ NoteBlock.ResolvesTo blocks result.blocks) :
    List.Forall₂ NoteBlock.ResolvesTo blocks (fetched.foldl addFetched result).blocks := by
  induction fetched generalizing result with
  | nil => exact resolves
  | cons note rest inductionHypothesis =>
    refine inductionHypothesis (addFetched result note) ?_
    show List.Forall₂ _ blocks (result.blocks.map (fillBlock note))
    rw [List.forall₂_map_right_iff]
    exact resolves.imp fun _ _ resolvesTo => resolvesTo_fillBlock resolvesTo note

/-- Fetching the details returns the same blocks, with more of their metadata. -/
theorem fetchDetails_resolves {node : NoteSyncNode} {chain : NoteChain} (serves : node.Serves chain)
    (blocks : List NoteBlock) :
    ∃ result, node.fetchDetails blocks = .ok result ∧
      List.Forall₂ NoteBlock.ResolvesTo blocks result.blocks := by
  have unchanged : List.Forall₂ NoteBlock.ResolvesTo blocks blocks :=
    List.forall₂_same.mpr fun block _ => .refl block
  unfold fetchDetails
  split
  · exact ⟨_, rfl, unchanged⟩
  · obtain ⟨fetched, answered⟩ := serves.details (requestedNotes blocks)
    rw [answered]
    exact ⟨_, rfl, resolvesTo_foldl_addFetched fetched _ unchanged⟩

end Details

end NoteSyncNode

/-! ### The blocks of a range -/

namespace NoteChain

variable (chain : NoteChain) (tags : Finset NoteTag)

theorem tip_pos (last : chain.tip + 1 = 2 ^ 32) : 0 < chain.tip :=
  Nat.lt_of_succ_lt_succ (by rw [Nat.succ_eq_add_one, Nat.succ_eq_add_one, last]; decide)

theorem rangeEnd_le_tip (blockTo : Option BlockNumber) : chain.rangeEnd blockTo ≤ chain.tip := by
  cases blockTo with
  | none => exact le_rfl
  | some bound => exact min_le_right bound chain.tip

theorem noteBlocks_append {first middle last : ℕ} (lower : first ≤ middle + 1)
    (upper : middle ≤ last) :
    chain.noteBlocks tags first middle ++ chain.noteBlocks tags (middle + 1) last =
      chain.noteBlocks tags first last := by
  have start : first + (middle + 1 - first) = middle + 1 := by omega
  have size : last + 1 - first = (middle + 1 - first) + (last + 1 - (middle + 1)) := by omega
  unfold noteBlocks
  rw [← List.filterMap_append, size, ← List.range'_append_1, start]

/-- A block of the range has its own number, and no other block of the range has it. -/
theorem filter_noteBlocks {first last number : ℕ} {block : NoteBlock}
    (lower : first ≤ number) (upper : number ≤ last)
    (matching : chain.noteBlock tags number = some block) :
    (chain.noteBlocks tags first last).filter
      (fun block => block.blockHeader.blockNum = number) = [block] := by
  have only : ∀ size first : ℕ, first ≤ number → number < first + size →
      ((List.range' first size).filterMap (chain.noteBlock tags)).filter
        (fun block => block.blockHeader.blockNum = number) = [block] := by
    intro size
    induction size with
    | zero =>
      intro first lower upper
      omega
    | succ size inductionHypothesis =>
      intro first lower upper
      rw [List.range'_succ]
      rcases eq_or_lt_of_le lower with rfl | above
      · rw [List.filterMap_cons_some matching, List.filter_cons_of_pos
          (by rw [chain.numbered _ _ _ matching]; exact decide_eq_true rfl)]
        have others : ((List.range' (first + 1) size).filterMap (chain.noteBlock tags)).filter
            (fun block => block.blockHeader.blockNum = first) = [] := by
          rw [List.filter_eq_nil_iff]
          intro other listed same
          obtain ⟨position, inside, found⟩ := List.mem_filterMap.mp listed
          have above := (List.mem_range'_1.mp inside).1
          rw [chain.numbered _ _ _ found, decide_eq_true_eq] at same
          omega
        rw [others]
      · have rest := inductionHypothesis (first + 1) above (by omega)
        rcases found : chain.noteBlock tags first with _ | other
        · rw [List.filterMap_cons_none found]
          exact rest
        · rw [List.filterMap_cons_some found, List.filter_cons_of_neg
            (by rw [chain.numbered _ _ _ found, decide_eq_true_eq]; omega)]
          exact rest
  exact only _ first lower (by omega)

theorem mem_noteBlocks {first last : ℕ} {block : NoteBlock} :
    block ∈ chain.noteBlocks tags first last ↔
      ∃ number : ℕ, first ≤ number ∧ number ≤ last ∧ chain.noteBlock tags number = some block := by
  unfold noteBlocks
  rw [List.mem_filterMap]
  constructor
  · rintro ⟨number, inside, found⟩
    obtain ⟨lower, upper⟩ := List.mem_range'_1.mp inside
    exact ⟨number, lower, by omega, found⟩
  · rintro ⟨number, lower, upper, found⟩
    exact ⟨number, List.mem_range'_1.mpr ⟨lower, by omega⟩, found⟩

end NoteChain

/-! ### The pages of a range -/

namespace NoteSyncNode

section Pages

variable {node : NoteSyncNode} {chain : NoteChain} {blockTo : Option BlockNumber}
  {tags : Finset NoteTag}

/-- The pages of a range that is not empty: the first one, and those of what is left. -/
theorem pages_succ (serves : node.Serves chain) {cursor : BlockNumber}
    (inRange : cursor ≤ chain.rangeEnd blockTo) (fuel call : ℕ) :
    ∃ noteSync, node.syncNotes call cursor blockTo tags = .ok noteSync ∧
      Page chain cursor blockTo tags noteSync ∧
      node.pages chain blockTo tags (fuel + 1) call cursor =
        noteSync :: node.pages chain blockTo tags fuel (call + 1) (noteSync.blockTo + 1) := by
  obtain ⟨noteSync, answered, page⟩ := serves.page call cursor blockTo tags inRange
  refine ⟨noteSync, answered, page, ?_⟩
  rw [pages, if_neg (not_lt.mpr inRange), answered]

theorem pages_of_end {cursor : BlockNumber} (outOfRange : chain.rangeEnd blockTo < cursor)
    (fuel call : ℕ) : node.pages chain blockTo tags fuel call cursor = [] := by
  cases fuel with
  | zero => rfl
  | succ fuel => rw [pages, if_pos outOfRange]

/-- A page leaves fewer blocks to ask for. -/
theorem enough_of_page {fuel : ℕ} {cursor : BlockNumber} {noteSync : NoteSyncInfo}
    (enough : chain.rangeEnd blockTo + 1 ≤ fuel + 1 + cursor)
    (page : Page chain cursor blockTo tags noteSync) :
    chain.rangeEnd blockTo + 1 ≤ fuel + (noteSync.blockTo + 1) := by
  have notEmpty := page.notEmpty
  simp only [BlockNumber] at *
  omega

/-- The pages together hold the blocks of the range. -/
theorem flatMap_pages (serves : node.Serves chain) (fuel call : ℕ) (cursor : BlockNumber)
    (enough : chain.rangeEnd blockTo + 1 ≤ fuel + cursor) :
    (node.pages chain blockTo tags fuel call cursor).flatMap NoteSyncInfo.blocks =
      chain.noteBlocks tags cursor (chain.rangeEnd blockTo) := by
  induction fuel generalizing call cursor with
  | zero =>
    have nothing : chain.rangeEnd blockTo + 1 - cursor = 0 :=
      Nat.sub_eq_zero_of_le (by rwa [Nat.zero_add] at enough)
    rw [pages, NoteChain.noteBlocks, nothing]
    rfl
  | succ fuel inductionHypothesis =>
    by_cases inRange : cursor ≤ chain.rangeEnd blockTo
    · obtain ⟨noteSync, -, page, same⟩ := pages_succ serves inRange fuel call
      have left : chain.rangeEnd blockTo + 1 ≤ fuel + (noteSync.blockTo + 1) :=
        enough_of_page enough page
      rw [same, List.flatMap_cons, page.blocks, inductionHypothesis _ _ left]
      exact chain.noteBlocks_append tags (Nat.le_succ_of_le page.notEmpty) page.inRange
    · have nothing : chain.rangeEnd blockTo + 1 - cursor = 0 :=
        Nat.sub_eq_zero_of_le (not_le.mp inRange)
      rw [pages_of_end (not_le.mp inRange), NoteChain.noteBlocks, nothing]
      rfl

/-- Every page reports the tip and ends within the range. -/
theorem of_mem_pages (serves : node.Serves chain) (fuel call : ℕ) (cursor : BlockNumber)
    {noteSync : NoteSyncInfo}
    (member : noteSync ∈ node.pages chain blockTo tags fuel call cursor) :
    noteSync.chainTip = chain.tip ∧ noteSync.blockTo ≤ chain.rangeEnd blockTo := by
  induction fuel generalizing call cursor with
  | zero => cases member
  | succ fuel inductionHypothesis =>
    by_cases inRange : cursor ≤ chain.rangeEnd blockTo
    · obtain ⟨first, -, page, same⟩ := pages_succ serves inRange fuel call
      rw [same] at member
      rcases List.mem_cons.mp member with rfl | later
      · exact ⟨page.chainTip, page.inRange⟩
      · exact inductionHypothesis _ _ later
    · rw [pages_of_end (not_le.mp inRange)] at member
      cases member

/-- One of the pages ends where the range does. -/
theorem exists_page_at_end (serves : node.Serves chain) (fuel call : ℕ) (cursor : BlockNumber)
    (inRange : cursor ≤ chain.rangeEnd blockTo)
    (enough : chain.rangeEnd blockTo + 1 ≤ fuel + cursor) :
    ∃ noteSync ∈ node.pages chain blockTo tags fuel call cursor,
      noteSync.blockTo = chain.rangeEnd blockTo := by
  induction fuel generalizing call cursor with
  | zero =>
    rw [Nat.zero_add] at enough
    exact absurd inRange (not_le.mpr enough)
  | succ fuel inductionHypothesis =>
    obtain ⟨first, -, page, same⟩ := pages_succ serves inRange fuel call
    rw [same]
    rcases eq_or_lt_of_le page.inRange with atEnd | before
    · exact ⟨first, List.mem_cons_self, atEnd⟩
    · obtain ⟨noteSync, member, atEnd⟩ :=
        inductionHypothesis (call + 1) (first.blockTo + 1) before (enough_of_page enough page)
      exact ⟨noteSync, List.mem_cons_of_mem _ member, atEnd⟩

/-! ### Where the loop stops -/

/-- The pages the loop reads: those up to the first at which it stops. -/
def readPages : List NoteSyncInfo → List NoteSyncInfo
  | [] => []
  | page :: rest => if page.isLast then [page] else page :: readPages rest

/-- The pages after the one at which the loop stops. -/
def unreadPages : List NoteSyncInfo → List NoteSyncInfo
  | [] => []
  | page :: rest => if page.isLast then rest else unreadPages rest

theorem readPages_append_unreadPages (pages : List NoteSyncInfo) :
    readPages pages ++ unreadPages pages = pages := by
  induction pages with
  | nil => rfl
  | cons page rest inductionHypothesis =>
    rw [readPages, unreadPages]
    by_cases done : page.isLast = true
    · rw [if_pos done, if_pos done, List.singleton_append]
    · rw [if_neg done, if_neg done, List.cons_append, inductionHypothesis]

/-- No notes are left unread exactly when no page after a stopping one has notes. -/
theorem pairwise_isLast_iff (pages : List NoteSyncInfo) :
    pages.Pairwise (fun page later => page.isLast = true → later.blocks = []) ↔
      ∀ page ∈ unreadPages pages, page.blocks = [] := by
  induction pages with
  | nil => simp [unreadPages]
  | cons page rest inductionHypothesis =>
    rw [List.pairwise_cons, unreadPages]
    by_cases done : page.isLast = true
    · rw [if_pos done]
      refine ⟨fun pairwise later member => pairwise.1 later member done, fun empty => ⟨?_, ?_⟩⟩
      · exact fun later member _ => empty later member
      · exact List.pairwise_iff_forall_sublist.mpr fun sublist _ =>
          empty _ (sublist.subset (by simp))
    · rw [if_neg done, ← inductionHypothesis]
      exact ⟨fun pairwise => pairwise.2, fun pairwise => ⟨fun _ _ isDone => absurd isDone done,
        pairwise⟩⟩

/-- A page that does not end with the last block number has a next one. -/
theorem requestPage_of_lt {build : BuildTarget} {call : ℕ} {cursor : BlockNumber}
    {noteSync : NoteSyncInfo} (answered : node.syncNotes call cursor blockTo tags = .ok noteSync)
    (below : noteSync.blockTo + 1 < 2 ^ 32) :
    requestPage build node call cursor blockTo tags =
      .ok (noteSync, noteSync.blockTo + 1) := by
  unfold requestPage
  rw [answered]
  show (build.nextBlock noteSync.blockTo >>= fun next => _ :
    Except (Failure RpcError) (NoteSyncInfo × BlockNumber)) = _
  rw [build.nextBlock_of_lt below]
  rfl

/-- At a page that ends with the last block number the loop panics, or starts over. -/
theorem requestPage_of_last (build : BuildTarget) {call : ℕ} {cursor : BlockNumber}
    {noteSync : NoteSyncInfo} (answered : node.syncNotes call cursor blockTo tags = .ok noteSync)
    (last : noteSync.blockTo + 1 = 2 ^ 32) :
    requestPage build node call cursor blockTo tags =
      if build.overflowChecks = true then .error (.panicked "attempt to add with overflow")
      else .ok (noteSync, 0) := by
  unfold requestPage
  rw [answered]
  show (build.nextBlock noteSync.blockTo >>= fun next => _ :
    Except (Failure RpcError) (NoteSyncInfo × BlockNumber)) = _
  rw [build.nextBlock_of_last last]
  split <;> rfl

/-- When a page of the range stops the loop, it returns the blocks of the pages it read. -/
theorem paginate_outcome (build : BuildTarget) (serves : node.Serves chain) (fuel call : ℕ)
    (cursor : BlockNumber) (allBlocks : List NoteBlock)
    (stops : ∃ page ∈ node.pages chain blockTo tags fuel call cursor, page.isLast = true)
    (below : ∀ page ∈ readPages (node.pages chain blockTo tags fuel call cursor),
      page.blockTo + 1 < 2 ^ 32) :
    (paginate build node blockTo tags fuel call cursor allBlocks).outcome = some (.ok (allBlocks ++
      (readPages (node.pages chain blockTo tags fuel call cursor)).flatMap
        NoteSyncInfo.blocks)) := by
  induction fuel generalizing call cursor allBlocks with
  | zero =>
    obtain ⟨page, member, -⟩ := stops
    cases member
  | succ fuel inductionHypothesis =>
    by_cases inRange : cursor ≤ chain.rangeEnd blockTo
    · obtain ⟨first, answered, -, same⟩ := pages_succ serves inRange fuel call
      rw [same] at stops below ⊢
      rw [readPages] at below ⊢
      rw [paginate]
      by_cases done : first.isLast = true
      · rw [if_pos done] at below ⊢
        rw [requestPage_of_lt answered (below first (List.mem_singleton_self first))]
        dsimp only
        rw [if_pos (show first.isDone (first.blockTo + 1) = true from done),
          List.flatMap_singleton]
      · rw [if_neg done] at below ⊢
        have later : ∃ page ∈ node.pages chain blockTo tags fuel (call + 1) (first.blockTo + 1),
            page.isLast = true := by
          obtain ⟨page, member, isLast⟩ := stops
          rcases List.mem_cons.mp member with rfl | member
          · exact absurd isLast done
          · exact ⟨page, member, isLast⟩
        rw [requestPage_of_lt answered (below first List.mem_cons_self)]
        dsimp only
        rw [if_neg (show ¬first.isDone (first.blockTo + 1) = true from done), List.flatMap_cons,
          ← List.append_assoc]
        exact inductionHypothesis _ _ _ later fun page member =>
          below page (List.mem_cons_of_mem first member)
    · rw [pages_of_end (not_le.mp inRange)] at stops
      obtain ⟨page, member, -⟩ := stops
      cases member

/-- When a page of the range stops the loop, it only asks for blocks of the range. -/
theorem paginate_requests (build : BuildTarget) (serves : node.Serves chain)
    (fuel limit call : ℕ) (cursor : BlockNumber) (allBlocks : List NoteBlock)
    (stops : ∃ page ∈ node.pages chain blockTo tags fuel call cursor, page.isLast = true)
    (below : ∀ page ∈ readPages (node.pages chain blockTo tags fuel call cursor),
      page.blockTo + 1 < 2 ^ 32) :
    ∀ request ∈ (paginate build node blockTo tags limit call cursor allBlocks).requests,
      request ≤ chain.rangeEnd blockTo := by
  induction fuel generalizing limit call cursor allBlocks with
  | zero =>
    obtain ⟨page, member, -⟩ := stops
    cases member
  | succ fuel inductionHypothesis =>
    intro request listed
    by_cases inRange : cursor ≤ chain.rangeEnd blockTo
    · obtain ⟨first, answered, -, same⟩ := pages_succ serves inRange fuel call
      rw [same] at stops below
      rw [readPages] at below
      cases limit with
      | zero => cases listed
      | succ limit =>
        rw [paginate] at listed
        by_cases done : first.isLast = true
        · rw [if_pos done] at below
          rw [requestPage_of_lt answered (below first (List.mem_singleton_self first))] at listed
          dsimp only at listed
          rw [if_pos (show first.isDone (first.blockTo + 1) = true from done)] at listed
          rw [List.mem_singleton.mp listed]
          exact inRange
        · rw [if_neg done] at below
          rw [requestPage_of_lt answered (below first List.mem_cons_self)] at listed
          dsimp only at listed
          rw [if_neg (show ¬first.isDone (first.blockTo + 1) = true from done)] at listed
          rcases List.mem_cons.mp listed with rfl | later
          · exact inRange
          · refine inductionHypothesis limit (call + 1) (first.blockTo + 1) _ ?_
              (fun page member => below page (List.mem_cons_of_mem first member)) request later
            obtain ⟨page, member, isLast⟩ := stops
            rcases List.mem_cons.mp member with rfl | member
            · exact absurd isLast done
            · exact ⟨page, member, isLast⟩
    · rw [pages_of_end (not_le.mp inRange)] at stops
      obtain ⟨page, member, -⟩ := stops
      cases member

theorem mem_requests (build : BuildTarget) (node : NoteSyncNode) (fuel call : ℕ)
    (cursor : BlockNumber) (allBlocks : List NoteBlock) :
    cursor ∈ (paginate build node blockTo tags (fuel + 1) call cursor allBlocks).requests := by
  rw [paginate]
  split
  · exact List.mem_cons_self
  · split <;> exact List.mem_cons_self

/-- When no page of the range stops the loop, it asks for the block after the range. -/
theorem paginate_beyond (build : BuildTarget) (serves : node.Serves chain) (fuel call : ℕ)
    (cursor : BlockNumber) (allBlocks : List NoteBlock)
    (upTo : cursor ≤ chain.rangeEnd blockTo + 1)
    (enough : chain.rangeEnd blockTo + 1 ≤ fuel + cursor)
    (below : chain.rangeEnd blockTo + 1 < 2 ^ 32)
    (continues : ∀ page ∈ node.pages chain blockTo tags fuel call cursor, ¬ page.isLast = true) :
    chain.rangeEnd blockTo + 1 ∈
      (paginate build node blockTo tags (fuel + 1) call cursor allBlocks).requests := by
  induction fuel generalizing call cursor allBlocks with
  | zero =>
    rw [Nat.zero_add] at enough
    rw [Nat.le_antisymm enough upTo]
    exact mem_requests build node 0 call cursor allBlocks
  | succ fuel inductionHypothesis =>
    rcases eq_or_lt_of_le upTo with rfl | inRange
    · exact mem_requests build node (fuel + 1) call _ allBlocks
    · obtain ⟨first, answered, page, same⟩ :=
        pages_succ serves (Nat.le_of_lt_succ inRange) fuel call
      rw [same] at continues
      rw [paginate, requestPage_of_lt answered
        ((Nat.succ_le_succ page.inRange).trans_lt below)]
      dsimp only
      rw [if_neg (show ¬first.isDone (first.blockTo + 1) = true from
        continues first List.mem_cons_self)]
      refine List.mem_cons_of_mem _ (inductionHypothesis (call + 1) (first.blockTo + 1) _
        (Nat.succ_le_succ page.inRange) (enough_of_page enough page) fun later member => ?_)
      exact continues later (List.mem_cons_of_mem _ member)

/-- A larger bound on the number of requests has the same outcome. -/
theorem outcome_mono (build : BuildTarget) (node : NoteSyncNode) {fuel more : ℕ}
    (enough : fuel ≤ more) {call : ℕ} {cursor : BlockNumber} {allBlocks : List NoteBlock}
    {outcome : Except (Failure RpcError) (List NoteBlock)}
    (returned : (paginate build node blockTo tags fuel call cursor allBlocks).outcome =
      some outcome) :
    (paginate build node blockTo tags more call cursor allBlocks).outcome = some outcome := by
  induction fuel generalizing more call cursor allBlocks with
  | zero => cases returned
  | succ fuel inductionHypothesis =>
    obtain ⟨more, rfl⟩ := Nat.exists_eq_add_of_le' (Nat.one_le_of_lt enough)
    rw [paginate] at returned ⊢
    split at returned
    · exact returned
    · split at returned
      · rw [if_pos (by assumption)]
        exact returned
      · rw [if_neg (by assumption)]
        exact inductionHypothesis (Nat.le_of_succ_le_succ enough) returned

/-- The outcome does not depend on the bound on the number of requests. -/
theorem outcome_unique (build : BuildTarget) (node : NoteSyncNode) {first second : ℕ} {call : ℕ}
    {cursor : BlockNumber} {allBlocks : List NoteBlock}
    {outcome other : Except (Failure RpcError) (List NoteBlock)}
    (returned : (paginate build node blockTo tags first call cursor allBlocks).outcome =
      some outcome)
    (again : (paginate build node blockTo tags second call cursor allBlocks).outcome =
      some other) :
    outcome = other :=
  Option.some.inj ((outcome_mono build node (le_max_left first second) returned).symm.trans
    (outcome_mono build node (le_max_right first second) again))

/-- A larger bound on the number of requests makes at least the same requests. -/
theorem requests_mono (build : BuildTarget) (node : NoteSyncNode) {fuel more : ℕ}
    (enough : fuel ≤ more) (call : ℕ) (cursor : BlockNumber) (allBlocks : List NoteBlock) :
    (paginate build node blockTo tags fuel call cursor allBlocks).requests ⊆
      (paginate build node blockTo tags more call cursor allBlocks).requests := by
  induction fuel generalizing more call cursor allBlocks with
  | zero => exact List.nil_subset _
  | succ fuel inductionHypothesis =>
    obtain ⟨more, rfl⟩ := Nat.exists_eq_add_of_le' (Nat.one_le_of_lt enough)
    rw [paginate, paginate]
    split
    · exact List.Subset.refl _
    · split
      · exact List.Subset.refl _
      · exact List.cons_subset_cons _ (inductionHypothesis (Nat.le_of_succ_le_succ enough) _ _ _)

/-- The blocks of the pages are added to those that are there. -/
theorem append_blocks_initial (build : BuildTarget) (node : NoteSyncNode) {fuel call : ℕ}
    {cursor : BlockNumber} {allBlocks blocks : List NoteBlock} {noteSync : NoteSyncInfo}
    (answered : node.syncNotes call cursor blockTo tags = .ok noteSync)
    (returned : (paginate build node blockTo tags fuel call cursor allBlocks).outcome =
      some (.ok blocks)) :
    allBlocks ++ noteSync.blocks <+: blocks := by
  induction fuel generalizing call cursor allBlocks noteSync with
  | zero => cases returned
  | succ fuel inductionHypothesis =>
    rw [paginate] at returned
    split at returned
    · cases returned
    · rename_i page next requested
      obtain ⟨other, sameAnswer, requested⟩ := Fallible.bind_eq_ok.mp requested
      rw [fallible_eq_ok, answered] at sameAnswer
      cases sameAnswer
      obtain ⟨following, -, requested⟩ := Fallible.bind_eq_ok.mp requested
      cases requested
      split at returned
      · cases returned
        exact List.prefix_rfl
      · dsimp only at returned
        cases fuel with
        | zero => cases returned
        | succ fuel =>
          cases outcome : node.syncNotes (call + 1) next blockTo tags with
          | error reason =>
            rw [paginate] at returned
            unfold requestPage at returned
            rw [outcome] at returned
            cases returned
          | ok later =>
            exact (List.prefix_append _ _).trans (inductionHypothesis outcome returned)

/-- The loop passes pages that do not stop it. -/
theorem paginate_before (build : BuildTarget) (serves : node.Serves chain) {fuel call : ℕ}
    {cursor : BlockNumber} {before rest : List NoteSyncInfo}
    (split : node.pages chain blockTo tags fuel call cursor = before ++ rest)
    (passes : ∀ page ∈ before, page.isLast ≠ true ∧ page.blockTo + 1 < 2 ^ 32) :
    ∃ (left : ℕ) (next : BlockNumber) (requests : List BlockNumber),
      node.pages chain blockTo tags left (call + before.length) next = rest ∧
      (∀ request ∈ requests, request ≤ chain.rangeEnd blockTo) ∧
      ∀ more allBlocks, paginate build node blockTo tags (before.length + more) call cursor
          allBlocks =
        let following := paginate build node blockTo tags more (call + before.length) next
          (allBlocks ++ before.flatMap NoteSyncInfo.blocks)
        ⟨requests ++ following.requests, following.outcome⟩ := by
  induction before generalizing fuel call cursor with
  | nil =>
    refine ⟨fuel, cursor, [], split, fun _ absent => absurd absent List.not_mem_nil, ?_⟩
    intro more allBlocks
    rw [List.flatMap_nil, List.append_nil, List.length_nil, Nat.zero_add]
    rfl
  | cons page before inductionHypothesis =>
    cases fuel with
    | zero => cases split
    | succ fuel =>
      have inRange : cursor ≤ chain.rangeEnd blockTo := by
        by_contra outOfRange
        rw [pages_of_end (not_le.mp outOfRange)] at split
        cases split
      obtain ⟨first, answered, -, same⟩ := pages_succ serves inRange fuel call
      rw [same] at split
      obtain ⟨rfl, following⟩ := List.cons.inj split
      obtain ⟨continues, below⟩ := passes first List.mem_cons_self
      obtain ⟨left, next, requests, pages, within, runs⟩ := inductionHypothesis following
        fun other member => passes other (List.mem_cons_of_mem first member)
      have position : call + 1 + before.length = call + (first :: before).length := by
        rw [List.length_cons]
        omega
      refine ⟨left, next, cursor :: requests, ?_, ?_, fun more allBlocks => ?_⟩
      · rw [← position]
        exact pages
      · exact List.forall_mem_cons.mpr ⟨inRange, within⟩
      · rw [List.length_cons, Nat.succ_add, paginate, requestPage_of_lt answered below]
        dsimp only
        rw [if_neg (show ¬first.isDone (first.blockTo + 1) = true from continues), runs,
          List.flatMap_cons, ← List.append_assoc, position]
        rfl

/-- A page that ends where the range does is the last one. -/
theorem eq_append_of_read_end (serves : node.Serves chain) {fuel call : ℕ} {cursor : BlockNumber}
    {page : NoteSyncInfo}
    (read : page ∈ readPages (node.pages chain blockTo tags fuel call cursor))
    (atEnd : page.blockTo = chain.rangeEnd blockTo) :
    ∃ before, node.pages chain blockTo tags fuel call cursor = before ++ [page] ∧
      ∀ earlier ∈ before, earlier.isLast ≠ true ∧ earlier.blockTo < chain.rangeEnd blockTo := by
  induction fuel generalizing call cursor with
  | zero => cases read
  | succ fuel inductionHypothesis =>
    by_cases inRange : cursor ≤ chain.rangeEnd blockTo
    · obtain ⟨first, -, isPage, same⟩ := pages_succ serves inRange fuel call
      rw [same] at read ⊢
      rcases eq_or_lt_of_le isPage.inRange with firstAtEnd | before
      · have nothing : node.pages chain blockTo tags fuel (call + 1) (first.blockTo + 1) = [] :=
          pages_of_end (by rw [firstAtEnd]; exact Nat.lt_succ_self _) fuel (call + 1)
        rw [nothing] at read ⊢
        have single : readPages [first] = [first] := by
          rw [readPages]
          split <;> rfl
        rw [single, List.mem_singleton] at read
        subst read
        exact ⟨[], rfl, fun _ absent => absurd absent List.not_mem_nil⟩
      · rw [readPages] at read
        split at read
        · rw [List.mem_singleton.mp read] at atEnd
          exact absurd atEnd before.ne
        · rename_i continues
          rcases List.mem_cons.mp read with rfl | later
          · exact absurd atEnd before.ne
          · obtain ⟨others, split, passes⟩ := inductionHypothesis later
            refine ⟨first :: others, ?_, List.forall_mem_cons.mpr ⟨⟨continues, before⟩, passes⟩⟩
            rw [split, List.cons_append]
    · rw [pages_of_end (not_le.mp inRange)] at read
      cases read

theorem mem_readPages_of_passed {before : List NoteSyncInfo} (page : NoteSyncInfo)
    (passed : ∀ earlier ∈ before, earlier.isLast ≠ true) :
    page ∈ readPages (before ++ [page]) := by
  induction before with
  | nil =>
    rw [List.nil_append, readPages]
    split <;> exact List.mem_cons_self
  | cons first before inductionHypothesis =>
    rw [List.cons_append, readPages, if_neg (passed first List.mem_cons_self)]
    exact List.mem_cons_of_mem _ (inductionHypothesis fun earlier member =>
      passed earlier (List.mem_cons_of_mem first member))

/-- The single page that is left starts at a block of the range. -/
theorem of_pages_eq_singleton (serves : node.Serves chain) {fuel call : ℕ} {cursor : BlockNumber}
    {last : NoteSyncInfo} (single : node.pages chain blockTo tags fuel call cursor = [last]) :
    cursor ≤ chain.rangeEnd blockTo ∧ node.syncNotes call cursor blockTo tags = .ok last ∧
      last.chainTip = chain.tip := by
  cases fuel with
  | zero => cases single
  | succ fuel =>
    have inRange : cursor ≤ chain.rangeEnd blockTo := by
      by_contra outOfRange
      rw [pages_of_end (not_le.mp outOfRange)] at single
      cases single
    obtain ⟨first, answered, page, same⟩ := pages_succ serves inRange fuel call
    rw [same] at single
    obtain ⟨rfl, -⟩ := List.cons.inj single
    exact ⟨inRange, answered, page.chainTip⟩

theorem isDone_zero (last : NoteSyncInfo) (tip : 0 < last.chainTip) :
    last.isDone 0 = true ↔ last.blocks = [] := by
  unfold NoteSyncInfo.isDone
  rw [Bool.or_eq_true, List.isEmpty_iff, decide_eq_true_eq]
  exact or_iff_left (not_le.mpr tip)

theorem isDone_of_empty {noteSync : NoteSyncInfo} (empty : noteSync.blocks = [])
    (cursor : BlockNumber) : noteSync.isDone cursor = true := by
  unfold NoteSyncInfo.isDone
  rw [empty]
  rfl

/-- Where additions are unchecked, the next block of any other is one of a number. -/
theorem requestPage_of_unchecked {build : BuildTarget} (unchecked : build.overflowChecks = false)
    {call : ℕ} {cursor : BlockNumber} {noteSync : NoteSyncInfo}
    (answered : node.syncNotes call cursor blockTo tags = .ok noteSync)
    (bounded : noteSync.blockTo < 2 ^ 32) :
    ∃ next, requestPage build node call cursor blockTo tags = .ok (noteSync, next) := by
  rcases eq_or_lt_of_le (Nat.succ_le_of_lt bounded) with last | below
  · refine ⟨0, ?_⟩
    rw [requestPage_of_last build answered last, unchecked]
    rfl
  · exact ⟨noteSync.blockTo + 1, requestPage_of_lt answered below⟩

/-- Where additions are unchecked, the loop ends with the last page of the range when that page has
no notes, or the answer to the request from the first block that follows it. -/
theorem paginate_end (build : BuildTarget) (serves : node.Serves chain) {left call : ℕ}
    {cursor : BlockNumber} {last : NoteSyncInfo}
    (single : node.pages chain blockTo tags left call cursor = [last])
    (atEnd : last.blockTo + 1 = 2 ^ 32) (tip : 0 < chain.tip)
    (unchecked : build.overflowChecks = false)
    (ends : last.blocks = [] ∨ ∀ again, node.syncNotes (call + 1) 0 blockTo tags = .ok again →
      again.blocks = []) (more : ℕ) (allBlocks : List NoteBlock) :
    (paginate build node blockTo tags (more + 2) call cursor allBlocks).outcome =
        some (.ok (allBlocks ++ last.blocks)) ∧
      ∀ request ∈ (paginate build node blockTo tags (more + 2) call cursor allBlocks).requests,
        request ≤ chain.rangeEnd blockTo := by
  obtain ⟨inRange, answered, sameTip⟩ := of_pages_eq_singleton serves single
  have requested := requestPage_of_last build answered atEnd
  rw [unchecked, if_neg Bool.false_ne_true] at requested
  rw [paginate, requested]
  dsimp only
  by_cases empty : last.blocks = []
  · rw [if_pos ((isDone_zero last (sameTip ▸ tip)).mpr empty)]
    exact ⟨rfl, List.forall_mem_singleton.mpr inRange⟩
  · rw [if_neg ((isDone_zero last (sameTip ▸ tip)).not.mpr empty)]
    obtain ⟨again, repeated, page⟩ := serves.page (call + 1) 0 blockTo tags (Nat.zero_le _)
    have nothing := (ends.resolve_left empty) again repeated
    obtain ⟨next, requestedAgain⟩ := requestPage_of_unchecked unchecked repeated
      (page.inRange.trans_lt ((chain.rangeEnd_le_tip blockTo).trans_lt chain.tip_lt))
    rw [paginate, requestedAgain]
    dsimp only
    rw [if_pos (isDone_of_empty nothing next), nothing, List.append_nil]
    exact ⟨rfl, List.forall_mem_cons.mpr ⟨inRange,
      List.forall_mem_singleton.mpr (Nat.zero_le _)⟩⟩

/-- When the loop returns from a last page with notes, additions are unchecked, and it has added the
notes of the request from the first block. -/
theorem of_paginate_end (build : BuildTarget) (serves : node.Serves chain) {left fuel call : ℕ}
    {cursor : BlockNumber} {last : NoteSyncInfo} {allBlocks blocks : List NoteBlock}
    (single : node.pages chain blockTo tags left call cursor = [last])
    (atEnd : last.blockTo + 1 = 2 ^ 32) (tip : 0 < chain.tip)
    (returned : (paginate build node blockTo tags fuel call cursor allBlocks).outcome =
      some (.ok blocks)) :
    build.overflowChecks = false ∧ (last.blocks = [] ∨
      ∀ again, node.syncNotes (call + 1) 0 blockTo tags = .ok again →
        allBlocks ++ last.blocks ++ again.blocks <+: blocks) := by
  obtain ⟨-, answered, sameTip⟩ := of_pages_eq_singleton serves single
  have requested := requestPage_of_last build answered atEnd
  cases fuel with
  | zero => cases returned
  | succ fuel =>
    rw [paginate, requested] at returned
    cases checked : build.overflowChecks with
    | true =>
      rw [checked] at returned
      cases returned
    | false =>
      refine ⟨rfl, Classical.or_iff_not_imp_left.mpr fun notEmpty again repeated => ?_⟩
      rw [checked, if_neg Bool.false_ne_true] at returned
      dsimp only at returned
      rw [if_neg ((isDone_zero last (sameTip ▸ tip)).not.mpr notEmpty)] at returned
      exact append_blocks_initial build node repeated returned

end Pages

/-! ### Complete answers -/

variable [NoteLibrary]

/-- The blocks are those of the range: each with notes exactly once, and no others. -/
structure ReturnsRange (chain : NoteChain) (tags : Finset NoteTag) (first last : BlockNumber)
    (blocks : List NoteBlock) : Prop where
  once : ∀ number block, first ≤ number → number ≤ last →
    chain.noteBlock tags number = some block →
    ∃ resolved, block.ResolvesTo resolved ∧
      blocks.filter (fun block => block.blockHeader.blockNum = number) = [resolved]
  only : ∀ block ∈ blocks,
    first ≤ block.blockHeader.blockNum ∧ block.blockHeader.blockNum ≤ last

/-- The call returns after finitely many requests with the blocks of the whole range, and it
never asks for a range that starts above the requested end. -/
structure SyncsWholeRange (build : BuildTarget) (node : NoteSyncNode) (chain : NoteChain)
    (blockFrom : BlockNumber) (blockTo : Option BlockNumber) (tags : Finset NoteTag) : Prop where
  returns : ∃ fuel result,
    (syncNotesWithDetails build node fuel blockFrom blockTo tags).outcome = some (.ok result) ∧
      ReturnsRange chain tags blockFrom (chain.rangeEnd blockTo) result.blocks
  requests : ∀ fuel, ∀ request ∈
    (syncNotesWithDetails build node fuel blockFrom blockTo tags).requests,
      ∀ bound, blockTo = some bound → request ≤ bound

/-- The pages of a requested range. There are at most as many as there are blocks in it. -/
def rangePages (node : NoteSyncNode) (chain : NoteChain) (blockFrom : BlockNumber)
    (blockTo : Option BlockNumber) (tags : Finset NoteTag) : List NoteSyncInfo :=
  node.pages chain blockTo tags (chain.rangeEnd blockTo + 1) 0 blockFrom

/-- The pages on which the loop works: the range reaches the block before the tip or has a page
without notes, and no page after one that is without notes or ends there has any. A last page that
ends with the last block number is not read, or additions are unchecked and that page or the answer
to the request from the first block that follows has no notes. -/
structure WellPaged (build : BuildTarget) (node : NoteSyncNode) (chain : NoteChain)
    (blockFrom : BlockNumber) (blockTo : Option BlockNumber) (tags : Finset NoteTag) : Prop where
  notAbove : ∀ bound, blockTo = some bound → blockFrom ≤ bound
  stops : chain.tip ≤ chain.rangeEnd blockTo + 1 ∨
    ∃ page ∈ node.rangePages chain blockFrom blockTo tags, page.blocks = []
  nothingAfter : (node.rangePages chain blockFrom blockTo tags).Pairwise fun page later =>
    page.blocks = [] ∨ chain.tip ≤ page.blockTo + 1 → later.blocks = []
  wraps : ∀ before last, node.rangePages chain blockFrom blockTo tags = before ++ [last] →
    last.blockTo + 1 = 2 ^ 32 →
    (∃ page ∈ before, page.blocks = [] ∨ chain.tip ≤ page.blockTo + 1) ∨
      (build.overflowChecks = false ∧ (last.blocks = [] ∨
        ∀ again, node.syncNotes (before.length + 1) 0 blockTo tags = .ok again →
          again.blocks = []))

variable {node : NoteSyncNode} {chain : NoteChain} {blockTo : Option BlockNumber}
  {tags : Finset NoteTag} {blockFrom : BlockNumber} {build : BuildTarget}

omit [NoteLibrary] in
theorem isLast_iff {page : NoteSyncInfo} (tip : page.chainTip = chain.tip) :
    page.isLast = true ↔ page.blocks = [] ∨ chain.tip ≤ page.blockTo + 1 := by
  unfold NoteSyncInfo.isLast NoteSyncInfo.isDone
  rw [Bool.or_eq_true, List.isEmpty_iff, decide_eq_true_eq, tip]

omit [NoteLibrary] in
/-- A page stops the loop exactly when the range reaches up to the tip or has an empty page. -/
theorem exists_isLast_iff (serves : node.Serves chain)
    (inRange : blockFrom ≤ chain.rangeEnd blockTo) :
    (∃ page ∈ node.rangePages chain blockFrom blockTo tags, page.isLast = true) ↔
      chain.tip ≤ chain.rangeEnd blockTo + 1 ∨
        ∃ page ∈ node.rangePages chain blockFrom blockTo tags, page.blocks = [] := by
  constructor
  · rintro ⟨page, member, done⟩
    obtain ⟨tip, upper⟩ := of_mem_pages serves _ _ _ member
    rcases (isLast_iff tip).mp done with empty | near
    · exact Or.inr ⟨page, member, empty⟩
    · exact Or.inl (near.trans (Nat.succ_le_succ upper))
  · rintro (near | ⟨page, member, empty⟩)
    · obtain ⟨page, member, atEnd⟩ := exists_page_at_end serves (chain.rangeEnd blockTo + 1) 0
        blockFrom inRange (Nat.le_add_right _ _)
      refine ⟨page, member, (isLast_iff (of_mem_pages serves _ _ _ member).1).mpr (Or.inr ?_)⟩
      rwa [atEnd]
    · exact ⟨page, member, (isLast_iff (of_mem_pages serves _ _ _ member).1).mpr (Or.inl empty)⟩

omit [NoteLibrary] in
/-- No page after a stopping one has notes exactly when the unread pages have none. -/
theorem nothingAfter_iff (serves : node.Serves chain) :
    ((node.rangePages chain blockFrom blockTo tags).Pairwise fun page later =>
      page.blocks = [] ∨ chain.tip ≤ page.blockTo + 1 → later.blocks = []) ↔
      (unreadPages (node.rangePages chain blockFrom blockTo tags)).flatMap
        NoteSyncInfo.blocks = [] := by
  rw [List.flatMap_eq_nil_iff, ← pairwise_isLast_iff]
  refine List.Pairwise.iff_of_mem fun {page later} member _ => ?_
  rw [isLast_iff (of_mem_pages serves _ _ _ member).1]

omit [NoteLibrary] in
theorem inRange_of_notAbove (known : blockFrom ≤ chain.tip)
    (notAbove : ∀ bound, blockTo = some bound → blockFrom ≤ bound) :
    blockFrom ≤ chain.rangeEnd blockTo := by
  rcases blockTo with _ | bound
  · exact known
  · exact le_min (notAbove bound rfl) known

omit [NoteLibrary] in
/-- The loop only passes the end of the range when the range ends at a requested block that is
well below the tip. -/
theorem rangeEnd_eq_of_continues (serves : node.Serves chain)
    (inRange : blockFrom ≤ chain.rangeEnd blockTo)
    (continues : ∀ page ∈ node.rangePages chain blockFrom blockTo tags, page.isLast ≠ true) :
    ∃ bound, blockTo = some bound ∧ chain.rangeEnd blockTo = bound := by
  have below : ¬ chain.tip ≤ chain.rangeEnd blockTo + 1 := by
    intro near
    obtain ⟨page, member, done⟩ := (exists_isLast_iff serves inRange).mpr (Or.inl near)
    exact continues page member done
  rcases blockTo with _ | bound
  · exact absurd (Nat.le_succ _) below
  · refine ⟨bound, rfl, ?_⟩
    rcases min_choice bound chain.tip with atBound | atTip
    · exact atBound
    · refine absurd ?_ below
      show chain.tip ≤ min bound chain.tip + 1
      rw [atTip]
      exact Nat.le_succ _

omit [NoteLibrary] in
theorem headers_eq_of_resolves {originals blocks : List NoteBlock}
    (resolves : List.Forall₂ NoteBlock.ResolvesTo originals blocks) :
    blocks.map NoteBlock.blockHeader = originals.map NoteBlock.blockHeader := by
  induction resolves with
  | nil => rfl
  | cons resolvesTo _ inductionHypothesis =>
    rw [List.map_cons, List.map_cons, resolvesTo.blockHeader, inductionHypothesis]

omit [NoteLibrary] in
theorem returnsRange_of_resolves {first last : ℕ} {blocks : List NoteBlock}
    (resolves : List.Forall₂ NoteBlock.ResolvesTo (chain.noteBlocks tags first last) blocks) :
    ReturnsRange chain tags first last blocks := by
  refine ⟨fun number block lower upper matching => ?_, fun block member => ?_⟩
  · have filtered := List.rel_filter (p := fun block => block.blockHeader.blockNum = number)
      (q := fun block => block.blockHeader.blockNum = number)
      (fun _ _ resolvesTo => by simp only [resolvesTo.blockHeader]) resolves
    rw [chain.filter_noteBlocks tags lower upper matching] at filtered
    obtain ⟨resolved, rest, resolvesTo, nothing, same⟩ :=
      List.forall₂_cons_left_iff.mp filtered
    rw [List.forall₂_nil_left_iff.mp nothing] at same
    exact ⟨resolved, resolvesTo, same⟩
  · have listed := List.mem_map_of_mem (f := NoteBlock.blockHeader) member
    rw [headers_eq_of_resolves resolves] at listed
    obtain ⟨original, found, same⟩ := List.mem_map.mp listed
    obtain ⟨number, lower, upper, matching⟩ := (chain.mem_noteBlocks tags).mp found
    rw [← same, chain.numbered _ _ _ matching]
    exact ⟨lower, upper⟩

omit [NoteLibrary] in
/-- A range that is returned from its first pages has no notes in the others. -/
theorem eq_nil_of_returnsRange {first last : ℕ} {read unread blocks : List NoteBlock}
    (split : read ++ unread = chain.noteBlocks tags first last)
    (resolves : List.Forall₂ NoteBlock.ResolvesTo read blocks)
    (returns : ReturnsRange chain tags first last blocks) : unread = [] := by
  refine List.eq_nil_iff_forall_not_mem.mpr fun block member => ?_
  have listed : block ∈ chain.noteBlocks tags first last := by
    rw [← split]
    exact List.mem_append_right _ member
  obtain ⟨number, lower, upper, matching⟩ := (chain.mem_noteBlocks tags).mp listed
  have numbered := chain.numbered _ _ _ matching
  obtain ⟨resolved, -, found⟩ := returns.once number block lower upper matching
  -- The block was returned, so its number is among the blocks that were read.
  have returned : number ∈ (blocks.map NoteBlock.blockHeader).map BlockHeader.blockNum := by
    have kept : resolved ∈ blocks.filter fun block => block.blockHeader.blockNum = number := by
      rw [found]
      exact List.mem_cons_self
    obtain ⟨inBlocks, same⟩ := List.mem_filter.mp kept
    rw [List.map_map]
    exact List.mem_map.mpr ⟨resolved, inBlocks, of_decide_eq_true same⟩
  rw [headers_eq_of_resolves resolves, List.map_map] at returned
  obtain ⟨other, inRead, same⟩ := List.mem_map.mp returned
  -- Only one block of the range has this number, and it would have to be in both parts.
  have single := chain.filter_noteBlocks tags lower upper matching
  rw [← split, List.filter_append] at single
  have twice := congrArg List.length single
  rw [List.length_append] at twice
  have before : 0 < (read.filter fun block => block.blockHeader.blockNum = number).length :=
    List.length_pos_of_mem (List.mem_filter.mpr ⟨inRead, decide_eq_true same⟩)
  have after : 0 < (unread.filter fun block => block.blockHeader.blockNum = number).length :=
    List.length_pos_of_mem (List.mem_filter.mpr ⟨member, decide_eq_true numbered⟩)
  rw [List.length_singleton] at twice
  omega

omit [NoteLibrary] in
/-- A list of blocks that returns a range has no others with notes of the chain. -/
theorem eq_nil_of_appended {first last : ℕ} {extra originals blocks : List NoteBlock}
    (initial : chain.noteBlocks tags first last ++ extra <+: originals)
    (resolves : List.Forall₂ NoteBlock.ResolvesTo originals blocks)
    (onChain : ∀ block ∈ extra, ∃ number, chain.noteBlock tags number = some block)
    (returns : ReturnsRange chain tags first last blocks) : extra = [] := by
  refine List.eq_nil_iff_forall_not_mem.mpr fun block member => ?_
  obtain ⟨number, matching⟩ := onChain block member
  have numbered := chain.numbered _ _ _ matching
  have listed : block ∈ originals := initial.subset (List.mem_append_right _ member)
  have resolvedHeader : block.blockHeader ∈ blocks.map NoteBlock.blockHeader := by
    rw [headers_eq_of_resolves resolves]
    exact List.mem_map_of_mem listed
  obtain ⟨returned, inBlocks, sameHeader⟩ := List.mem_map.mp resolvedHeader
  obtain ⟨lower, upper⟩ := returns.only returned inBlocks
  rw [sameHeader, numbered] at lower upper
  -- The range has the block already, so its number comes twice.
  have single := chain.filter_noteBlocks tags lower upper matching
  obtain ⟨resolved, -, found⟩ := returns.once number block lower upper matching
  have filtered := List.rel_filter (p := fun block => block.blockHeader.blockNum = number)
    (q := fun block => block.blockHeader.blockNum = number)
    (fun _ _ resolvesTo => by simp only [resolvesTo.blockHeader]) resolves
  have length := filtered.length_eq
  rw [found, List.length_singleton] at length
  have atMost := (initial.sublist.filter fun block => block.blockHeader.blockNum = number).length_le
  rw [List.filter_append, single, List.length_append, List.length_singleton, length] at atMost
  have twice : 0 < (extra.filter fun block => block.blockHeader.blockNum = number).length :=
    List.length_pos_of_mem (List.mem_filter.mpr ⟨member, decide_eq_true numbered⟩)
  omega

omit [NoteLibrary] in
/-- Either all pages that are read end before the last block number, or the last page of the range
ends with it and is read. -/
theorem below_or_readToEnd (serves : node.Serves chain) (blockFrom : BlockNumber)
    (blockTo : Option BlockNumber) (tags : Finset NoteTag) :
    (∀ page ∈ readPages (node.rangePages chain blockFrom blockTo tags),
      page.blockTo + 1 < 2 ^ 32) ∨
    ∃ before last, node.rangePages chain blockFrom blockTo tags = before ++ [last] ∧
      last.blockTo + 1 = 2 ^ 32 ∧ chain.tip + 1 = 2 ^ 32 ∧
      chain.rangeEnd blockTo = chain.tip ∧
      ∀ earlier ∈ before, earlier.isLast ≠ true ∧ earlier.blockTo + 1 < 2 ^ 32 := by
  refine Classical.or_iff_not_imp_left.mpr fun above => ?_
  push Not at above
  obtain ⟨last, read, large⟩ := above
  have listed : last ∈ node.rangePages chain blockFrom blockTo tags := by
    rw [← readPages_append_unreadPages (node.rangePages chain blockFrom blockTo tags)]
    exact List.mem_append_left _ read
  obtain ⟨-, upper⟩ := of_mem_pages serves _ _ _ listed
  have ordered := chain.rangeEnd_le_tip blockTo
  have atTip : chain.tip ≤ last.blockTo := Nat.le_of_lt_succ (chain.tip_lt.trans_le large)
  obtain ⟨before, split, passes⟩ :=
    eq_append_of_read_end serves read (le_antisymm upper (ordered.trans atTip))
  refine ⟨before, last, split, le_antisymm ?_ large, le_antisymm ?_ ?_, le_antisymm ordered ?_,
    fun earlier member => ?_⟩
  · exact Nat.succ_le_of_lt ((upper.trans ordered).trans_lt chain.tip_lt)
  · exact Nat.succ_le_of_lt chain.tip_lt
  · exact large.trans (Nat.succ_le_succ (upper.trans ordered))
  · exact atTip.trans upper
  · obtain ⟨continues, below⟩ := passes earlier member
    exact ⟨continues, (Nat.succ_le_of_lt below).trans_lt (ordered.trans_lt chain.tip_lt)⟩

omit [NoteLibrary] in
theorem flatMap_rangePages (serves : node.Serves chain) (blockFrom : BlockNumber)
    (blockTo : Option BlockNumber) (tags : Finset NoteTag) :
    (node.rangePages chain blockFrom blockTo tags).flatMap NoteSyncInfo.blocks =
      chain.noteBlocks tags blockFrom (chain.rangeEnd blockTo) :=
  flatMap_pages serves _ _ _ (Nat.le_add_right _ _)

omit [NoteLibrary] in
/-- The notes of the whole range are those of the pages, the read ones first. -/
theorem flatMap_readPages (serves : node.Serves chain) (blockFrom : BlockNumber)
    (blockTo : Option BlockNumber) (tags : Finset NoteTag) :
    (readPages (node.rangePages chain blockFrom blockTo tags)).flatMap NoteSyncInfo.blocks ++
      (unreadPages (node.rangePages chain blockFrom blockTo tags)).flatMap NoteSyncInfo.blocks =
        chain.noteBlocks tags blockFrom (chain.rangeEnd blockTo) := by
  rw [← List.flatMap_append, readPages_append_unreadPages, flatMap_rangePages serves]

/-- The blocks that the loop returns are those that the call returns the details of. -/
theorem exists_paginated {fuel : ℕ} {result : SyncNotesResult} (serves : node.Serves chain)
    (outcome : (syncNotesWithDetails build node fuel blockFrom blockTo tags).outcome =
      some (.ok result)) :
    ∃ blocks, (paginate build node blockTo tags fuel 0 blockFrom []).outcome = some (.ok blocks) ∧
      List.Forall₂ NoteBlock.ResolvesTo blocks result.blocks := by
  obtain ⟨returned, paginated, detailed⟩ := Option.map_eq_some_iff.mp outcome
  obtain ⟨blocks, rfl, resolved⟩ := Fallible.bind_eq_ok.mp detailed
  obtain ⟨details, fetched, resolves⟩ := fetchDetails_resolves serves blocks
  rw [fallible_eq_ok, fetched] at resolved
  obtain rfl := Except.ok.inj resolved
  exact ⟨blocks, paginated, resolves⟩

theorem exists_detailed {fuel : ℕ} {blocks : List NoteBlock} (serves : node.Serves chain)
    (paginated : (paginate build node blockTo tags fuel 0 blockFrom []).outcome =
      some (.ok blocks)) :
    ∃ result, (syncNotesWithDetails build node fuel blockFrom blockTo tags).outcome =
        some (.ok result) ∧ List.Forall₂ NoteBlock.ResolvesTo blocks result.blocks := by
  obtain ⟨details, fetched, resolves⟩ := fetchDetails_resolves serves blocks
  refine ⟨details, ?_, resolves⟩
  unfold syncNotesWithDetails
  dsimp only
  rw [paginated]
  exact congrArg some (fallible_eq_ok.mpr fetched)

theorem notAbove_of_syncs (syncs : SyncsWholeRange build node chain blockFrom blockTo tags) :
    ∀ bound, blockTo = some bound → blockFrom ≤ bound :=
  syncs.requests 1 blockFrom (mem_requests build node 0 0 blockFrom [])

/-- A loop that does not read the last block number returns the range only from pages on which it
works. -/
theorem wellPaged_of_below (serves : node.Serves chain) (known : blockFrom ≤ chain.tip)
    (below : ∀ page ∈ readPages (node.rangePages chain blockFrom blockTo tags),
      page.blockTo + 1 < 2 ^ 32)
    (syncs : SyncsWholeRange build node chain blockFrom blockTo tags) :
    WellPaged build node chain blockFrom blockTo tags := by
  have notAbove := notAbove_of_syncs syncs
  have inRange : blockFrom ≤ chain.rangeEnd blockTo := inRange_of_notAbove known notAbove
  have stops : ∃ page ∈ node.rangePages chain blockFrom blockTo tags, page.isLast = true := by
    by_contra continues
    push Not at continues
    obtain ⟨bound, same, atEnd⟩ := rangeEnd_eq_of_continues serves inRange continues
    have short : ¬ chain.tip ≤ chain.rangeEnd blockTo + 1 := fun near => by
      obtain ⟨page, member, isLast⟩ := (exists_isLast_iff serves inRange).mpr (Or.inl near)
      exact continues page member isLast
    have beyond := paginate_beyond build serves _ 0 blockFrom [] (Nat.le_succ_of_le inRange)
      (Nat.le_add_right _ _) ((not_le.mp short).trans chain.tip_lt) continues
    have within := syncs.requests _ _ beyond bound same
    rw [atEnd] at within
    exact absurd within (Nat.not_succ_le_self bound)
  refine ⟨notAbove, (exists_isLast_iff serves inRange).mp stops, (nothingAfter_iff serves).mpr ?_,
    fun before last split atEnd => Or.inl ?_⟩
  · obtain ⟨fuel, result, outcome, returns⟩ := syncs.returns
    obtain ⟨blocks, paginated, resolves⟩ := exists_paginated serves outcome
    have same := outcome_unique build node
      (paginate_outcome build serves _ 0 blockFrom [] stops below) paginated
    rw [List.nil_append] at same
    obtain rfl := Except.ok.inj same
    exact eq_nil_of_returnsRange (flatMap_readPages serves blockFrom blockTo tags) resolves returns
  · by_contra passed
    push Not at passed
    have read : last ∈ readPages (node.rangePages chain blockFrom blockTo tags) := by
      rw [split]
      refine mem_readPages_of_passed last fun earlier member isLast => ?_
      have listed : earlier ∈ node.rangePages chain blockFrom blockTo tags := by
        rw [split]
        exact List.mem_append_left _ member
      obtain ⟨notEmpty, short⟩ := passed earlier member
      rcases (isLast_iff (of_mem_pages serves _ _ _ listed).1).mp isLast with empty | near
      · exact notEmpty empty
      · exact absurd near (not_le.mpr short)
    exact absurd atEnd (below last read).ne

/-- A loop that does not read the last block number returns the range from pages on which it
works. -/
theorem syncsWholeRange_of_below (serves : node.Serves chain) (known : blockFrom ≤ chain.tip)
    (below : ∀ page ∈ readPages (node.rangePages chain blockFrom blockTo tags),
      page.blockTo + 1 < 2 ^ 32)
    (paged : WellPaged build node chain blockFrom blockTo tags) :
    SyncsWholeRange build node chain blockFrom blockTo tags := by
  have inRange : blockFrom ≤ chain.rangeEnd blockTo := inRange_of_notAbove known paged.notAbove
  have stops := (exists_isLast_iff serves inRange).mpr paged.stops
  refine ⟨⟨chain.rangeEnd blockTo + 1, ?_⟩, fun fuel request listed bound same => ?_⟩
  · obtain ⟨result, outcome, resolves⟩ := exists_detailed serves
      (paginate_outcome build serves _ 0 blockFrom [] stops below)
    have whole := flatMap_readPages serves blockFrom blockTo tags
    rw [(nothingAfter_iff serves).mp paged.nothingAfter, List.append_nil] at whole
    refine ⟨result, outcome, returnsRange_of_resolves ?_⟩
    rw [← whole]
    exact resolves
  · have upper := paginate_requests build serves _ fuel 0 blockFrom [] stops below request listed
    rw [same] at upper
    exact upper.trans (min_le_left _ _)

/-- A loop that reads a page that ends with the last block number returns the range only where
additions are unchecked, and when it finds no notes from the first block on. -/
theorem wellPaged_of_readToEnd (serves : node.Serves chain)
    {before : List NoteSyncInfo} {last : NoteSyncInfo}
    (split : node.rangePages chain blockFrom blockTo tags = before ++ [last])
    (atEnd : last.blockTo + 1 = 2 ^ 32) (tip : chain.tip + 1 = 2 ^ 32)
    (rangeEnd : chain.rangeEnd blockTo = chain.tip)
    (passes : ∀ earlier ∈ before, earlier.isLast ≠ true ∧ earlier.blockTo + 1 < 2 ^ 32)
    (syncs : SyncsWholeRange build node chain blockFrom blockTo tags) :
    WellPaged build node chain blockFrom blockTo tags := by
  refine ⟨notAbove_of_syncs syncs, Or.inl (rangeEnd ▸ Nat.le_succ _), ?_, ?_⟩
  · rw [split, List.pairwise_append]
    refine ⟨?_, List.pairwise_singleton _ _, fun earlier member _ _ isLast => ?_⟩
    · refine List.pairwise_iff_forall_sublist.mpr fun {earlier later} sublist isLast => ?_
      have member : earlier ∈ before := sublist.subset List.mem_cons_self
      have listed : earlier ∈ node.rangePages chain blockFrom blockTo tags :=
        split ▸ List.mem_append_left _ member
      exact absurd ((isLast_iff (of_mem_pages serves _ _ _ listed).1).mpr isLast)
        (passes earlier member).1
    · have listed : earlier ∈ node.rangePages chain blockFrom blockTo tags :=
        split ▸ List.mem_append_left _ member
      exact absurd ((isLast_iff (of_mem_pages serves _ _ _ listed).1).mpr isLast)
        (passes earlier member).1
  · intro others final same ends
    obtain ⟨rfl, sameLast⟩ := List.append_inj' (split.symm.trans same) rfl
    obtain rfl := List.head_eq_of_cons_eq sameLast
    refine Or.inr ?_
    obtain ⟨fuel, result, outcome, returns⟩ := syncs.returns
    obtain ⟨blocks, paginated, resolves⟩ := exists_paginated serves outcome
    obtain ⟨left, next, requests, single, -, runs⟩ := paginate_before build serves split passes
    have longer := outcome_mono build node (Nat.le_add_left fuel before.length) paginated
    rw [runs] at longer
    dsimp only at longer
    rw [Nat.zero_add] at longer single
    obtain ⟨unchecked, ends⟩ := of_paginate_end build serves single atEnd (chain.tip_pos tip) longer
    refine ⟨unchecked, ends.imp_right fun added again repeated => ?_⟩
    have initial := added again repeated
    rw [List.nil_append, ← List.flatMap_singleton NoteSyncInfo.blocks last, ← List.flatMap_append,
      ← split, flatMap_rangePages serves] at initial
    refine eq_nil_of_appended initial resolves (fun block member => ?_) returns
    obtain ⟨other, answered, page⟩ := serves.page (before.length + 1) 0 blockTo tags (Nat.zero_le _)
    obtain rfl := Except.ok.inj (answered.symm.trans repeated)
    rw [page.blocks] at member
    obtain ⟨number, -, -, matching⟩ := (chain.mem_noteBlocks tags).mp member
    exact ⟨number, matching⟩

/-- A loop that reads a page that ends with the last block number returns the range where additions
are unchecked and it finds no notes from the first block on. -/
theorem syncsWholeRange_of_readToEnd (serves : node.Serves chain)
    {before : List NoteSyncInfo} {last : NoteSyncInfo}
    (split : node.rangePages chain blockFrom blockTo tags = before ++ [last])
    (atEnd : last.blockTo + 1 = 2 ^ 32) (tip : chain.tip + 1 = 2 ^ 32)
    (passes : ∀ earlier ∈ before, earlier.isLast ≠ true ∧ earlier.blockTo + 1 < 2 ^ 32)
    (paged : WellPaged build node chain blockFrom blockTo tags) :
    SyncsWholeRange build node chain blockFrom blockTo tags := by
  obtain ⟨left, next, requests, single, within, runs⟩ := paginate_before build serves split passes
  have continues : ¬∃ page ∈ before, page.blocks = [] ∨ chain.tip ≤ page.blockTo + 1 := by
    rintro ⟨page, member, stops⟩
    have listed : page ∈ node.rangePages chain blockFrom blockTo tags :=
      split ▸ List.mem_append_left _ member
    exact (passes page member).1
      ((isLast_iff (of_mem_pages serves _ _ _ listed).1).mpr stops)
  obtain ⟨unchecked, ends⟩ := (paged.wraps before last split atEnd).resolve_left continues
  rw [Nat.zero_add] at single
  have finish := fun more => paginate_end build serves single atEnd (chain.tip_pos tip) unchecked
    ends more ([] ++ before.flatMap NoteSyncInfo.blocks)
  refine ⟨⟨before.length + 2, ?_⟩, fun fuel request listed bound same => ?_⟩
  · have paginated := runs 2 []
    rw [Nat.zero_add] at paginated
    obtain ⟨result, outcome, resolves⟩ := exists_detailed serves
      ((congrArg Paginated.outcome paginated).trans (finish 0).1)
    refine ⟨result, outcome, returnsRange_of_resolves ?_⟩
    rw [← flatMap_rangePages serves, split, List.flatMap_append, List.flatMap_singleton]
    exact resolves
  · have longer := requests_mono build node (by omega : fuel ≤ before.length + (fuel + 2)) 0
      blockFrom [] listed
    rw [runs, Nat.zero_add] at longer
    have upper : request ≤ chain.rangeEnd blockTo := by
      rcases List.mem_append.mp longer with early | late
      · exact within request early
      · exact (finish fuel).2 request late
    rw [same] at upper
    exact upper.trans (min_le_left _ _)

/-- The call returns the whole range, each of its note blocks once, with no request above the
requested end, exactly when the range is well paged. -/
theorem syncsWholeRange_iff_wellPaged (serves : node.Serves chain)
    (known : blockFrom ≤ chain.tip) :
    SyncsWholeRange build node chain blockFrom blockTo tags ↔
      WellPaged build node chain blockFrom blockTo tags := by
  rcases below_or_readToEnd serves blockFrom blockTo tags with
    below | ⟨before, last, split, atEnd, tip, rangeEnd, passes⟩
  · exact ⟨wellPaged_of_below serves known below, syncsWholeRange_of_below serves known below⟩
  · exact ⟨wellPaged_of_readToEnd serves split atEnd tip rangeEnd passes,
      syncsWholeRange_of_readToEnd serves split atEnd tip passes⟩

end NoteSyncNode

namespace Sample

open NoteSyncNode

/-- A chain of four blocks with a private note in the second and one in the last. -/
def noteChain : NoteChain where
  tip := 3
  tip_lt := by decide
  noteBlock _ number :=
    if number = 1 ∨ number = 3 then
      some ⟨⟨number, 7, 100⟩, (∅ : ExtTreeMap NoteId CommittedNote).insert number
        ⟨number, .isPrivate, some ⟨2, .isPrivate, 9, 0⟩, ⟨number, 0, [7]⟩⟩⟩
    else none
  numbered _ number block found := by
    split at found
    · cases found
      rfl
    · cases found

/-- A node that answers with three blocks at a time. -/
def noteNode : NoteSyncNode where
  syncNotes _ cursor blockTo tags :=
    let last := min (cursor + 2) (noteChain.rangeEnd blockTo)
    .ok ⟨noteChain.tip, last, noteChain.noteBlocks tags cursor last⟩
  getNotesById _ := .ok []

theorem noteNode_serves : noteNode.Serves noteChain := by
  refine ⟨fun call cursor blockTo tags inRange => ⟨_, rfl, ?_⟩, fun ids => ⟨_, rfl⟩⟩
  exact ⟨rfl, le_min (Nat.le_add_right _ _) inRange, min_le_right _ _, rfl⟩

/-- The range up to the third block comes in one page. -/
theorem syncsWholeRange_onePage :
    SyncsWholeRange ⟨64, true⟩ noteNode noteChain 0 (some 2) {9} := by
  refine (syncsWholeRange_iff_wellPaged noteNode_serves (by decide)).mpr ⟨?_, Or.inl ?_, ?_, ?_⟩
  · intro bound same
    exact Nat.zero_le bound
  · decide
  · exact List.pairwise_singleton _ _
  · intro before last split atEnd
    have listed : last ∈ noteNode.rangePages noteChain 0 (some 2) {9} :=
      split ▸ List.mem_append_right before List.mem_cons_self
    obtain ⟨-, upper⟩ := of_mem_pages noteNode_serves _ _ _ listed
    exact absurd (atEnd.symm.trans_le (Nat.succ_le_succ upper)) (by decide)

/-- The first page ends one block before the tip, so the note at the tip is never asked for. -/
theorem not_syncsWholeRange_tip :
    ¬ SyncsWholeRange ⟨64, true⟩ noteNode noteChain 0 (some 3) {9} := by
  intro syncs
  obtain ⟨fuel, result, outcome, returns⟩ := syncs.returns
  have returned : (result.blocks.map NoteBlock.blockHeader).map BlockHeader.blockNum = [1] := by
    obtain ⟨details, fetched, resolves⟩ :=
      fetchDetails_resolves noteNode_serves (noteChain.noteBlocks {9} 0 2)
    cases fuel with
    | zero => cases outcome
    | succ fuel =>
      have same : result = details :=
        Except.ok.inj ((Option.some.inj outcome.symm).trans (fallible_eq_ok.mpr fetched))
      rw [same, headers_eq_of_resolves resolves]
      rfl
  obtain ⟨resolved, -, found⟩ := returns.once 3 _ (by decide) (by decide) rfl
  have member : resolved ∈ result.blocks.filter fun block => block.blockHeader.blockNum = 3 := by
    rw [found]
    exact List.mem_cons_self
  obtain ⟨listed, number⟩ := List.mem_filter.mp member
  have contradiction : 3 ∈ (result.blocks.map NoteBlock.blockHeader).map BlockHeader.blockNum := by
    rw [List.map_map]
    exact List.mem_map.mpr ⟨resolved, listed, of_decide_eq_true number⟩
  rw [returned] at contradiction
  exact absurd contradiction (by decide)

end Sample

end MidenClient
