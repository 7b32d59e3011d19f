/-
This file models the check that an account can send what a request asks for
(`rust-client/src/transaction/mod.rs`, `validate_basic_account_request`), and the collection of
assets it is made of (`rust-client/src/transaction/request/mod.rs`, `collect_assets`).

Amounts are words of 64 bits that are added without a check. A program that is built for
debugging panics when a sum does not fit, and a released one goes on with what is left of it.
The notes to be sent are counted by their ids, once as they are given and once with the recipients
that the request expects.
-/

import MidenClient.Library.CheckedSums
import MidenClient.Transaction.RequestBuilder

namespace MidenClient

open Std (ExtTreeMap)
open Panicking
open CheckedSums

/-- Why a request is refused. The faucet that an error names is the one of the asset. -/
inductive AssetError where
  | fungibleAssetAmountNotSufficient (minuend subtrahend : ℕ)
  | nonFungibleFaucetIdTypeMismatch (asset : Word)
  deriving DecidableEq, Repr

namespace Account

/-- `AssetVault::get_balance`, or zero. -/
def balance (account : Account) (faucetId : AccountId) : ℕ :=
  match account.vault[AssetVaultKey.fungible faucetId]? with
  | some (.fungible asset) => asset.amount
  | _ => 0

def hasNonFungibleAsset (account : Account) (asset : Word) : Bool :=
  (account.vault[AssetVaultKey.nonFungible asset]?).isSome

end Account

/-! ### Collecting assets -/

/-- The fungible totals and the non-fungible assets collected so far. -/
abbrev CollectedAssets := ExtTreeMap AccountId ℕ × List Word

def collectAsset {ε : Type} (mode : OverflowMode) (collected : CollectedAssets) :
    Asset → Except (Failure ε) CollectedAssets
  | .fungible asset => do
    let sums ← accumulate mode collected.1 (asset.faucetId, asset.amount)
    return (sums, collected.2)
  | .nonFungible asset =>
    .ok (collected.1, if asset ∈ collected.2 then collected.2 else collected.2 ++ [asset])

/-- Accumulates fungible totals and non-fungible assets. -/
def collectAssets {ε : Type} (mode : OverflowMode) (assets : List Asset) :
    Except (Failure ε) CollectedAssets :=
  assets.foldlM (collectAsset mode) (∅, [])

/-- The account balance plus incoming assets is at least the outgoing amount. -/
def checkFungible (mode : OverflowMode) (account : Account) (incoming : ExtTreeMap AccountId ℕ)
    (outgoing : AccountId × ℕ) : Except (Failure AssetError) Unit := do
  let accountAssetAmount := account.balance outgoing.1
  let available ← add mode accountAssetAmount (incoming[outgoing.1]?.getD 0)
  if available < outgoing.2 then
    throw (.error (.fungibleAssetAmountNotSufficient accountAssetAmount outgoing.2))

/-- The asset is in the account or among the incoming ones. -/
def checkNonFungible (account : Account) (incoming : List Word) (asset : Word) :
    Except (Failure AssetError) Unit :=
  if account.hasNonFungibleAsset asset then .ok ()
  else if asset ∈ incoming then .ok ()
  else .error (.error (.nonFungibleFaucetIdTypeMismatch asset))

section Requests

variable [NoteLibrary] [RequestLibrary]

def PartialNote.id (note : PartialNote) : NoteId :=
  NoteLibrary.noteId note.recipientDigest (NoteLibrary.assetsCommitment note.assets)

namespace FullTransactionRequest

variable (request : FullTransactionRequest)

/-- The notes that the script is to create. -/
def sentNotes : List PartialNote :=
  match request.scriptTemplate with
  | some (.sendNotes notes) => notes
  | _ => []

/-- The assets of the notes to be sent, by the id of the note. -/
def ownNotesAssets : ExtTreeMap NoteId (List Asset) :=
  OrderedMap.insertAll ∅ (request.sentNotes.map fun note => (note.id, note.assets))

def incomingAssets : List Asset :=
  request.inputNotes.flatMap fun note => note.details.assets

/-- Helper to get the account outgoing assets. -/
def getOutgoingAssets (mode : OverflowMode) : Except (Failure AssetError) CollectedAssets := do
  let outputNotes ← mapFailure Empty.elim request.expectedOutputOwnNotes
  let outputNotesAssets : ExtTreeMap NoteId (List Asset) :=
    OrderedMap.insertAll ∅ (outputNotes.map fun note => (note.id, note.details.assets))
  let merged := OrderedMap.insertAll outputNotesAssets request.ownNotesAssets.toList
  collectAssets mode (OrderedMap.values merged).flatten

/-- Ensures a transaction request is compatible with the current account state. -/
def validateBasicAccountRequest (mode : OverflowMode) (account : Account) :
    Except (Failure AssetError) Unit := do
  let outgoing ← request.getOutgoingAssets mode
  let incoming ← collectAssets mode request.incomingAssets
  outgoing.1.toList.forM (checkFungible mode account incoming.1)
  outgoing.2.forM (checkNonFungible account incoming.2)

end FullTransactionRequest

/-! ### What is meant -/

/-- The amounts of the fungible assets, by faucet. -/
def fungibles (assets : List Asset) : List (AccountId × ℕ) :=
  assets.filterMap fun asset => match asset with
    | .fungible asset => some (asset.faucetId, asset.amount)
    | .nonFungible _ => none

/-- With the exact sums, the account and the incoming assets have what goes out. -/
structure Covered (account : Account) (outgoing incoming : List Asset) : Prop where
  fungible : ∀ faucetId, total (fungibles outgoing) faucetId ≤
    account.balance faucetId + total (fungibles incoming) faucetId
  nonFungible : ∀ asset, Asset.nonFungible asset ∈ outgoing →
    account.hasNonFungibleAsset asset = true ∨ Asset.nonFungible asset ∈ incoming

namespace FullTransactionRequest

variable (request : FullTransactionRequest)

/-- The assets of the notes to be sent, each note once. -/
def sentAssets : List Asset :=
  (OrderedMap.values request.ownNotesAssets).flatten

/-- The id that a note has with the recipient that is expected for it. -/
def expectedNoteId (note : PartialNote) : NoteId :=
  match request.expectedOutputRecipients[note.recipientDigest]? with
  | some recipient =>
    NoteLibrary.noteId recipient.digest (NoteLibrary.assetsCommitment note.assets)
  | none => note.id

/-- The assets of the notes to be sent, each note once under its id and under the id that it has
with the expected recipient. -/
def countedAssets : List Asset :=
  (OrderedMap.values (OrderedMap.insertAll
    (OrderedMap.insertAll ∅ (request.sentNotes.map fun note =>
      (request.expectedNoteId note, note.assets))) request.ownNotesAssets.toList)).flatten

/-- Every amount in a note is that of a valid asset. -/
structure ValidAmounts : Prop where
  sent : ∀ note ∈ request.sentNotes, ∀ asset, Asset.fungible asset ∈ note.assets →
    asset.amount < 2 ^ 63
  inputs : ∀ note ∈ request.inputNotes, ∀ asset, Asset.fungible asset ∈ note.details.assets →
    asset.amount < 2 ^ 63

/-- In every build the request is answered, so no sum exceeds its word, and accepted exactly when
the account can send the notes. -/
def ValidatesExactly (account : Account) : Prop :=
  ∀ mode, Returns (request.validateBasicAccountRequest mode account) ∧
    (request.validateBasicAccountRequest mode account = .ok () ↔
      Covered account request.sentAssets request.incomingAssets)

end FullTransactionRequest

/-- The sums that are needed fit: those of each faucet, and for each faucet in turn, up to the first
whose outgoing sum is not covered, the balance with the incoming sum. -/
structure SumsFit (account : Account) (outgoing incoming : List Asset) : Prop where
  outgoingFits : ∀ faucetId, total (fungibles outgoing) faucetId < 2 ^ 64
  incomingFits : ∀ faucetId, total (fungibles incoming) faucetId < 2 ^ 64
  availableFits : ∀ faucetId ∈ (fungibles outgoing).map Prod.fst,
    (∀ other ∈ (fungibles outgoing).map Prod.fst, other < faucetId →
      total (fungibles outgoing) other ≤ account.balance other + total (fungibles incoming) other) →
    account.balance faucetId + total (fungibles incoming) faucetId < 2 ^ 64

end Requests

/-! ### The collected assets -/

section Collecting

variable {ε : Type}

/-- What is collected are the exact sums and the non-fungible assets. -/
structure Collected (collected : CollectedAssets) (assets : List Asset) : Prop where
  sums : Sums collected.1 (fungibles assets)
  nonFungible : ∀ asset, asset ∈ collected.2 ↔ Asset.nonFungible asset ∈ assets

theorem collected_empty : Collected (∅, []) [] :=
  ⟨sums_empty, fun asset => by simp⟩

theorem fungibles_append (first second : List Asset) :
    fungibles (first ++ second) = fungibles first ++ fungibles second := by
  unfold fungibles
  rw [List.filterMap_append]

theorem Collected.nonFungible_step {collected : CollectedAssets} {assets : List Asset}
    (holds : Collected collected assets) (mode : OverflowMode) (asset : Word) : ∃ next,
      collectAsset mode collected (.nonFungible asset) = (.ok next : Except (Failure ε) _) ∧
        Collected next (assets ++ [.nonFungible asset]) := by
  refine ⟨_, rfl, ?_, fun other => ?_⟩
  · rw [fungibles_append]
    show Sums collected.1 (fungibles assets ++ [])
    rw [List.append_nil]
    exact holds.sums
  · have member : other ∈ (if asset ∈ collected.2 then collected.2 else collected.2 ++ [asset]) ↔
        other ∈ collected.2 ∨ other = asset := by
      split
      · rename_i present
        refine (or_iff_left_of_imp ?_).symm
        rintro rfl
        exact present
      · rw [List.mem_append, List.mem_singleton]
    rw [member, holds.nonFungible, List.mem_append, List.mem_singleton, Asset.nonFungible.injEq]

theorem Collected.fungible_step {collected : CollectedAssets} {assets : List Asset}
    (holds : Collected collected assets) (mode : OverflowMode) {asset : FungibleAsset}
    (fits : total (fungibles (assets ++ [.fungible asset])) asset.faucetId < 2 ^ 64) : ∃ next,
      collectAsset mode collected (.fungible asset) = (.ok next : Except (Failure ε) _) ∧
        Collected next (assets ++ [.fungible asset]) := by
  rw [fungibles_append] at fits
  obtain ⟨sums, accumulated, summed⟩ :=
    holds.sums.accumulate_of_fits (ε := ε) (asset.faucetId, asset.amount) fits mode
  refine ⟨(sums, collected.2), ?_, ?_, fun other => ?_⟩
  · show accumulate mode collected.1 _ >>= _ = _
    rw [accumulated]
    rfl
  · rw [fungibles_append]
    exact summed
  · rw [holds.nonFungible, List.mem_append, List.mem_singleton]
    exact (or_iff_left (by rintro ⟨⟩)).symm

/-- Sums that fit are collected exactly, however the program was built. -/
theorem collectAssets_of_fits {assets : List Asset}
    (fits : ∀ faucetId, total (fungibles assets) faucetId < 2 ^ 64) (mode : OverflowMode) :
    ∃ collected, (collectAssets mode assets : Except (Failure ε) _) = .ok collected ∧
      Collected collected assets := by
  suffices step : ∀ (rest done : List Asset) (collected : CollectedAssets),
      Collected collected done → done ++ rest = assets → ∃ last,
        (rest.foldlM (collectAsset mode) collected : Except (Failure ε) _) = .ok last ∧
          Collected last assets by
    exact step assets [] (∅, []) collected_empty rfl
  intro rest
  induction rest with
  | nil =>
    rintro done collected holds same
    rw [List.append_nil] at same
    exact ⟨collected, rfl, same ▸ holds⟩
  | cons asset rest inductionHypothesis =>
    rintro done collected holds same
    have grown : (done ++ [asset]) ++ rest = assets := by rw [List.append_assoc]; exact same
    obtain ⟨next, stepped, collectedNext⟩ : ∃ next,
        (collectAsset mode collected asset : Except (Failure ε) _) = .ok next ∧
          Collected next (done ++ [asset]) := by
      cases asset with
      | nonFungible asset => exact holds.nonFungible_step mode asset
      | fungible asset =>
        refine holds.fungible_step mode (lt_of_le_of_lt ?_ (fits asset.faucetId))
        rw [← grown, fungibles_append (done ++ _), total_append]
        exact Nat.le_add_right _ _
    obtain ⟨last, finished, collectedLast⟩ := inductionHypothesis _ next collectedNext grown
    refine ⟨last, ?_, collectedLast⟩
    rw [List.foldlM_cons, stepped]
    exact finished

/-- A sum that does not fit ends a program that panics on overflow. -/
theorem collectAssets_panics {assets : List Asset}
    (valid : ∀ asset, Asset.fungible asset ∈ assets → asset.amount < 2 ^ 63)
    (exceeds : ¬ ∀ faucetId, total (fungibles assets) faucetId < 2 ^ 64) :
    (collectAssets .panics assets : Except (Failure ε) _) =
      .error (.panicked "attempt to add with overflow") := by
  suffices step : ∀ (rest done : List Asset) (collected : CollectedAssets),
      Collected collected done → (∀ faucetId, total (fungibles done) faucetId < 2 ^ 64) →
        done ++ rest = assets →
          (rest.foldlM (collectAsset .panics) collected : Except (Failure ε) _) =
            .error (.panicked "attempt to add with overflow") by
    refine step assets [] (∅, []) collected_empty (fun faucetId => ?_) rfl
    exact Nat.two_pow_pos 64
  intro rest
  induction rest with
  | nil =>
    rintro done collected holds fits same
    rw [List.append_nil] at same
    exact absurd (same ▸ fits) exceeds
  | cons asset rest inductionHypothesis =>
    rintro done collected holds fits same
    have grown : (done ++ [asset]) ++ rest = assets := by rw [List.append_assoc]; exact same
    rw [List.foldlM_cons]
    cases asset with
    | nonFungible asset =>
      obtain ⟨next, stepped, collectedNext⟩ := holds.nonFungible_step (ε := ε) .panics asset
      rw [stepped]
      refine inductionHypothesis _ next collectedNext (fun faucetId => ?_) grown
      rw [fungibles_append, total_append]
      exact fits faucetId
    | fungible asset =>
      by_cases fitsHere : total (fungibles (done ++ [.fungible asset])) asset.faucetId < 2 ^ 64
      · obtain ⟨next, stepped, collectedNext⟩ := holds.fungible_step (ε := ε) .panics fitsHere
        rw [stepped]
        refine inductionHypothesis _ next collectedNext (fun faucetId => ?_) grown
        by_cases same : asset.faucetId = faucetId
        · rwa [← same]
        · rw [fungibles_append, total_append]
          show _ + total [(asset.faucetId, asset.amount)] faucetId < _
          rw [total_singleton, if_neg same]
          exact fits faucetId
      · have small : asset.amount < 2 ^ 64 :=
          lt_trans (valid asset (by rw [← same]; simp)) (by norm_num)
        rw [fungibles_append] at fitsHere
        have panicked := holds.sums.accumulate_panics (ε := ε)
          (asset.faucetId, asset.amount) small fitsHere
        show (accumulate .panics collected.1 _ >>= _) >>= _ = _
        rw [panicked]
        rfl

end Collecting

/-! ### The checks -/

section Checks

variable {account : Account} {incoming : List Asset} {incomingSums : ExtTreeMap AccountId ℕ}

/-- The first item is checked before the others. -/
theorem forM_cons_eq {item : Type} (check : item → Except (Failure AssetError) Unit) (first : item)
    (rest : List item) : (first :: rest).forM check = (check first >>= fun _ => rest.forM check) :=
  rfl

/-- The balance and the incoming assets have the amount. -/
def Sufficient (account : Account) (incoming : List Asset) (entry : AccountId × ℕ) : Prop :=
  entry.2 ≤ account.balance entry.1 + total (fungibles incoming) entry.1

/-- The balance and the incoming assets fit into a word together. -/
def Available (account : Account) (incoming : List Asset) (entry : AccountId × ℕ) : Prop :=
  account.balance entry.1 + total (fungibles incoming) entry.1 < 2 ^ 64

theorem checkFungible_of_available (sums : Sums incomingSums (fungibles incoming))
    {entry : AccountId × ℕ} (available : Available account incoming entry) (mode : OverflowMode) :
    Returns (checkFungible mode account incomingSums entry) ∧
      (checkFungible mode account incomingSums entry = .ok () ↔
        Sufficient account incoming entry) := by
  unfold checkFungible
  dsimp only
  rw [sums.getD_eq_total, add_of_fits available]
  show Returns (if _ < _ then _ else _) ∧ ((if _ < _ then _ else _) = _ ↔ _)
  unfold Sufficient
  split
  · rename_i short
    refine ⟨returns_error _, fun same => (nomatch same), fun enough => ?_⟩
    exact absurd short (not_lt.mpr enough)
  · rename_i enough
    exact ⟨returns_ok _, fun _ => not_lt.mp enough, fun _ => rfl⟩

theorem checkFungible_panics (sums : Sums incomingSums (fungibles incoming))
    {entry : AccountId × ℕ} (exceeds : ¬ Available account incoming entry) :
    checkFungible .panics account incomingSums entry =
      .error (.panicked "attempt to add with overflow") := by
  unfold checkFungible
  dsimp only
  rw [sums.getD_eq_total, add_panics exceeds]
  rfl

/-- The amounts are checked one by one. While the sums fit, this ends in every build. -/
theorem forM_checkFungible (sums : Sums incomingSums (fungibles incoming))
    {entries : List (AccountId × ℕ)}
    (fits : SafeWhile (Sufficient account incoming) (Available account incoming) entries)
    (mode : OverflowMode) :
    Returns (entries.forM (checkFungible mode account incomingSums)) ∧
      (entries.forM (checkFungible mode account incomingSums) = .ok () ↔
        ∀ entry ∈ entries, Sufficient account incoming entry) := by
  induction entries with
  | nil => exact ⟨returns_ok _, fun _ => List.forall_mem_nil _, fun _ => rfl⟩
  | cons entry rest inductionHypothesis =>
    obtain ⟨here, later⟩ := fits
    obtain ⟨returns, accepted⟩ := checkFungible_of_available sums here mode
    rw [List.forall_mem_cons, forM_cons_eq, returns_bind, Fallible.bind_eq_ok]
    refine ⟨⟨returns, fun _ passed => ?_⟩, ?_, ?_⟩
    · exact (inductionHypothesis (later (accepted.mp passed))).1
    · rintro ⟨_, passed, others⟩
      have enough := accepted.mp passed
      exact ⟨enough, (inductionHypothesis (later enough)).2.mp others⟩
    · rintro ⟨enough, others⟩
      exact ⟨(), accepted.mpr enough, (inductionHypothesis (later enough)).2.mpr others⟩

theorem not_returns_forM_checkFungible (sums : Sums incomingSums (fungibles incoming))
    {entries : List (AccountId × ℕ)}
    (exceeds : ¬ SafeWhile (Sufficient account incoming) (Available account incoming) entries) :
    ¬ Returns (entries.forM (checkFungible .panics account incomingSums)) := by
  induction entries with
  | nil => exact absurd trivial exceeds
  | cons entry rest inductionHypothesis =>
    rw [forM_cons_eq, returns_bind]
    rintro ⟨returns, others⟩
    by_cases here : Available account incoming entry
    · refine exceeds ⟨here, fun enough => ?_⟩
      by_contra later
      exact inductionHypothesis later
        (others () ((checkFungible_of_available sums here .panics).2.mpr enough))
    · exact returns _ (checkFungible_panics sums here)

theorem forM_checkNonFungible (account : Account) (incomingAssets assets : List Word) :
    Returns (assets.forM (checkNonFungible account incomingAssets)) ∧
      (assets.forM (checkNonFungible account incomingAssets) = .ok () ↔
        ∀ asset ∈ assets, account.hasNonFungibleAsset asset = true ∨ asset ∈ incomingAssets) := by
  induction assets with
  | nil => exact ⟨returns_ok _, fun _ => List.forall_mem_nil _, fun _ => rfl⟩
  | cons asset rest inductionHypothesis =>
    have checked : Returns (checkNonFungible account incomingAssets asset) ∧
        (checkNonFungible account incomingAssets asset = .ok () ↔
          account.hasNonFungibleAsset asset = true ∨ asset ∈ incomingAssets) := by
      unfold checkNonFungible
      split_ifs with held arrives
      · exact ⟨returns_ok _, fun _ => Or.inl held, fun _ => rfl⟩
      · exact ⟨returns_ok _, fun _ => Or.inr arrives, fun _ => rfl⟩
      · refine ⟨returns_error _, fun same => (nomatch same), ?_⟩
        rintro (present | present)
        · exact absurd present held
        · exact absurd present arrives
    rw [List.forall_mem_cons, forM_cons_eq, returns_bind, Fallible.bind_eq_ok]
    refine ⟨⟨checked.1, fun _ _ => inductionHypothesis.1⟩, ?_, ?_⟩
    · rintro ⟨_, here, later⟩
      exact ⟨checked.2.mp here, inductionHypothesis.2.mp later⟩
    · rintro ⟨here, later⟩
      exact ⟨(), checked.2.mpr here, inductionHypothesis.2.mpr later⟩

variable {outgoing : List Asset} {outgoingSums : ExtTreeMap AccountId ℕ}

/-- The entries of the outgoing sums. -/
theorem mem_toList_sums {entries : List (AccountId × ℕ)} (sums : Sums outgoingSums entries)
    (entry : AccountId × ℕ) : entry ∈ outgoingSums.toList ↔
      entry.1 ∈ entries.map Prod.fst ∧ entry.2 = total entries entry.1 := by
  rw [ExtTreeMap.mem_toList_iff_getElem?_eq_some, sums entry.1]
  split
  · rename_i listed
    rw [Option.some.injEq]
    exact ⟨fun same => ⟨listed, same.symm⟩, fun both => both.2.symm⟩
  · rename_i absent
    exact ⟨fun same => (nomatch same), fun both => absurd both.1 absent⟩

/-- The sums that are checked in the order of the faucets. -/
theorem safeWhile_toList_iff (account : Account) (incoming : List Asset)
    (sums : Sums outgoingSums (fungibles outgoing)) :
    SafeWhile (Sufficient account incoming) (Available account incoming) outgoingSums.toList ↔
      ∀ faucetId ∈ (fungibles outgoing).map Prod.fst,
        (∀ other ∈ (fungibles outgoing).map Prod.fst, other < faucetId →
          total (fungibles outgoing) other ≤
            account.balance other + total (fungibles incoming) other) →
        account.balance faucetId + total (fungibles incoming) faucetId < 2 ^ 64 := by
  have rising := OrderedMap.pairwise_lt_toList outgoingSums
  rw [safeWhile_iff]
  constructor
  · intro safe faucetId listed sufficient
    obtain ⟨before, after, split⟩ := List.append_of_mem
      ((mem_toList_sums sums (faucetId, total (fungibles outgoing) faucetId)).mpr ⟨listed, rfl⟩)
    refine safe before _ after split fun other member => ?_
    rw [split] at rising
    have below : other.1 < faucetId :=
      (List.pairwise_append.mp rising).2.2 other member _ List.mem_cons_self
    obtain ⟨otherListed, same⟩ :=
      (mem_toList_sums sums _).mp (split ▸ List.mem_append_left _ member)
    unfold Sufficient
    rw [same]
    exact sufficient other.1 otherListed below
  · intro available before entry after split sufficient
    obtain ⟨listed, _⟩ := (mem_toList_sums sums entry).mp
      (split ▸ List.mem_append_right before List.mem_cons_self : entry ∈ outgoingSums.toList)
    refine available entry.1 listed fun other otherListed below => ?_
    have member := (mem_toList_sums sums (other, total (fungibles outgoing) other)).mpr
      ⟨otherListed, rfl⟩
    rw [split] at member rising
    rcases List.mem_append.mp member with early | late
    · exact sufficient _ early
    · rcases List.mem_cons.mp late with rfl | behind
      · exact absurd below (lt_irrefl _)
      · have above := (List.pairwise_cons.mp (List.pairwise_append.mp rising).2.1).1 _ behind
        exact absurd (lt_trans above below) (lt_irrefl _)

/-- The checks on collected assets: whether they end, and what they accept. -/
theorem checks_of_fits {incomingCollected outgoingCollected : CollectedAssets}
    (incomingHolds : Collected incomingCollected incoming)
    (outgoingHolds : Collected outgoingCollected outgoing)
    (fits : SafeWhile (Sufficient account incoming) (Available account incoming)
      outgoingCollected.1.toList) (mode : OverflowMode) :
    Returns (do
      outgoingCollected.1.toList.forM (checkFungible mode account incomingCollected.1)
      outgoingCollected.2.forM (checkNonFungible account incomingCollected.2)) ∧
    ((do
      outgoingCollected.1.toList.forM (checkFungible mode account incomingCollected.1)
      outgoingCollected.2.forM (checkNonFungible account incomingCollected.2)) =
        (.ok () : Except (Failure AssetError) Unit) ↔ Covered account outgoing incoming) := by
  obtain ⟨returns, accepted⟩ := forM_checkFungible incomingHolds.sums fits mode
  obtain ⟨othersReturn, othersAccepted⟩ :=
    forM_checkNonFungible account incomingCollected.2 outgoingCollected.2
  rw [returns_bind, Fallible.bind_eq_ok]
  refine ⟨⟨returns, fun _ _ => othersReturn⟩, ?_, ?_⟩
  · rintro ⟨_, amounts, others⟩
    refine ⟨fun faucetId => ?_, fun asset listed => ?_⟩
    · by_cases sent : faucetId ∈ (fungibles outgoing).map Prod.fst
      · exact accepted.mp amounts (faucetId, _)
          ((mem_toList_sums outgoingHolds.sums _).mpr ⟨sent, rfl⟩)
      · rw [total_eq_zero sent]
        exact Nat.zero_le _
    · rw [← incomingHolds.nonFungible]
      exact othersAccepted.mp others asset ((outgoingHolds.nonFungible asset).mpr listed)
  · intro covered
    refine ⟨(), accepted.mpr fun entry listed => ?_, othersAccepted.mpr fun asset listed => ?_⟩
    · unfold Sufficient
      rw [((mem_toList_sums outgoingHolds.sums _).mp listed).2]
      exact covered.fungible entry.1
    · rw [incomingHolds.nonFungible]
      exact covered.nonFungible asset ((outgoingHolds.nonFungible asset).mp listed)

end Checks

/-! ### Requests -/

section Validation

variable [NoteLibrary] [RequestLibrary] {request : FullTransactionRequest} {account : Account}

/-- The recipient of each note to be sent is known. -/
def FullTransactionRequest.RecipientsKnown (request : FullTransactionRequest) : Prop :=
  ∀ note ∈ request.sentNotes,
    (request.expectedOutputRecipients[note.recipientDigest]?).isSome = true

omit [NoteLibrary] in
theorem expectedOutputOwnNotes_eq :
    request.expectedOutputOwnNotes = request.sentNotes.mapM request.ownNote := by
  unfold FullTransactionRequest.expectedOutputOwnNotes FullTransactionRequest.sentNotes
  rcases request.scriptTemplate with _ | script | notes
  · rfl
  · rfl
  · rfl

/-- The own notes have the ids that are expected for them. -/
theorem mapM_ownNote_ids {notes : List PartialNote} {made : List Note}
    (succeeded : notes.mapM request.ownNote = .ok made) :
    made.map (fun note => (note.id, note.details.assets)) =
      notes.map fun note => (request.expectedNoteId note, note.assets) := by
  induction notes generalizing made with
  | nil =>
    cases succeeded
    rfl
  | cons note rest inductionHypothesis =>
    rw [List.mapM_cons] at succeeded
    obtain ⟨first, here, succeeded⟩ := Fallible.bind_eq_ok.mp succeeded
    obtain ⟨others, later, same⟩ := Fallible.bind_eq_ok.mp succeeded
    cases same
    obtain ⟨recipient, found, rfl⟩ := TransactionRequestBuilder.ownNote_eq_ok.mp here
    rw [List.map_cons, List.map_cons, inductionHypothesis later]
    refine congrArg (· :: _) (Prod.ext ?_ rfl)
    unfold FullTransactionRequest.expectedNoteId
    rw [found]
    rfl

omit [NoteLibrary] in
theorem mapM_ownNote_cases (request : FullTransactionRequest) (notes : List PartialNote) :
    (∃ made, notes.mapM request.ownNote = .ok made ∧ ∀ note ∈ notes,
      (request.expectedOutputRecipients[note.recipientDigest]?).isSome = true) ∨
    (notes.mapM request.ownNote =
        .error (.panicked "Recipient should be included if it's an own note") ∧
      ¬ ∀ note ∈ notes,
        (request.expectedOutputRecipients[note.recipientDigest]?).isSome = true) := by
  induction notes with
  | nil => exact Or.inl ⟨[], rfl, List.forall_mem_nil _⟩
  | cons note rest inductionHypothesis =>
    rw [List.mapM_cons, List.forall_mem_cons]
    cases found : request.expectedOutputRecipients[note.recipientDigest]? with
    | none =>
      refine Or.inr ⟨?_, fun both => (nomatch both.1)⟩
      unfold FullTransactionRequest.ownNote
      rw [found]
      rfl
    | some recipient =>
      have here := TransactionRequestBuilder.ownNote_eq_ok.mpr ⟨recipient, found, rfl⟩
      rw [here]
      rcases inductionHypothesis with ⟨made, succeeded, known⟩ | ⟨panicked, unknown⟩
      · refine Or.inl ⟨⟨⟨note.assets, recipient⟩, note.metadata⟩ :: made, ?_, rfl, known⟩
        show (rest.mapM request.ownNote >>= _) = _
        rw [succeeded]
        rfl
      · refine Or.inr ⟨?_, fun both => unknown both.2⟩
        show (rest.mapM request.ownNote >>= _) = _
        rw [panicked]
        rfl

/-- With known recipients the counted assets are collected. -/
theorem getOutgoingAssets_of_known (known : request.RecipientsKnown) (mode : OverflowMode) :
    request.getOutgoingAssets mode = collectAssets mode request.countedAssets := by
  unfold FullTransactionRequest.getOutgoingAssets
  rw [expectedOutputOwnNotes_eq]
  rcases mapM_ownNote_cases request request.sentNotes with ⟨made, succeeded, _⟩ | ⟨_, unknown⟩
  · rw [succeeded]
    show collectAssets mode _ = _
    rw [mapM_ownNote_ids succeeded]
    rfl
  · exact absurd known unknown

theorem getOutgoingAssets_of_unknown (unknown : ¬ request.RecipientsKnown) (mode : OverflowMode) :
    request.getOutgoingAssets mode =
      .error (.panicked "Recipient should be included if it's an own note") := by
  unfold FullTransactionRequest.getOutgoingAssets
  rw [expectedOutputOwnNotes_eq]
  rcases mapM_ownNote_cases request request.sentNotes with ⟨_, _, known⟩ | ⟨panicked, _⟩
  · exact absurd known unknown
  · rw [panicked]
    rfl

/-- The assets that are counted come from the notes to be sent. -/
theorem amount_lt_of_mem_countedAssets (valid : request.ValidAmounts) {asset : FungibleAsset}
    (counted : Asset.fungible asset ∈ request.countedAssets) : asset.amount < 2 ^ 63 := by
  obtain ⟨assets, listed, member⟩ := List.mem_flatten.mp counted
  obtain ⟨noteId, found⟩ := OrderedMap.mem_values_iff.mp listed
  have given : ∀ {idOf : PartialNote → NoteId},
      (noteId, assets) ∈ request.sentNotes.map (fun note => (idOf note, note.assets)) →
        asset.amount < 2 ^ 63 := by
    intro idOf pairs
    obtain ⟨note, sent, same⟩ := List.mem_map.mp pairs
    cases same
    exact valid.sent note sent asset member
  rcases OrderedMap.insertAll_eq_some found with before | own
  · rcases OrderedMap.insertAll_eq_some before with absent | pairs
    · simp at absent
    · exact given pairs
  · have held := ExtTreeMap.mem_toList_iff_getElem?_eq_some.mp own
    rcases OrderedMap.insertAll_eq_some held with absent | pairs
    · simp at absent
    · exact given pairs

omit [NoteLibrary] in
theorem amount_lt_of_mem_incomingAssets (valid : request.ValidAmounts) {asset : FungibleAsset}
    (listed : Asset.fungible asset ∈ request.incomingAssets) : asset.amount < 2 ^ 63 := by
  obtain ⟨note, input, member⟩ := List.mem_flatMap.mp listed
  exact valid.inputs note input asset member

/-- Where the sums fit, every build answers alike: whether the counted assets are covered. -/
theorem validate_of_fits (known : request.RecipientsKnown)
    (fits : SumsFit account request.countedAssets request.incomingAssets) (mode : OverflowMode) :
    Returns (request.validateBasicAccountRequest mode account) ∧
      (request.validateBasicAccountRequest mode account = .ok () ↔
        Covered account request.countedAssets request.incomingAssets) := by
  obtain ⟨outgoing, collectedOutgoing, outgoingHolds⟩ :=
    collectAssets_of_fits (ε := AssetError) fits.outgoingFits mode
  obtain ⟨incoming, collectedIncoming, incomingHolds⟩ :=
    collectAssets_of_fits (ε := AssetError) fits.incomingFits mode
  have safe := (safeWhile_toList_iff account _ outgoingHolds.sums).mpr fits.availableFits
  unfold FullTransactionRequest.validateBasicAccountRequest
  rw [getOutgoingAssets_of_known known, collectedOutgoing, collectedIncoming]
  exact checks_of_fits incomingHolds outgoingHolds safe mode

/-- A program that panics on overflow answers only where the sums fit. -/
theorem fits_of_returns (valid : request.ValidAmounts)
    (returns : Returns (request.validateBasicAccountRequest .panics account)) :
    request.RecipientsKnown ∧ SumsFit account request.countedAssets request.incomingAssets := by
  have known : request.RecipientsKnown := by
    by_contra unknown
    unfold FullTransactionRequest.validateBasicAccountRequest at returns
    rw [getOutgoingAssets_of_unknown unknown] at returns
    exact returns _ rfl
  unfold FullTransactionRequest.validateBasicAccountRequest at returns
  rw [getOutgoingAssets_of_known known] at returns
  have outgoingFits : ∀ faucetId, total (fungibles request.countedAssets) faucetId < 2 ^ 64 := by
    by_contra exceeds
    rw [collectAssets_panics (fun _ => amount_lt_of_mem_countedAssets valid) exceeds] at returns
    exact returns _ rfl
  obtain ⟨outgoing, collectedOutgoing, outgoingHolds⟩ :=
    collectAssets_of_fits (ε := AssetError) outgoingFits .panics
  rw [collectedOutgoing] at returns
  have incomingFits : ∀ faucetId, total (fungibles request.incomingAssets) faucetId < 2 ^ 64 := by
    by_contra exceeds
    refine returns "attempt to add with overflow" ?_
    show collectAssets .panics request.incomingAssets >>= _ = _
    rw [collectAssets_panics (fun _ => amount_lt_of_mem_incomingAssets valid) exceeds]
    rfl
  obtain ⟨incoming, collectedIncoming, incomingHolds⟩ :=
    collectAssets_of_fits (ε := AssetError) incomingFits .panics
  refine ⟨known, outgoingFits, incomingFits, ?_⟩
  rw [← safeWhile_toList_iff account _ outgoingHolds.sums]
  by_contra exceeds
  rw [collectedIncoming] at returns
  have checked : Returns (outgoing.1.toList.forM (checkFungible .panics account incoming.1) >>=
      fun _ => outgoing.2.forM (checkNonFungible account incoming.2)) := returns
  exact not_returns_forM_checkFungible incomingHolds.sums exceeds (returns_bind.mp checked).1

/-- Recipients under their own digests give every note its own id, so nothing is counted twice. -/
theorem countedAssets_eq_sentAssets
    (keyed : ∀ (digest : Word) (recipient : NoteRecipient),
      request.expectedOutputRecipients[digest]? = some recipient → recipient.digest = digest) :
    request.countedAssets = request.sentAssets := by
  have ids : ∀ note, request.expectedNoteId note = note.id := by
    intro note
    unfold FullTransactionRequest.expectedNoteId
    split
    · rename_i recipient found
      rw [keyed note.recipientDigest recipient found]
      rfl
    · rfl
  unfold FullTransactionRequest.countedAssets FullTransactionRequest.sentAssets
  simp only [ids]
  exact congrArg (fun map => (OrderedMap.values map).flatten)
    (OrderedMap.insertAll_toList request.ownNotesAssets)

/-- A request is validated exactly when its recipients are known, all sums fit, and counting a note
under the id that it has with the expected recipient makes no difference. -/
theorem validatesExactly_iff (valid : request.ValidAmounts) :
    request.ValidatesExactly account ↔ request.RecipientsKnown ∧
      SumsFit account request.countedAssets request.incomingAssets ∧
        (Covered account request.countedAssets request.incomingAssets ↔
          Covered account request.sentAssets request.incomingAssets) := by
  constructor
  · intro exact
    obtain ⟨known, fits⟩ := fits_of_returns valid (exact .panics).1
    refine ⟨known, fits, ?_⟩
    rw [← (validate_of_fits known fits .panics).2, (exact .panics).2]
  · rintro ⟨known, fits, same⟩ mode
    obtain ⟨returns, accepted⟩ := validate_of_fits known fits mode
    exact ⟨returns, accepted.trans same⟩

end Validation

namespace Sample

open TransactionRequestBuilder

/-- A note of faucet 4. -/
def tokenNote (serial amount : ℕ) : Note :=
  ⟨⟨[.fungible ⟨4, amount⟩], ⟨serial, 8, 9⟩⟩, ⟨2, .isPublic, 3, 0⟩⟩

/-- An account that has some tokens of faucet 4. -/
def tokenAccount (amount : ℕ) : Account :=
  ⟨2, (∅ : ExtTreeMap AssetVaultKey Asset).insert (.fungible 4) (.fungible ⟨4, amount⟩), ∅, 0, 1,
    none⟩

/-- All tokens of the account are sent. -/
theorem validatesExactly_tokens : ∃ request,
    (run [.ownOutputNotes [tokenNote 1 5]]).build = .ok request ∧
      request.ValidatesExactly (tokenAccount 5) := by
  obtain ⟨request, built⟩ : ∃ request,
    (run [.ownOutputNotes [tokenNote 1 5]]).build = .ok request := ⟨_, rfl⟩
  obtain ⟨_, template, inputs, _, recipients, _⟩ := build_eq_ok _ built
  have template : some (.sendNotes [(tokenNote 1 5).toPartial]) = request.scriptTemplate :=
    Except.ok.inj template
  have sent : request.sentNotes = [(tokenNote 1 5).toPartial] := by
    unfold FullTransactionRequest.sentNotes
    rw [← template]
  have incoming : request.incomingAssets = [] := by
    unfold FullTransactionRequest.incomingAssets
    rw [inputs]
    rfl
  have keyed := keyed_run [.ownOutputNotes [tokenNote 1 5]]
  unfold Keyed at keyed
  rw [← recipients] at keyed
  have counted := countedAssets_eq_sentAssets keyed
  have assets : request.sentAssets = [.fungible ⟨4, 5⟩] := by
    unfold FullTransactionRequest.sentAssets FullTransactionRequest.ownNotesAssets
    rw [sent]
    rfl
  refine ⟨request, built, (validatesExactly_iff ⟨?_, ?_⟩).mpr ⟨?_, ?_, by rw [counted]⟩⟩
  · intro note listed asset member
    rw [sent] at listed
    obtain rfl := List.mem_singleton.mp listed
    cases List.mem_singleton.mp member
    norm_num
  · intro note listed
    rw [inputs] at listed
    exact absurd listed List.not_mem_nil
  · intro note listed
    rw [sent] at listed
    obtain rfl := List.mem_singleton.mp listed
    rw [recipients]
    rfl
  · have small : ∀ faucetId : AccountId, total [(4, 5)] faucetId ≤ 5 := by
      intro faucetId
      rw [total_singleton]
      split_ifs <;> omega
    rw [counted, assets, incoming]
    refine ⟨fun faucetId => ?_, fun faucetId => ?_, fun faucetId listed _ => ?_⟩
    · exact lt_of_le_of_lt (small faucetId) (by norm_num)
    · exact Nat.two_pow_pos 64
    · obtain rfl := List.mem_singleton.mp listed
      show 5 + 0 < 2 ^ 64
      norm_num

/-- Three notes of amounts that an asset may have, which add up to 2^64. -/
def hugeNotes : List Note :=
  [tokenNote 1 (2 ^ 63 - 2 ^ 31), tokenNote 2 (2 ^ 63 - 2 ^ 31), tokenNote 3 (2 ^ 32)]

/-- A released program lets an account without tokens send them, and another one panics. -/
theorem not_validatesExactly_hugeNotes : ∃ request,
    (run [.ownOutputNotes hugeNotes]).build = .ok request ∧
      (request.validateBasicAccountRequest .wraps (tokenAccount 0) = .ok () ∧
        ¬ Covered (tokenAccount 0) request.sentAssets request.incomingAssets) ∧
      request.validateBasicAccountRequest .panics (tokenAccount 0) =
        .error (.panicked "attempt to add with overflow") ∧
      ¬ request.ValidatesExactly (tokenAccount 0) := by
  refine ⟨_, rfl, ⟨rfl, fun covered => ?_⟩, rfl, fun exact => ?_⟩
  · have exceeds : 2 ^ 64 ≤ 0 := covered.fungible 4
    norm_num at exceeds
  · exact (exact .panics).1 _ rfl

end Sample

end MidenClient
