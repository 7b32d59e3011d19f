/-
This file reads the rows of a table in the order of a key, the way a query with an
`ORDER BY` or a scan of an index does.

Where the keys of the rows are distinct there is one such order, so it does not matter
whether rows are selected before or after they are ordered, and any relation between
earlier and later rows is one between rows with a smaller and a greater key.
-/

import Mathlib.Data.List.Sort
import Mathlib.Data.List.Perm.Basic

namespace OrderedRead

variable {α : Type*} {κ : Type*} [LinearOrder κ]

/-- The rows by rising key. -/
def orderBy (key : α → κ) (rows : List α) : List α :=
  rows.insertionSort (key · ≤ key ·)

theorem orderBy_perm (key : α → κ) (rows : List α) : (orderBy key rows).Perm rows :=
  List.perm_insertionSort _ rows

@[simp]
theorem mem_orderBy {key : α → κ} {rows : List α} {row : α} : row ∈ orderBy key rows ↔ row ∈ rows :=
  (orderBy_perm key rows).mem_iff

theorem orderBy_pairwise (key : α → κ) (rows : List α) :
    (orderBy key rows).Pairwise (key · ≤ key ·) := by
  have total : Std.Total fun first second : α => key first ≤ key second :=
    ⟨fun first second => le_total (key first) (key second)⟩
  have transitive : IsTrans α fun first second => key first ≤ key second :=
    ⟨fun _ _ _ => le_trans⟩
  exact List.pairwise_insertionSort _ rows

/-- Rows with distinct keys come by strictly rising key. -/
theorem orderBy_pairwise_lt {key : α → κ} {rows : List α}
    (distinct : rows.Pairwise (key · ≠ key ·)) :
    (orderBy key rows).Pairwise (key · < key ·) := by
  have apart : (orderBy key rows).Pairwise (key · ≠ key ·) :=
    ((orderBy_perm key rows).pairwise_iff fun different => different.symm).mpr distinct
  exact ((orderBy_pairwise key rows).and apart).imp fun both => lt_of_le_of_ne both.1 both.2

/-- A view that keeps the order of the keys can be taken before the rows are ordered. -/
theorem map_orderBy {β : Type*} {μ : Type*} [LinearOrder μ] {key : α → κ} {viewedKey : β → μ}
    (view : α → β) (rows : List α)
    (keeps : ∀ first ∈ rows, ∀ second ∈ rows,
      key first ≤ key second ↔ viewedKey (view first) ≤ viewedKey (view second)) :
    (orderBy key rows).map view = orderBy viewedKey (rows.map view) :=
  List.map_insertionSort _ _ view rows keeps

/-- There is one list of the rows by strictly rising key. -/
theorem eq_of_perm_of_pairwise_lt {key : α → κ} {first second : List α} (same : first.Perm second)
    (firstRises : first.Pairwise (key · < key ·)) (secondRises : second.Pairwise (key · < key ·)) :
    first = second :=
  same.eq_of_pairwise (fun _ _ _ _ below above => absurd below (lt_asymm above)) firstRises
    secondRises

/-- Selecting rows from the ordered ones is ordering the selected ones. -/
theorem filter_orderBy {key : α → κ} {rows : List α} (distinct : rows.Pairwise (key · ≠ key ·))
    (selects : α → Bool) :
    (orderBy key rows).filter selects = orderBy key (rows.filter selects) := by
  refine eq_of_perm_of_pairwise_lt ?_ ((orderBy_pairwise_lt distinct).filter selects)
    (orderBy_pairwise_lt (distinct.filter selects))
  exact ((orderBy_perm key rows).filter selects).trans (orderBy_perm key _).symm

/-- A relation holds from earlier to later rows when it holds from smaller to greater keys. -/
theorem pairwise_orderBy_iff {relation : α → α → Prop} {key : α → κ} {rows : List α}
    (distinct : rows.Pairwise (key · ≠ key ·)) :
    (orderBy key rows).Pairwise relation ↔
      ∀ first ∈ rows, ∀ second ∈ rows, key first < key second → relation first second := by
  have rises := orderBy_pairwise_lt distinct
  constructor
  · intro related first firstMember second secondMember below
    have firstRead : first ∈ orderBy key rows := mem_orderBy.mpr firstMember
    have secondRead : second ∈ orderBy key rows := mem_orderBy.mpr secondMember
    obtain ⟨i, iBound, rfl⟩ := List.mem_iff_getElem.mp firstRead
    obtain ⟨j, jBound, rfl⟩ := List.mem_iff_getElem.mp secondRead
    rcases lt_trichotomy i j with before | rfl | after
    · exact List.pairwise_iff_getElem.mp related i j iBound jBound before
    · exact (lt_irrefl (key _) below).elim
    · have above := List.pairwise_iff_getElem.mp rises j i jBound iBound after
      exact (lt_asymm below above).elim
  · intro related
    refine rises.imp_of_mem fun firstMember secondMember below => ?_
    exact related _ (mem_orderBy.mp firstMember) _ (mem_orderBy.mp secondMember) below

/-! ### Reading from the front

Someone who reads a list of rows row by row has passed a first part of it. That part is left as it
is by a change of the rows exactly when the change keeps to the rows behind it. -/

/-- What is selected from the front is a first part, when nothing that is left out comes before. -/
theorem filter_prefix {relation : α → α → Prop} {selects : α → Bool} {rows : List α}
    (related : rows.Pairwise relation)
    (closed : ∀ first second, relation first second → selects second = true →
      selects first = true) : rows.filter selects <+: rows := by
  induction rows with
  | nil => exact List.prefix_rfl
  | cons row rest inductionHypothesis =>
    have ⟨before, relatedRest⟩ := List.pairwise_cons.mp related
    cases selected : selects row with
    | true =>
      rw [List.filter_cons_of_pos selected]
      exact List.cons_prefix_cons.mpr ⟨rfl, inductionHypothesis relatedRest⟩
    | false =>
      have none : (row :: rest).filter selects = [] := by
        refine List.filter_eq_nil_iff.mpr fun other listed chosen => ?_
        rcases List.mem_cons.mp listed with rfl | later
        · rw [selected] at chosen
          cases chosen
        · rw [closed row other (before other later) chosen] at selected
          cases selected
      rw [none]
      exact List.nil_prefix

/-- The row does not come after all the rows of a first part. -/
def isPassed (key : α → κ) (passed : List α) (row : α) : Bool :=
  passed.any fun last => key row ≤ key last

theorem isPassed_iff {key : α → κ} {passed : List α} {row : α} :
    isPassed key passed row = true ↔ ∃ last ∈ passed, key row ≤ key last := by
  unfold isPassed
  simp only [List.any_eq_true, decide_eq_true_eq]

/-- A first part of the ordered rows are those that do not come after it. -/
theorem filter_isPassed {key : α → κ} {rows passed : List α}
    (rises : rows.Pairwise (key · < key ·)) (prefixed : passed <+: rows) :
    rows.filter (isPassed key passed) = passed := by
  obtain ⟨later, rfl⟩ := prefixed
  have apart := (List.pairwise_append.mp rises).2.2
  rw [List.filter_append, List.filter_eq_self.mpr, List.filter_eq_nil_iff.mpr, List.append_nil]
  · intro row listed chosen
    obtain ⟨last, earlier, below⟩ := isPassed_iff.mp chosen
    exact lt_irrefl _ (lt_of_lt_of_le (apart last earlier row listed) below)
  · exact fun row listed => isPassed_iff.mpr ⟨row, listed, le_rfl⟩

/-- Rows with the same first part are the same up to its end. -/
theorem mem_iff_of_initial {key : α → κ} {before after passed : List α}
    (rises : before.Pairwise (key · < key ·)) (risesAfter : after.Pairwise (key · < key ·))
    (prefixed : passed <+: before) (prefixedAfter : passed <+: after) {row : α}
    (chosen : isPassed key passed row = true) : row ∈ after ↔ row ∈ before := by
  have selected : row ∈ after.filter (isPassed key passed) ↔
      row ∈ before.filter (isPassed key passed) := by
    rw [filter_isPassed rises prefixed, filter_isPassed risesAfter prefixedAfter]
  rwa [List.mem_filter, List.mem_filter, and_iff_left chosen, and_iff_left chosen] at selected

/-- Ordered rows that are the same up to the end of a first part of the ones begin with it. -/
theorem prefix_of_mem_iff {key : α → κ} {before after passed : List α}
    (rises : before.Pairwise (key · < key ·)) (risesAfter : after.Pairwise (key · < key ·))
    (prefixed : passed <+: before)
    (same : ∀ row, isPassed key passed row = true → (row ∈ after ↔ row ∈ before)) :
    passed <+: after := by
  have selected : (after.filter (isPassed key passed)).Perm
      (before.filter (isPassed key passed)) := by
    have nodup : ∀ {rows : List α}, rows.Pairwise (key · < key ·) →
        (rows.filter (isPassed key passed)).Nodup :=
      fun apart => (apart.imp fun below equal => below.ne (congrArg key equal)).filter _
    refine (List.perm_ext_iff_of_nodup (nodup risesAfter) (nodup rises)).mpr fun row => ?_
    rw [List.mem_filter, List.mem_filter, and_congr_left_iff]
    exact same row
  have kept : after.filter (isPassed key passed) = passed := by
    rw [eq_of_perm_of_pairwise_lt selected (risesAfter.filter _) (rises.filter _)]
    exact filter_isPassed rises prefixed
  have first : after.filter (isPassed key passed) <+: after := by
    refine filter_prefix risesAfter fun first second below chosen => ?_
    obtain ⟨last, listed, bound⟩ := isPassed_iff.mp chosen
    exact isPassed_iff.mpr ⟨last, listed, below.le.trans bound⟩
  rwa [kept] at first

/-- A change of the rows leaves what was passed in front exactly when no row comes or goes that is
not behind it. -/
theorem take_orderBy_eq_iff {key : α → κ} {before after passed : List α}
    (distinct : before.Pairwise (key · ≠ key ·)) (distinctAfter : after.Pairwise (key · ≠ key ·))
    (prefixed : passed <+: orderBy key before) :
    (orderBy key after).take passed.length = passed ↔
      ∀ row, isPassed key passed row = true → (row ∈ after ↔ row ∈ before) := by
  have rises := orderBy_pairwise_lt distinct
  have risesAfter := orderBy_pairwise_lt distinctAfter
  have listed : ∀ row, (row ∈ orderBy key after ↔ row ∈ orderBy key before) ↔
      (row ∈ after ↔ row ∈ before) := fun row => by rw [mem_orderBy, mem_orderBy]
  constructor
  · intro kept row chosen
    have prefixedAfter := List.prefix_iff_eq_take.mpr kept.symm
    exact (listed row).mp (mem_iff_of_initial rises risesAfter prefixed prefixedAfter chosen)
  · intro same
    have prefixedAfter := prefix_of_mem_iff rises risesAfter prefixed
      fun row chosen => (listed row).mpr (same row chosen)
    exact (List.prefix_iff_eq_take.mp prefixedAfter).symm

end OrderedRead
