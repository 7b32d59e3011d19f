/-
This file proves what both stores answer to queries for transactions.

The rows of a store are rendered from the records that were last written and from the scripts that
are kept for their roots. A query therefore gives the records it is for, each of them with the
script that is kept for the root of its own.
-/

import MidenClient.Store.TransactionRows

namespace MidenClient

open Std (ExtTreeMap)
open Codecs
open ProtocolCodecs
open TransactionCodecs

section Queries

variable [TransactionCodecs]

/-! ### Filters -/

omit [TransactionCodecs] in
theorem TransactionStatus.variant_beq_pending (status : TransactionStatus) :
    (status.variant == 0) = status.isPending := by
  cases status <;> rfl

omit [TransactionCodecs] in
/-- What is neither discarded nor committed is pending. -/
theorem TransactionStatus.variant_bne_settled (status : TransactionStatus) :
    (status.variant != 2 && status.variant != 1) = status.isPending := by
  cases status <;> rfl

theorem SqliteTransactions.toQuery_row (filter : TransactionFilter) (record : StoredTransaction) :
    toQuery filter (record.id, serializeTransactionData record) = filter.selects record := by
  cases filter with
  | all => rfl
  | uncommitted => exact record.status.variant_beq_pending
  | ids transactionIds => rfl
  | expiredBefore blockNum =>
    rw [toQuery, Bool.and_assoc, TransactionFilter.selects, Bool.and_comm]
    exact congrArg (· && _) record.status.variant_bne_settled

namespace IdxdbTransactions

variable [IdTexts]

omit [TransactionCodecs] in
/-- The ids of a filter are taken apart again. -/
theorem mem_splitOn_iff (id : TransactionId) (transactionIds : List TransactionId) :
    IdTexts.text id ∈ ([comma].intercalate (transactionIds.map IdTexts.text)).splitOn comma ↔
      id ∈ transactionIds := by
  rcases transactionIds with _ | ⟨first, rest⟩
  · have empty : ([comma].intercalate (([] : List TransactionId).map IdTexts.text)).splitOn comma =
        [[]] := by
      rw [List.map_nil]
      decide
    rw [empty, List.mem_singleton]
    exact iff_of_false (IdTexts.nonempty id) List.not_mem_nil
  · have plain : ∀ text ∈ (first :: rest).map IdTexts.text, comma ∉ text := by
      intro text member
      obtain ⟨other, -, rfl⟩ := List.mem_map.mp member
      exact IdTexts.plain other
    rw [List.splitOn_intercalate comma plain (List.cons_ne_nil _ _),
      List.mem_map_of_injective IdTexts.injective]

omit [TransactionCodecs] [IdTexts] in
theorem isPrefixOf_append (first second : DecimalText.Text) :
    first.isPrefixOf (first ++ second) = true :=
  List.isPrefixOf_iff_prefix.mpr (List.prefix_append first second)

theorem matchesFilter_row (filter : TransactionFilter) (record : StoredTransaction) :
    matchesFilter (filterText filter) (record.id, serializeTransactionData record) =
      filter.selects record := by
  cases filter with
  | all => rfl
  | uncommitted => exact record.status.variant_beq_pending
  | ids transactionIds =>
    have other : units "Ids:" ++ [comma].intercalate (transactionIds.map IdTexts.text) ≠
        units "Uncommitted" := by
      intro same
      have first : some 73 = some 85 := congrArg List.head? same
      exact absurd first (by decide)
    rw [filterText, matchesFilter, if_neg other, isPrefixOf_append, if_pos rfl, List.drop_left]
    exact decide_eq_decide.mpr (mem_splitOn_iff record.id transactionIds)
  | expiredBefore blockNum =>
    have other : units "ExpiredPending:" ++ DecimalText.decimal blockNum ≠
        units "Uncommitted" := by
      intro same
      have first : some 69 = some 85 := congrArg List.head? same
      exact absurd first (by decide)
    have ids : (units "Ids:").isPrefixOf
        (units "ExpiredPending:" ++ DecimalText.decimal blockNum) = false := rfl
    rw [filterText, matchesFilter, if_neg other, ids, if_neg Bool.false_ne_true,
      isPrefixOf_append, if_pos rfl, List.drop_left, DecimalText.value_decimal, Bool.and_assoc,
      TransactionFilter.selects, Bool.and_comm, Bool.and_comm (_ != 1)]
    exact congrArg (· && _) record.status.variant_bne_settled

end IdxdbTransactions

/-! ### Rendered rows -/

/-- The scripts that are kept for their roots. -/
abbrev KeptScripts := ExtTreeMap Word TransactionScript

/-- A record as it is read back: with the script that is kept for the root of its own. -/
def KeptScripts.restore (scripts : KeptScripts) (record : StoredTransaction) : StoredTransaction :=
  { record with script := record.script.bind fun script => scripts[scriptRoot script]? }

/-- The tables hold the rows of the records last written, and a script for every root. -/
structure TransactionTables.Rendered (tables : TransactionTables) (history : TransactionHistory)
    (scripts : KeptScripts) : Prop where
  transactions : tables.transactions = history.map fun _ record => serializeTransactionData record
  transactionScripts :
    tables.transactionScripts = scripts.map fun _ script => transactionScript.write script
  named : ∀ (id : TransactionId) record, history[id]? = some record → record.id = id
  known : ∀ (id : TransactionId) record, history[id]? = some record →
    ∀ script, record.script = some script → ∃ kept, scripts[scriptRoot script]? = some kept

namespace TransactionTables.Rendered

variable {tables : TransactionTables} {history : TransactionHistory} {scripts : KeptScripts}

/-- What is joined with a row is the script that is kept for it. -/
theorem joined (rendered : tables.Rendered history scripts) (record : StoredTransaction) :
    ((serializeTransactionData record).scriptRoot.bind fun root =>
      tables.transactionScripts[root]?) =
      (scripts.restore record).script.map transactionScript.write := by
  rw [rendered.transactionScripts, serializeTransactionData, KeptScripts.restore]
  rcases record.script with _ | script
  · rfl
  · exact ExtTreeMap.getElem?_map

theorem sqlite_parseTransaction (rendered : tables.Rendered history scripts)
    (record : StoredTransaction) :
    SqliteTransactions.parseTransaction (record.id, serializeTransactionData record)
      ((serializeTransactionData record).scriptRoot.bind fun root =>
        tables.transactionScripts[root]?) = .ok (scripts.restore record) := by
  rw [rendered.joined record]
  have details := readFromBytes_of_readsBack record.details.readsBack
  have status := readFromBytes_of_readsBack record.status.readsBack
  rcases kept : (scripts.restore record).script with _ | script
  · simp only [SqliteTransactions.parseTransaction, serializeTransactionData, details, status,
      Option.map_none, Option.mapM_none]
    refine congrArg Except.ok ?_
    rw [← kept]
    rfl
  · have read := readFromBytes_of_readsBack (transactionScript.readsBack script)
    simp only [SqliteTransactions.parseTransaction, serializeTransactionData, details, status,
      Option.map_some, Option.mapM_some, read]
    refine congrArg Except.ok ?_
    rw [← kept]
    rfl

theorem idxdb_parseTransaction (rendered : tables.Rendered history scripts)
    {id : TransactionId} {record : StoredTransaction} (found : history[id]? = some record) :
    IdxdbTransactions.parseTransaction (record.id, serializeTransactionData record)
      ((serializeTransactionData record).scriptRoot.bind fun root =>
        tables.transactionScripts[root]?) = .ok (scripts.restore record) := by
  rw [rendered.joined record]
  have details := readFromBytes_of_readsBack record.details.readsBack
  have status := readFromBytes_of_readsBack record.status.readsBack
  rcases scripted : record.script with _ | script
  · have kept : (scripts.restore record).script = none := by rw [KeptScripts.restore, scripted]; rfl
    rw [kept]
    simp only [IdxdbTransactions.parseTransaction, serializeTransactionData, details, status,
      scripted]
    refine congrArg Except.ok ?_
    rw [← kept]
    rfl
  · obtain ⟨last, at_root⟩ := rendered.known id record found script scripted
    have kept : (scripts.restore record).script = some last := by
      rw [KeptScripts.restore, scripted]
      exact at_root
    have read := readFromBytes_of_readsBack (transactionScript.readsBack last)
    rw [kept]
    simp only [IdxdbTransactions.parseTransaction, serializeTransactionData, details, status,
      scripted, Option.map_some, read]
    refine congrArg Except.ok ?_
    rw [← kept]
    rfl

/-- Rows that are selected as their records are, and read one by one, give the records that a query
is for. -/
theorem answers (rendered : tables.Rendered history scripts) {filter : TransactionFilter}
    {selects : TransactionId × TransactionRow → Bool}
    (selected : ∀ record, selects (record.id, serializeTransactionData record) =
      filter.selects record)
    {parse : TransactionId × TransactionRow → Except NoteReadError StoredTransaction}
    (parsed : ∀ (id : TransactionId) record, history[id]? = some record →
      parse (record.id, serializeTransactionData record) = .ok (scripts.restore record)) :
    (tables.transactions.toList.filter selects).mapM parse =
      .ok ((history.query filter).map scripts.restore) := by
  have rows : tables.transactions.toList =
      (OrderedMap.values history).map fun record =>
        (record.id, serializeTransactionData record) := by
    rw [rendered.transactions, ExtTreeMap.toList_map, OrderedMap.values, List.map_map]
    refine List.map_congr_left fun entry member => ?_
    have found := ExtTreeMap.mem_toList_iff_getElem?_eq_some.mp member
    exact Prod.ext (rendered.named entry.1 entry.2 found).symm rfl
  have kept : tables.transactions.toList.filter selects =
      (history.query filter).map fun record => (record.id, serializeTransactionData record) := by
    rw [rows, List.filter_map, TransactionHistory.query]
    exact congrArg (List.map _) (List.filter_congr fun record _ => selected record)
  rw [kept, Fallible.mapM_eq_ok_iff, List.forall₂_map_left_iff, List.forall₂_map_right_iff]
  refine List.forall₂_same.mpr fun record member => ?_
  obtain ⟨id, found⟩ := OrderedMap.mem_values_iff.mp (List.mem_of_mem_filter member)
  exact parsed id record found

theorem sqlite_getTransactions (rendered : tables.Rendered history scripts)
    (filter : TransactionFilter) : SqliteTransactions.getTransactions tables filter =
      .ok ((history.query filter).map scripts.restore) :=
  rendered.answers (SqliteTransactions.toQuery_row filter) fun _ record _ =>
    rendered.sqlite_parseTransaction record

theorem idxdb_getTransactions [IdTexts] (rendered : tables.Rendered history scripts)
    (filter : TransactionFilter) : IdxdbTransactions.getTransactions tables filter =
      .ok ((history.query filter).map scripts.restore) :=
  rendered.answers (IdxdbTransactions.matchesFilter_row filter) fun _ _ found =>
    rendered.idxdb_parseTransaction found

end TransactionTables.Rendered

/-! ### Runs of writes -/

namespace KeptScripts

/-- A script is kept unless there is one for its root. -/
def keepFirst (scripts : KeptScripts) (record : StoredTransaction) : KeptScripts :=
  match record.script with
  | some script => scripts.insertIfNew (scriptRoot script) script
  | none => scripts

/-- A script replaces the one for its root. -/
def keepLast (scripts : KeptScripts) (record : StoredTransaction) : KeptScripts :=
  match record.script with
  | some script => scripts.insert (scriptRoot script) script
  | none => scripts

/-- A root that has a script goes on having one. -/
theorem keepFirst_grows (scripts : KeptScripts) (record : StoredTransaction) {root : Word}
    (present : scripts[root]? ≠ none) : (scripts.keepFirst record)[root]? ≠ none := by
  rcases scripted : record.script with _ | script
  · rw [keepFirst, scripted]
    exact present
  · rw [keepFirst, scripted]
    simp only [ExtTreeMap.getElem?_insertIfNew]
    split
    · exact Option.some_ne_none _
    · exact present

/-- The root of a script that is written has one. -/
theorem keepFirst_own (scripts : KeptScripts) {record : StoredTransaction}
    {script : TransactionScript} (scripted : record.script = some script) :
    (scripts.keepFirst record)[scriptRoot script]? ≠ none := by
  rw [keepFirst, scripted]
  simp only [ExtTreeMap.getElem?_insertIfNew]
  split
  · exact Option.some_ne_none _
  · rename_i known
    intro absent
    refine known ⟨Std.ReflCmp.compare_self, fun member => ?_⟩
    have present := ExtTreeMap.mem_iff_isSome_getElem?.mp member
    rw [absent] at present
    cases present

theorem keepLast_grows (scripts : KeptScripts) (record : StoredTransaction) {root : Word}
    (present : scripts[root]? ≠ none) : (scripts.keepLast record)[root]? ≠ none := by
  rcases scripted : record.script with _ | script
  · rw [keepLast, scripted]
    exact present
  · rw [keepLast, scripted]
    simp only [ExtTreeMap.getElem?_insert]
    split
    · exact Option.some_ne_none _
    · exact present

theorem keepLast_own (scripts : KeptScripts) {record : StoredTransaction}
    {script : TransactionScript} (scripted : record.script = some script) :
    (scripts.keepLast record)[scriptRoot script]? ≠ none := by
  rw [keepLast, scripted]
  simp

/-- The scripts that are kept are from certain records, and under their own roots. -/
def From (scripts : KeptScripts) (records : List StoredTransaction) : Prop :=
  ∀ (root : Word) kept, scripts[root]? = some kept →
    scriptRoot kept = root ∧ ∃ record ∈ records, record.script = some kept

theorem From.more {scripts : KeptScripts} {records : List StoredTransaction}
    (source : scripts.From records) (record : StoredTransaction) :
    scripts.From (records ++ [record]) := by
  intro root kept found
  obtain ⟨rooted, other, member, scripted⟩ := source root kept found
  exact ⟨rooted, other, List.mem_append_left _ member, scripted⟩

theorem From.keepFirst {scripts : KeptScripts} {records : List StoredTransaction}
    (source : scripts.From records) (record : StoredTransaction) :
    (scripts.keepFirst record).From (records ++ [record]) := by
  rcases scripted : record.script with _ | script
  · rw [KeptScripts.keepFirst, scripted]
    exact source.more record
  · rw [KeptScripts.keepFirst, scripted]
    intro root kept found
    simp only [ExtTreeMap.getElem?_insertIfNew] at found
    split at found
    · rename_i fresh
      rw [← Option.some_inj.mp found]
      exact ⟨Std.compare_eq_iff_eq.mp fresh.1, record,
        List.mem_append_right _ List.mem_cons_self, scripted⟩
    · exact source.more record root kept found

theorem From.keepLast {scripts : KeptScripts} {records : List StoredTransaction}
    (source : scripts.From records) (record : StoredTransaction) :
    (scripts.keepLast record).From (records ++ [record]) := by
  rcases scripted : record.script with _ | script
  · rw [KeptScripts.keepLast, scripted]
    exact source.more record
  · rw [KeptScripts.keepLast, scripted]
    intro root kept found
    simp only [ExtTreeMap.getElem?_insert] at found
    split at found
    · rename_i same
      rw [← Option.some_inj.mp found]
      exact ⟨Std.compare_eq_iff_eq.mp same, record,
        List.mem_append_right _ List.mem_cons_self, scripted⟩
    · exact source.more record root kept found

end KeptScripts

namespace TransactionTables.Rendered

variable {tables : TransactionTables} {history : TransactionHistory} {scripts : KeptScripts}

theorem empty : TransactionTables.empty.Rendered (∅ : TransactionHistory) (∅ : KeptScripts) where
  transactions := rfl
  transactionScripts := rfl
  named := by
    intro id record found
    simp at found
  known := by
    intro id record found
    simp at found

omit [TransactionCodecs] in
theorem map_insert {Key Value View : Type} [LinearOrder Key] (map : ExtTreeMap Key Value)
    (view : Value → View) (key : Key) (value : Value) :
    (map.insert key value).map (fun _ value => view value) =
      (map.map fun _ value => view value).insert key (view value) := by
  refine ExtTreeMap.ext_getElem? fun other => ?_
  rw [ExtTreeMap.getElem?_map, ExtTreeMap.getElem?_insert, ExtTreeMap.getElem?_insert,
    ExtTreeMap.getElem?_map]
  split <;> rfl

omit [TransactionCodecs] in
theorem map_insertIfNew {Key Value View : Type} [LinearOrder Key] (map : ExtTreeMap Key Value)
    (view : Value → View) (key : Key) (value : Value) :
    (map.insertIfNew key value).map (fun _ value => view value) =
      (map.map fun _ value => view value).insertIfNew key (view value) := by
  refine ExtTreeMap.ext_getElem? fun other => ?_
  rw [ExtTreeMap.getElem?_map, ExtTreeMap.getElem?_insertIfNew, ExtTreeMap.getElem?_insertIfNew,
    ExtTreeMap.getElem?_map]
  simp only [ExtTreeMap.mem_map]
  split <;> rfl

/-- A record is written, with its row, and its script or the one that is kept in its place. -/
theorem written (rendered : tables.Rendered history scripts) {record : StoredTransaction}
    {after : TransactionTables} {next : KeptScripts}
    (transactions : after.transactions =
      tables.transactions.insert record.id (serializeTransactionData record))
    (transactionScripts :
      after.transactionScripts = next.map fun _ script => transactionScript.write script)
    (grows : ∀ root : Word, scripts[root]? ≠ none → next[root]? ≠ none)
    (own : ∀ script, record.script = some script → next[scriptRoot script]? ≠ none) :
    after.Rendered (history.upsert record) next where
  transactions := by
    rw [transactions, rendered.transactions, TransactionHistory.upsert, map_insert]
  transactionScripts := transactionScripts
  named := by
    intro id other found
    rw [TransactionHistory.upsert, ExtTreeMap.getElem?_insert] at found
    split at found
    · rename_i same
      rw [← Option.some_inj.mp found]
      exact Std.compare_eq_iff_eq.mp same
    · exact rendered.named id other found
  known := by
    intro id other found script scripted
    rw [TransactionHistory.upsert, ExtTreeMap.getElem?_insert] at found
    split at found
    · rw [← Option.some_inj.mp found] at scripted
      exact Option.ne_none_iff_exists'.mp (own script scripted)
    · refine Option.ne_none_iff_exists'.mp (grows _ ?_)
      exact Option.ne_none_iff_exists'.mpr (rendered.known id other found script scripted)

theorem sqlite_upsert (rendered : tables.Rendered history scripts) (record : StoredTransaction) :
    (SqliteTransactions.upsertTransactionRecord tables record).Rendered (history.upsert record)
      (scripts.keepFirst record) := by
  refine rendered.written rfl ?_ (fun root => KeptScripts.keepFirst_grows scripts record)
    fun script scripted => KeptScripts.keepFirst_own scripts scripted
  rcases scripted : record.script with _ | script
  · rw [SqliteTransactions.upsertTransactionRecord, KeptScripts.keepFirst, scripted]
    exact rendered.transactionScripts
  · rw [SqliteTransactions.upsertTransactionRecord, KeptScripts.keepFirst, scripted]
    simp only [rendered.transactionScripts, map_insertIfNew]

theorem idxdb_upsert (rendered : tables.Rendered history scripts) (record : StoredTransaction) :
    (IdxdbTransactions.upsertTransactionRecord tables record).Rendered (history.upsert record)
      (scripts.keepLast record) := by
  refine rendered.written rfl ?_ (fun root => KeptScripts.keepLast_grows scripts record)
    fun script scripted => KeptScripts.keepLast_own scripts scripted
  rcases scripted : record.script with _ | script
  · rw [IdxdbTransactions.upsertTransactionRecord, KeptScripts.keepLast, scripted]
    exact rendered.transactionScripts
  · rw [IdxdbTransactions.upsertTransactionRecord, KeptScripts.keepLast, scripted]
    simp only [rendered.transactionScripts, map_insert]

theorem sqlite_run (records : List StoredTransaction) :
    (records.foldl SqliteTransactions.upsertTransactionRecord .empty).Rendered
      (records.foldl TransactionHistory.upsert ∅) (records.foldl KeptScripts.keepFirst ∅) := by
  induction records using List.reverseRecOn with
  | nil => exact empty
  | append_singleton earlier record inductionHypothesis =>
    simp only [List.foldl_append, List.foldl_cons, List.foldl_nil]
    exact inductionHypothesis.sqlite_upsert record

theorem idxdb_run (records : List StoredTransaction) :
    (records.foldl IdxdbTransactions.upsertTransactionRecord .empty).Rendered
      (records.foldl TransactionHistory.upsert ∅) (records.foldl KeptScripts.keepLast ∅) := by
  induction records using List.reverseRecOn with
  | nil => exact empty
  | append_singleton earlier record inductionHypothesis =>
    simp only [List.foldl_append, List.foldl_cons, List.foldl_nil]
    exact inductionHypothesis.idxdb_upsert record

end TransactionTables.Rendered

/-! ### What the stores answer -/

/-- A store answers with certain records, in an order of its own. -/
def AnswersWith (answer : Except NoteReadError (List StoredTransaction))
    (records : List StoredTransaction) : Prop :=
  ∃ answers, answer = .ok answers ∧ answers.Perm records

/-- No two scripts of certain records have the same root. -/
def ScriptsByRoot (records : List StoredTransaction) : Prop :=
  ∀ first ∈ records, ∀ second ∈ records, ∀ script other, first.script = some script →
    second.script = some other → scriptRoot script = scriptRoot other → script = other

theorem TransactionHistory.mem_of_run {records : List StoredTransaction} {id : TransactionId}
    {record : StoredTransaction}
    (found : (records.foldl TransactionHistory.upsert ∅)[id]? = some record) :
    record ∈ records := by
  induction records using List.reverseRecOn with
  | nil => simp at found
  | append_singleton earlier last inductionHypothesis =>
    rw [List.foldl_append, List.foldl_cons, List.foldl_nil, TransactionHistory.upsert,
      ExtTreeMap.getElem?_insert] at found
    split at found
    · rw [Option.some_inj.mp found]
      exact List.mem_append_right _ List.mem_cons_self
    · exact List.mem_append_left _ (inductionHypothesis found)

theorem KeptScripts.from_keepFirst (records : List StoredTransaction) :
    KeptScripts.From (records.foldl KeptScripts.keepFirst ∅) records := by
  induction records using List.reverseRecOn with
  | nil =>
    intro root kept found
    simp at found
  | append_singleton earlier record inductionHypothesis =>
    simp only [List.foldl_append, List.foldl_cons, List.foldl_nil]
    exact inductionHypothesis.keepFirst record

/-- Every script has one that is kept for its root. -/
theorem KeptScripts.keepFirst_ne_none {records : List StoredTransaction}
    {record : StoredTransaction} (member : record ∈ records) {script : TransactionScript}
    (scripted : record.script = some script) :
    (records.foldl KeptScripts.keepFirst ∅)[scriptRoot script]? ≠ none := by
  induction records using List.reverseRecOn with
  | nil => exact absurd member List.not_mem_nil
  | append_singleton earlier last inductionHypothesis =>
    rw [List.foldl_append, List.foldl_cons, List.foldl_nil]
    rcases List.mem_append.mp member with before | here
    · exact keepFirst_grows _ last (inductionHypothesis before)
    · rw [List.mem_singleton.mp here] at scripted
      exact keepFirst_own _ scripted

theorem KeptScripts.from_keepLast (records : List StoredTransaction) :
    KeptScripts.From (records.foldl KeptScripts.keepLast ∅) records := by
  induction records using List.reverseRecOn with
  | nil =>
    intro root kept found
    simp at found
  | append_singleton earlier record inductionHypothesis =>
    simp only [List.foldl_append, List.foldl_cons, List.foldl_nil]
    exact inductionHypothesis.keepLast record

/-- When no two scripts have the same root, every record is read back as it was written. -/
theorem TransactionTables.Rendered.answersWith {tables : TransactionTables}
    {records : List StoredTransaction} {scripts : KeptScripts}
    (rendered : tables.Rendered (records.foldl TransactionHistory.upsert ∅) scripts)
    (source : scripts.From records) (byRoot : ScriptsByRoot records) (filter : TransactionFilter) :
    AnswersWith (.ok (((records.foldl TransactionHistory.upsert ∅).query filter).map
      scripts.restore)) ((records.foldl TransactionHistory.upsert ∅).query filter) := by
  refine ⟨_, rfl, ?_⟩
  have same : ∀ record ∈ (records.foldl TransactionHistory.upsert ∅).query filter,
      scripts.restore record = record := by
    intro record member
    obtain ⟨id, found⟩ := OrderedMap.mem_values_iff.mp (List.mem_of_mem_filter member)
    rcases scripted : record.script with _ | script
    · rw [KeptScripts.restore, scripted, Option.bind_none, ← scripted]
    · obtain ⟨kept, at_root⟩ := rendered.known id record found script scripted
      obtain ⟨rooted, other, written, from_other⟩ := source _ kept at_root
      have equal := byRoot other written record (TransactionHistory.mem_of_run found) kept script
        from_other scripted rooted
      rw [KeptScripts.restore, scripted, Option.bind_some, at_root, equal, ← scripted]
  rw [List.map_congr_left same, List.map_id']

/-- A record that the SQLite store gives back as it was just written has the script that the store
keeps for its root. -/
theorem sqlite_script_of_answers {earlier : List StoredTransaction} {record : StoredTransaction}
    {script kept : TransactionScript} (scripted : record.script = some script)
    (at_root : (earlier.foldl KeptScripts.keepFirst ∅)[scriptRoot script]? = some kept)
    (answers : AnswersWith
      (SqliteTransactions.getTransactions ((earlier ++ [record]).foldl
        SqliteTransactions.upsertTransactionRecord .empty) .all)
      (((earlier ++ [record]).foldl TransactionHistory.upsert ∅).query .all)) :
    script = kept := by
  have rendered := TransactionTables.Rendered.sqlite_run (earlier ++ [record])
  obtain ⟨given, answered, same⟩ := answers
  rw [rendered.sqlite_getTransactions .all, Except.ok.injEq] at answered
  have last : ((earlier ++ [record]).foldl TransactionHistory.upsert ∅)[record.id]? =
      some record := by
    rw [List.foldl_append, List.foldl_cons, List.foldl_nil, TransactionHistory.upsert]
    exact ExtTreeMap.getElem?_insert_self
  have queried : record ∈ ((earlier ++ [record]).foldl TransactionHistory.upsert ∅).query .all :=
    List.mem_filter.mpr ⟨OrderedMap.mem_values_iff.mpr ⟨record.id, last⟩, rfl⟩
  rw [← same.mem_iff, ← answered] at queried
  obtain ⟨source, member, restored⟩ := List.mem_map.mp queried
  obtain ⟨id, found⟩ := OrderedMap.mem_values_iff.mp (List.mem_of_mem_filter member)
  have ids := congrArg StoredTransaction.id restored
  have own : source.id = record.id := ids
  rw [← rendered.named id source found, own, last, Option.some_inj] at found
  rw [← found] at restored
  have scripts := congrArg StoredTransaction.script restored
  rw [KeptScripts.restore, scripted, Option.bind_some, List.foldl_append, List.foldl_cons,
    List.foldl_nil, KeptScripts.keepFirst, scripted] at scripts
  simp only [ExtTreeMap.getElem?_insertIfNew] at scripts
  split at scripts
  · rename_i fresh
    refine absurd (ExtTreeMap.mem_iff_isSome_getElem?.mpr ?_) fresh.2
    rw [at_root]
    rfl
  · rw [at_root, Option.some_inj] at scripts
    exact scripts.symm

/-- The SQLite store answers every query with the records that were last written and that the query
is for, as they were written and in every state of a run, if and only if no two scripts of the run
have the same root. In that case the IndexedDB store gives the same answers. -/
theorem getTransactions_iff [IdTexts] (records : List StoredTransaction) :
    ((∀ reached, reached <+: records → ∀ filter, AnswersWith
      (SqliteTransactions.getTransactions
        (reached.foldl SqliteTransactions.upsertTransactionRecord .empty) filter)
      ((reached.foldl TransactionHistory.upsert ∅).query filter)) ↔ ScriptsByRoot records) ∧
      (ScriptsByRoot records → ∀ reached, reached <+: records → ∀ filter, AnswersWith
        (IdxdbTransactions.getTransactions
          (reached.foldl IdxdbTransactions.upsertTransactionRecord .empty) filter)
        ((reached.foldl TransactionHistory.upsert ∅).query filter)) := by
  have fewer : ∀ reached, reached <+: records → ScriptsByRoot records → ScriptsByRoot reached :=
    fun reached prefixed byRoot first at_first second at_second =>
      byRoot first (prefixed.subset at_first) second (prefixed.subset at_second)
  refine ⟨⟨fun throughout => ?_, fun byRoot reached prefixed filter => ?_⟩,
    fun byRoot reached prefixed filter => ?_⟩
  · clear fewer
    induction records using List.reverseRecOn with
    | nil =>
      intro first member
      exact absurd member List.not_mem_nil
    | append_singleton earlier record inductionHypothesis =>
      have byRoot := inductionHypothesis fun reached prefixed filter =>
        throughout reached (prefixed.trans (List.prefix_append _ _)) filter
      -- The script of an earlier record is the one that is kept for its root.
      have last : ∀ other ∈ earlier, ∀ script before, record.script = some script →
          other.script = some before → scriptRoot script = scriptRoot before →
          script = before := by
        intro other member script before scripted written same
        obtain ⟨kept, at_root⟩ := Option.ne_none_iff_exists'.mp
          (KeptScripts.keepFirst_ne_none member written)
        obtain ⟨rooted, source, at_source, from_source⟩ :=
          KeptScripts.from_keepFirst earlier _ kept at_root
        rw [← same] at at_root
        exact (sqlite_script_of_answers scripted at_root
          (throughout (earlier ++ [record]) List.prefix_rfl .all)).trans
          (byRoot source at_source other member kept before from_source written rooted)
      intro first at_first second at_second script other scripted written same
      rcases List.mem_append.mp at_first with before | here
      · rcases List.mem_append.mp at_second with also | there
        · exact byRoot first before second also script other scripted written same
        · rw [List.mem_singleton.mp there] at written
          exact (last first before other script written scripted same.symm).symm
      · rw [List.mem_singleton.mp here] at scripted
        rcases List.mem_append.mp at_second with also | there
        · exact last second also script other scripted written same
        · rw [List.mem_singleton.mp there, scripted, Option.some_inj] at written
          exact written
  · have rendered := TransactionTables.Rendered.sqlite_run reached
    rw [rendered.sqlite_getTransactions filter]
    exact rendered.answersWith (KeptScripts.from_keepFirst reached) (fewer reached prefixed byRoot)
      filter
  · have rendered := TransactionTables.Rendered.idxdb_run reached
    rw [rendered.idxdb_getTransactions filter]
    exact rendered.answersWith (KeptScripts.from_keepLast reached) (fewer reached prefixed byRoot)
      filter

end Queries

/-! ### Two transactions, one of which is written again -/

namespace Sample

open Codecs Codec

/-- Scripts with a root and a body. -/
scoped instance transactionCodecs : TransactionCodecs where
  TransactionScript := Word × ℕ
  scriptRoot := Prod.fst
  transactionScript := pair unary unary

/-- Ids as decimal numerals. -/
scoped instance idTexts : IdTexts where
  text := DecimalText.decimal
  injective := Function.LeftInverse.injective DecimalText.value_decimal
  nonempty := DecimalText.decimal_ne_nil
  plain id member := by cases DecimalText.allDigits_decimal id 44 member

/-- A transaction of an account with a script, which has its id as its root if it has one. -/
def scriptedTransaction (id : TransactionId) (script : Option ℕ) (status : TransactionStatus) :
    StoredTransaction where
  id := id
  details := ⟨⟨3, 1, 2, [7], 4, 4, 9, 100⟩, []⟩
  script := script.map fun body => ((id, body) : Word × ℕ)
  status := status

/-- A transaction is written, then one without a script, and then the first one as it has been
committed. -/
def transactionWrites : List StoredTransaction :=
  [scriptedTransaction 11 (some 8) .pending, scriptedTransaction 12 none .pending,
    scriptedTransaction 11 (some 8) (.committed 6 60)]

theorem transactionWrites_byRoot : ScriptsByRoot transactionWrites := by
  intro first at_first second at_second script other scripted written _
  simp only [transactionWrites, scriptedTransaction, List.mem_cons, List.not_mem_nil,
    or_false] at at_first at_second
  rcases at_first with rfl | rfl | rfl <;> rcases at_second with rfl | rfl | rfl <;>
    simp_all

/-- In both stores, the query for the ids 12 and 11 gives the second write and the last one. -/
theorem getTransactions_written :
    (∃ answers, SqliteTransactions.getTransactions
      (transactionWrites.foldl SqliteTransactions.upsertTransactionRecord .empty) (.ids [12, 11]) =
        .ok answers ∧ answers.Perm (transactionWrites.drop 1)) ∧
    ∃ answers, IdxdbTransactions.getTransactions
      (transactionWrites.foldl IdxdbTransactions.upsertTransactionRecord .empty) (.ids [12, 11]) =
        .ok answers ∧ answers.Perm (transactionWrites.drop 1) := by
  have queried : ((transactionWrites.foldl TransactionHistory.upsert ∅).query
      (.ids [12, 11])).Perm (transactionWrites.drop 1) := by
    have answered : (transactionWrites.foldl TransactionHistory.upsert ∅).query (.ids [12, 11]) =
        [scriptedTransaction 11 (some 8) (.committed 6 60), scriptedTransaction 12 none .pending] :=
      rfl
    rw [answered]
    exact List.Perm.swap _ _ _
  obtain ⟨sqlite, idxdb⟩ := getTransactions_iff transactionWrites
  obtain ⟨answers, answered, same⟩ := sqlite.mpr transactionWrites_byRoot transactionWrites
    List.prefix_rfl (.ids [12, 11])
  obtain ⟨others, replied, equal⟩ := idxdb transactionWrites_byRoot transactionWrites
    List.prefix_rfl (.ids [12, 11])
  exact ⟨⟨answers, answered, same.trans queried⟩, others, replied, equal.trans queried⟩

end Sample

end MidenClient
