import IndexVault.Failure
import IndexVault.Storage.KeyValue

/-! Encrypted tables kept as rows of a database: lines under the key (index, table, identifier), and
one size row an index, written when something was added. Every operation is a run of statements;
the statements of a batch are one transaction. An identifier in a row is a plain byte string, so a
damaged row may hold one of any length. -/
namespace IndexVault

structure RowKey where
  index : IndexId
  tag : Nat
  uid : Bytes
  deriving DecidableEq

namespace RowKey

/-- Rows lie in the order of index, table and identifier. -/
def order : RowKey → RowKey → Ordering :=
  compareLex (compareOn index) (compareLex (compareOn tag) (compareOn uid))

instance : Ord RowKey := ⟨order⟩

instance : Std.TransOrd RowKey := inferInstanceAs (Std.TransCmp
  (compareLex (compareOn index) (compareLex (compareOn tag) (compareOn uid))))

instance : Std.LawfulEqOrd RowKey where
  compare_self := Std.ReflCmp.compare_self (α := RowKey)
  eq_of_compare {x y} h := by
    have h' : order x y = .eq := h
    rw [order, compareLex_eq_eq, compareLex_eq_eq] at h'
    obtain ⟨hi, ht, hu⟩ := h'
    have hi' : x.index = y.index := Std.LawfulEqCmp.eq_of_compare hi
    have ht' : x.tag = y.tag := Std.LawfulEqCmp.eq_of_compare ht
    have hu' : x.uid = y.uid := Std.LawfulEqCmp.eq_of_compare hu
    cases x
    cases y
    cases hi'
    cases ht'
    cases hu'
    rfl

def ofUid (index : IndexId) (kind : TableKind) (uid : Uid) : RowKey :=
  ⟨index, kind.tag, uid.bytes⟩

end RowKey

/-- The rows of a database, and one size row an index, written when something was added. A size is a number
as in `KeyValueStore`: it is taken to stay below `2 ^ 63`, the bound of a column of integers. -/
structure RowStore where
  lines : SortedMap RowKey Bytes := ∅
  sizes : SortedMap IndexId Nat := ∅

namespace RowStore

/-- Sets the value of the row with a key and an old value; answers the number of rows changed. -/
def updateWhere (s : RowStore) (key : RowKey) (old new : Bytes) : RowStore × Nat :=
  if s.lines.get? key = some old then ({ s with lines := s.lines.insert key new }, 1) else (s, 0)

/-- Inserts a row unless its key is taken; answers the number of rows changed. -/
def insertIfAbsent (s : RowStore) (key : RowKey) (value : Bytes) : RowStore × Nat :=
  if (s.lines.get? key).isNone then ({ s with lines := s.lines.insert key value }, 1) else (s, 0)

/-- Inserts a row or overwrites the value of the row with its key. -/
def insertOrReplace (s : RowStore) (key : RowKey) (value : Bytes) : RowStore :=
  { s with lines := s.lines.insert key value }

/-- The statement that writes an entry; answers the number of rows changed. -/
def writeEntry (s : RowStore) (key : RowKey) (line : UpsertLine) : RowStore × Nat :=
  match line.old with
  | some old => s.updateWhere key old line.new
  -- The insertion of a line believed new yields to a stored one.
  | none => s.insertIfAbsent key line.new

def selectValue (s : RowStore) (key : RowKey) : Option Bytes :=
  s.lines.get? key

/-- The identifiers and values of a table, in the order of the rows. -/
def selectTable (s : RowStore) (index : IndexId) (kind : TableKind) : List (Bytes × Bytes) :=
  (s.lines.toList.filter fun row => row.1.index == index && row.1.tag == kind.tag).map fun row =>
    (row.1.uid, row.2)

/-- The identifiers and values of a table at some identifiers, in the order of these. -/
def selectAmong (s : RowStore) (index : IndexId) (kind : TableKind) (uids : List Uid) :
    List (Bytes × Bytes) :=
  uids.filterMap fun uid =>
    (s.selectValue (RowKey.ofUid index kind uid)).map fun value => (uid.bytes, value)

/-- Adds to the size row of an index, which is made when it is absent. -/
def addSize (s : RowStore) (index : IndexId) (added : Nat) : RowStore :=
  -- Adding nothing runs no statement, so an index may stay without a size row.
  if added = 0 then s
  else { s with sizes := s.sizes.insert index ((s.sizes.get? index).getD 0 + added) }

def size (s : RowStore) (index : IndexId) : Nat :=
  (s.sizes.get? index).getD 0

/-- The most identifiers in one query. -/
def chunkSize : Nat := 500

/-- The pieces of a list, each of at most `n + 1` members. -/
def chunks {α : Type} (n : Nat) (l : List α) : List (List α) :=
  if l.isEmpty then [] else l.take (n + 1) :: chunks n (l.drop (n + 1))
termination_by l.length
decreasing_by
  cases l with
  | nil => contradiction
  | cons x r => simp only [List.length_drop, List.length_cons]; omega

def readUid (b : Bytes) : Except Failure Uid :=
  match Uid.ofBytes b with
  | .ok uid => .ok uid
  | .error e => .error (.internal ("corrupted line key: " ++ e.message))

/-- Rows as lines of a table; one damaged identifier refuses them all. -/
def readRows (table : EncryptedTable) (rows : List (Bytes × Bytes)) :
    Except Failure EncryptedTable :=
  rows.foldlM (fun table row => do
    let uid ← readUid row.1
    pure (table.insert uid row.2)) table

/-- One query of a fetch: the lines of a piece of the identifiers. -/
def fetchChunk (s : RowStore) (index : IndexId) (kind : TableKind) (table : EncryptedTable)
    (uids : List Uid) : Except Failure EncryptedTable :=
  readRows table (s.selectAmong index kind uids)

/-- The lines present among some identifiers, asked for piece by piece in the order given. -/
def fetchInOrder (s : RowStore) (index : IndexId) (kind : TableKind) (uids : List Uid) :
    Except Failure EncryptedTable :=
  (chunks (chunkSize - 1) uids).foldlM (s.fetchChunk index kind) ∅

def fetchAll (s : RowStore) (index : IndexId) (kind : TableKind) :
    Except Failure EncryptedTable :=
  readRows ∅ (s.selectTable index kind)

/-- A transaction in progress: the rows so far, the lines rejected with their stored values, and the
bytes of lines that are new. -/
structure BatchState where
  store : RowStore
  rejected : EncryptedTable := ∅
  added : Nat := 0

/-- Compares and swaps one line. -/
def BatchState.swap (index : IndexId) (b : BatchState) (uid : Uid) (line : UpsertLine) :
    BatchState :=
  let key := RowKey.ofUid index .entries uid
  let (store, written) := b.store.writeEntry key line
  if 0 < written then
    { b with
      store := store
      added := if line.old.isNone then b.added + line.new.length else b.added }
  else
    -- No row changed: the stored value is read back, if there is one.
    match store.selectValue key with
    | some value => { b with store := store, rejected := b.rejected.insert uid value }
    | none => { b with store := store }

/-- Compares and swaps lines in the order given; the answer holds the rejected ones. -/
def upsertInOrder (s : RowStore) (index : IndexId) (lines : List (Uid × UpsertLine)) :
    RowStore × EncryptedTable :=
  let done := lines.foldl (fun b line => b.swap index line.1 line.2) ({ store := s } : BatchState)
  (done.store.addSize index done.added, done.rejected)

def insertInOrder (s : RowStore) (index : IndexId) (lines : List (Uid × Bytes)) : RowStore :=
  let written := lines.foldl (fun (s : RowStore) line =>
    s.insertOrReplace (RowKey.ofUid index .chains line.1) line.2) s
  written.addSize index (valueBytes lines)

/-- Inserts a raw row, as damage from outside does; its key has to be free. -/
def insertRaw (s : RowStore) (key : RowKey) (value : Bytes) : Except Failure RowStore :=
  if (s.lines.get? key).isNone then .ok { s with lines := s.lines.insert key value }
  else .error (.database (.duplicateKey "index_lines.index_id, index_lines.table_tag, index_lines.uid"))

end RowStore

end IndexVault
