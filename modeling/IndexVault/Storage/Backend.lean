import IndexVault.Storage.Rows
import IndexVault.Text.Blank

namespace IndexVault

/-- The kinds of storage that can be configured. -/
inductive StorageKind where
  | rows
  | keyValue
  deriving DecidableEq, Repr

namespace StorageKind

/-- The name of a kind in the configuration. -/
def name : StorageKind → String
  | rows => "sqlite"
  | keyValue => "memory"

/-- The kind that a text names, blanks around it and letter case aside. -/
def ofText (s : String) : Except Failure StorageKind :=
  let found := Text.asciiLower (Text.trim s)
  if found = rows.name then .ok rows
  else if found = keyValue.name then .ok keyValue
  else .error (.configuration
    ("Unknown indexes database type `" ++ found ++ "` (please use `sqlite` or `memory`)"))

end StorageKind

/-- The storage of encrypted tables as the service uses it: either kind of store behind one set of
operations, or a database that was closed with its rows. A closed database refuses every statement; an
operation that needs none still answers. -/
inductive Storage where
  | keyValue (store : KeyValueStore)
  | rows (store : RowStore)
  | closedRows (store : RowStore)

namespace Storage

def empty : StorageKind → Storage
  | .keyValue => .keyValue {}
  | .rows => .rows {}

def closed : Failure := .database .closed

def size (s : Storage) (index : IndexId) : Except Failure Nat :=
  match s with
  | keyValue store => .ok (store.size index)
  | rows store => .ok (store.size index)
  | closedRows _ => .error closed

def sizes (s : Storage) (indexes : List IndexId) : Except Failure (List Nat) :=
  indexes.mapM s.size

/-- The lines present among some identifiers, looked up in the order given. -/
def fetchInOrder (s : Storage) (index : IndexId) (kind : TableKind) (uids : List Uid) :
    Except Failure EncryptedTable :=
  match s with
  | keyValue store => .ok (store.fetchInOrder index kind uids)
  | rows store => store.fetchInOrder index kind uids
  | closedRows _ => if uids.isEmpty then .ok ∅ else .error closed

def fetch (s : Storage) (index : IndexId) (kind : TableKind) (uids : UidSet) :
    Except Failure EncryptedTable :=
  s.fetchInOrder index kind uids.keys

def fetchAll (s : Storage) (index : IndexId) (kind : TableKind) : Except Failure EncryptedTable :=
  match s with
  | keyValue store => .ok (store.table index kind)
  | rows store => store.fetchAll index kind
  | closedRows _ => .error closed

/-- Compares and swaps lines in the order given; the answer holds the rejected lines with their
stored values. -/
def upsertInOrder (s : Storage) (index : IndexId) (lines : List (Uid × UpsertLine)) :
    Except Failure (Storage × EncryptedTable) :=
  match s with
  | keyValue store => let (store, rejected) := store.upsertInOrder index lines
    .ok (keyValue store, rejected)
  | rows store => let (store, rejected) := store.upsertInOrder index lines
    .ok (rows store, rejected)
  | closedRows _ => .error closed

def upsertEntries (s : Storage) (index : IndexId) (data : UpsertData) :
    Except Failure (Storage × EncryptedTable) :=
  s.upsertInOrder index data.toList

/-- Writes chain lines in the order given, whatever was stored. -/
def insertInOrder (s : Storage) (index : IndexId) (lines : List (Uid × Bytes)) :
    Except Failure Storage :=
  match s with
  | keyValue store => .ok (keyValue (store.insertInOrder index lines))
  | rows store => .ok (rows (store.insertInOrder index lines))
  | closedRows _ => .error closed

def insertChains (s : Storage) (index : IndexId) (data : EncryptedTable) : Except Failure Storage :=
  s.insertInOrder index data.toList

def insertRaw (s : Storage) (key : RowKey) (value : Bytes) : Except Failure Storage :=
  match s with
  | keyValue store => .ok (keyValue store)
  | rows store => (store.insertRaw key value).map rows
  | closedRows _ => .error closed

/-- Closes a database; a store in memory has nothing to close. -/
def close : Storage → Storage
  | rows store => closedRows store
  | s => s

/-- Opens a closed database again; the rows are those it was closed with. -/
def reopen : Storage → Storage
  | closedRows store => rows store
  | s => s

end Storage

end IndexVault
