import IndexVault.Tables

namespace IndexVault

/-- The internal number of an index. -/
abbrev IndexId := Int

/-- Encrypted tables kept in maps, and the size of every index, which counts the first insertion of every
entry and every chain written. A running program adds sizes up in 64 bits with a sign; here they are
numbers, which agree with those as long as a total stays below `2 ^ 63`. -/
structure KeyValueStore where
  entries : SortedMap IndexId EncryptedTable := ∅
  chains : SortedMap IndexId EncryptedTable := ∅
  sizes : SortedMap IndexId Nat := ∅

namespace KeyValueStore

def table (s : KeyValueStore) (index : IndexId) : TableKind → EncryptedTable
  | .entries => (s.entries.get? index).getD ∅
  | .chains => (s.chains.get? index).getD ∅

def size (s : KeyValueStore) (index : IndexId) : Nat :=
  (s.sizes.get? index).getD 0

/-- The lines present among some identifiers, looked up in the order given. -/
def fetchInOrder (s : KeyValueStore) (index : IndexId) (kind : TableKind) (uids : List Uid) :
    EncryptedTable :=
  (s.table index kind).restrictToKeys uids

/-- A batch in progress, compared with the stored lines one line at a time: the lines so far, the lines
rejected with their stored values, and the bytes of lines that are new. -/
structure BatchState where
  lines : EncryptedTable
  rejected : EncryptedTable := ∅
  added : Nat := 0

/-- Compares one line with the stored value and swaps it. A line with an old value where nothing is
stored is neither written nor rejected. -/
def BatchState.swap (b : BatchState) (uid : Uid) (line : UpsertLine) : BatchState :=
  let stored := b.lines.get? uid
  if stored = line.old then
    { b with
      lines := b.lines.insert uid line.new
      added := if stored.isNone then b.added + line.new.length else b.added }
  else
    match stored with
    | some value => { b with rejected := b.rejected.insert uid value }
    | none => b

def addSize (s : KeyValueStore) (index : IndexId) (added : Nat) : KeyValueStore :=
  { s with sizes := s.sizes.insert index (s.size index + added) }

/-- Compares and swaps lines in the order given; the answer holds the rejected ones. -/
def upsertInOrder (s : KeyValueStore) (index : IndexId) (lines : List (Uid × UpsertLine)) :
    KeyValueStore × EncryptedTable :=
  let done := lines.foldl (fun b line => b.swap line.1 line.2)
    ({ lines := s.table index .entries } : BatchState)
  (({ s with entries := s.entries.insert index done.lines }).addSize index done.added,
    done.rejected)

def insertInOrder (s : KeyValueStore) (index : IndexId) (lines : List (Uid × Bytes)) :
    KeyValueStore :=
  ({ s with chains := s.chains.insert index ((s.table index .chains).insertAll lines) }).addSize
    index (valueBytes lines)

end KeyValueStore

end IndexVault
