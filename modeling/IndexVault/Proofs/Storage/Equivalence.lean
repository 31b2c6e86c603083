import IndexVault.Proofs.Storage.RowBatch

/-! Both stores behind one view. Every call on an open store answers what its contents call for and
leaves the contents that the call makes (`perform_eq`), so runs of calls on different stores with the
same contents cannot be told apart (`stores_answer_alike`). -/
namespace IndexVault

open SortedMap (VisitOrder)

namespace Storage

/-- What clients see of the storage. -/
def contents : Storage → Contents
  | keyValue store => store.contents
  | rows store => store.contents
  | closedRows store => store.contents

def isOpen : Storage → Bool
  | keyValue _ | rows _ => true
  | closedRows _ => false

/-- The storage takes calls, and none of its rows is damaged. -/
structure Usable (s : Storage) : Prop where
  isOpen : s.isOpen = true
  undamaged : ∀ store, s = rows store → store.Undamaged

theorem usable_keyValue (store : KeyValueStore) : (keyValue store).Usable :=
  ⟨rfl, fun _ h => by cases h⟩

theorem usable_rows {store : RowStore} (h : store.Undamaged) : (rows store).Usable :=
  ⟨rfl, fun _ heq => by cases heq; exact h⟩

/-- An empty store is open and holds no damaged row. -/
theorem usable_empty (kind : StorageKind) : (empty kind).Usable := by
  cases kind with
  | keyValue => exact usable_keyValue {}
  | rows =>
    apply usable_rows
    intro key value hv
    cases hv

theorem contents_empty (kind : StorageKind) : (empty kind).contents = Contents.empty := by
  cases kind <;> apply Contents.ext <;> funext i
  · funext k
    apply SortedMap.ext_get?
    intro uid
    exact RowStore.get?_table {} i k uid
  · rfl
  · funext k
    cases k <;> rfl
  · rfl

/-- Writes lines to one table of an index, and counts bytes for the index. -/
def writeLines (s : Storage) (index : IndexId) (kind : TableKind) (lines : List (Uid × Bytes))
    (added : Nat) : Storage :=
  match s with
  | keyValue store => keyValue (store.writeLines index kind lines added)
  | rows store => rows (store.writeLines index kind lines added)
  | closedRows store => closedRows (store.writeLines index kind lines added)

/-- Either kind of store shows, after lines were written, what its contents become by them. -/
theorem contents_writeLines (s : Storage) (index : IndexId) (kind : TableKind)
    (lines : List (Uid × Bytes)) (added : Nat) :
    (s.writeLines index kind lines added).contents =
      s.contents.writeLines index kind lines added := by
  cases s with
  | keyValue store => exact store.contents_writeLines index kind lines added
  | rows store => exact store.contents_writeLines index kind lines added
  | closedRows store => exact store.contents_writeLines index kind lines added

theorem isOpen_writeLines (s : Storage) (index : IndexId) (kind : TableKind)
    (lines : List (Uid × Bytes)) (added : Nat) :
    (s.writeLines index kind lines added).isOpen = s.isOpen := by
  cases s <;> rfl

/-- Written lines have whole identifiers, so a store stays free of damaged rows. -/
theorem Usable.writeLines {s : Storage} (h : s.Usable) (index : IndexId) (kind : TableKind)
    (lines : List (Uid × Bytes)) (added : Nat) : (s.writeLines index kind lines added).Usable := by
  cases s with
  | keyValue store => exact usable_keyValue _
  | rows store => exact usable_rows ((h.undamaged store rfl).writeLines index kind lines added)
  | closedRows store => cases h.isOpen

/-- The store after an upsert: with the lines that are written, and the bytes of those that are new. -/
def upserted (s : Storage) (index : IndexId) (data : UpsertData) : Storage :=
  s.writeLines index .entries ((s.contents.table index .entries).writtenLines data.toList)
    (valueBytes ((s.contents.table index .entries).newLines data.toList))

/-- The store after chains were written, whatever was stored. -/
def inserted (s : Storage) (index : IndexId) (data : EncryptedTable) : Storage :=
  s.writeLines index .chains data.toList (valueBytes data.toList)

theorem contents_upserted (s : Storage) (index : IndexId) (data : UpsertData) :
    (s.upserted index data).contents = (s.contents.upsertEntries index data).1 :=
  s.contents_writeLines index .entries _ _

theorem table_upserted (s : Storage) (index : IndexId) (data : UpsertData) :
    (s.upserted index data).contents.table index .entries =
      (s.contents.table index .entries).swapped data := by
  rw [contents_upserted, Contents.table_upsertEntries]

theorem contents_inserted (s : Storage) (index : IndexId) (data : EncryptedTable) :
    (s.inserted index data).contents = s.contents.insertChains index data :=
  s.contents_writeLines index .chains _ _

theorem isOpen_upserted (s : Storage) (index : IndexId) (data : UpsertData) :
    (s.upserted index data).isOpen = s.isOpen :=
  s.isOpen_writeLines index .entries _ _

theorem isOpen_inserted (s : Storage) (index : IndexId) (data : EncryptedTable) :
    (s.inserted index data).isOpen = s.isOpen :=
  s.isOpen_writeLines index .chains _ _

/-- The order in which the lines of an upsert are visited makes no difference. -/
theorem upsertInOrder_eq_upserted {s : Storage} (h : s.isOpen = true) (index : IndexId)
    {data : UpsertData} {lines : List (Uid × UpsertLine)} (hp : lines.Perm data.toList) :
    s.upsertInOrder index lines =
      .ok (s.upserted index data, (s.contents.table index .entries).rejections data) := by
  cases s with
  | keyValue store =>
    rw [upsertInOrder, store.upsertInOrder_eq index hp]
    rfl
  | rows store =>
    rw [upsertInOrder, store.upsertInOrder_eq index hp]
    rfl
  | closedRows store => cases h

theorem insertInOrder_eq_inserted {s : Storage} (h : s.isOpen = true) (index : IndexId)
    {data : EncryptedTable} {lines : List (Uid × Bytes)} (hp : lines.Perm data.toList) :
    s.insertInOrder index lines = .ok (s.inserted index data) := by
  cases s with
  | keyValue store =>
    rw [insertInOrder, store.insertInOrder_eq index hp]
    rfl
  | rows store =>
    rw [insertInOrder, store.insertInOrder_eq index hp]
    rfl
  | closedRows store => cases h

/-- In whatever order its lines are visited, an upsert is answered by the contents before it. -/
theorem upsertInOrder_eq {s : Storage} (h : s.isOpen = true) (index : IndexId) {data : UpsertData}
    {lines : List (Uid × UpsertLine)} (hp : lines.Perm data.toList) :
    ∃ s', s.upsertInOrder index lines = .ok (s', (s.contents.upsertEntries index data).2) ∧
      s'.contents = (s.contents.upsertEntries index data).1 ∧ s'.isOpen = true ∧
      (s.Usable → s'.Usable) := by
  refine ⟨s.upserted index data, upsertInOrder_eq_upserted h index hp,
    s.contents_upserted index data, (s.isOpen_upserted index data).trans h, ?_⟩
  intro hs
  exact hs.writeLines index .entries _ _

theorem insertInOrder_eq {s : Storage} (h : s.isOpen = true) (index : IndexId)
    {data : EncryptedTable} {lines : List (Uid × Bytes)} (hp : lines.Perm data.toList) :
    ∃ s', s.insertInOrder index lines = .ok s' ∧
      s'.contents = s.contents.insertChains index data ∧ s'.isOpen = true ∧
      (s.Usable → s'.Usable) := by
  refine ⟨s.inserted index data, insertInOrder_eq_inserted h index hp,
    s.contents_inserted index data, (s.isOpen_inserted index data).trans h, ?_⟩
  intro hs
  exact hs.writeLines index .chains _ _

/-- In whatever order its identifiers are visited, a fetch answers the table restricted to them. -/
theorem fetchInOrder_eq {s : Storage} (h : s.isOpen = true) (index : IndexId) (kind : TableKind)
    {uids : UidSet} {order : List Uid} (hp : order.Perm uids.keys) :
    s.fetchInOrder index kind order = .ok ((s.contents.table index kind).restrict uids) := by
  cases s with
  | keyValue store => exact congrArg Except.ok (store.fetchInOrder_eq_restrict index kind hp)
  | rows store =>
    rw [fetchInOrder, RowStore.fetchInOrder_eq, SortedMap.restrictToKeys_perm _ hp]
    rfl
  | closedRows store => cases h

theorem fetchAll_eq {s : Storage} (h : s.Usable) (index : IndexId) (kind : TableKind) :
    s.fetchAll index kind = .ok (s.contents.table index kind) := by
  cases s with
  | keyValue store => rfl
  | rows store => exact RowStore.fetchAll_eq (h.undamaged store rfl) index kind
  | closedRows store => cases h.isOpen

theorem size_eq {s : Storage} (h : s.isOpen = true) (index : IndexId) :
    s.size index = .ok (s.contents.size index) := by
  cases s with
  | keyValue store => rfl
  | rows store => rfl
  | closedRows store => cases h

theorem sizes_eq {s : Storage} (h : s.isOpen = true) (indexes : List IndexId) :
    s.sizes indexes = .ok (indexes.map s.contents.size) := by
  induction indexes with
  | nil => rfl
  | cons index rest ih =>
    rw [sizes] at ih
    rw [sizes, List.mapM_cons, size_eq h, ih]
    rfl

end Storage

/-- A call on the storage of encrypted tables. -/
inductive StorageCall where
  | upsertEntries (index : IndexId) (data : UpsertData)
  | insertChains (index : IndexId) (data : EncryptedTable)
  | fetch (index : IndexId) (kind : TableKind) (uids : UidSet)
  | fetchAll (index : IndexId) (kind : TableKind)
  | size (index : IndexId)
  | sizes (indexes : List IndexId)

/-- What a call answers: rejected or found lines, sizes, or that lines were written. -/
inductive StorageAnswer where
  | table (lines : EncryptedTable)
  | written
  | size (bytes : Nat)
  | sizes (bytes : List Nat)

/-- What a call answers and leaves, said of the contents alone. -/
def Contents.perform (c : Contents) : StorageCall → Contents × StorageAnswer
  | .upsertEntries index data =>
    ((c.upsertEntries index data).1, .table (c.upsertEntries index data).2)
  | .insertChains index data => (c.insertChains index data, .written)
  | .fetch index kind uids => (c, .table ((c.table index kind).restrict uids))
  | .fetchAll index kind => (c, .table (c.table index kind))
  | .size index => (c, .size (c.size index))
  | .sizes indexes => (c, .sizes (indexes.map c.size))

def Contents.run (c : Contents) : List StorageCall → Contents × List StorageAnswer
  | [] => (c, [])
  | call :: rest =>
    let (c', answer) := c.perform call
    let (last, answers) := c'.run rest
    (last, answer :: answers)

namespace Storage

/-- Carries out a call, visiting the lines of its batch or set in some order. A call that fails
leaves the storage as it was. -/
def perform (o : VisitOrder Uid) (s : Storage) :
    StorageCall → Storage × Except Failure StorageAnswer
  | .upsertEntries index data =>
    match s.upsertInOrder index (o.lines data) with
    | .ok (s', rejected) => (s', .ok (.table rejected))
    | .error e => (s, .error e)
  | .insertChains index data =>
    match s.insertInOrder index (o.lines data) with
    | .ok s' => (s', .ok .written)
    | .error e => (s, .error e)
  | .fetch index kind uids => (s, (s.fetchInOrder index kind (o.keys uids)).map .table)
  | .fetchAll index kind => (s, (s.fetchAll index kind).map .table)
  | .size index => (s, (s.size index).map .size)
  | .sizes indexes => (s, (s.sizes indexes).map .sizes)

def run (s : Storage) :
    List (VisitOrder Uid × StorageCall) → Storage × List (Except Failure StorageAnswer)
  | [] => (s, [])
  | (o, call) :: rest =>
    let (s', answer) := s.perform o call
    let (last, answers) := s'.run rest
    (last, answer :: answers)

/-- A call answers what the contents call for, whatever the order of visits. -/
theorem perform_eq {s : Storage} (h : s.Usable) (o : VisitOrder Uid) (call : StorageCall) :
    ∃ s', s.perform o call = (s', .ok (s.contents.perform call).2) ∧
      s'.contents = (s.contents.perform call).1 ∧ s'.Usable := by
  cases call with
  | upsertEntries index data =>
    obtain ⟨s', hs', hc, -, hu⟩ := upsertInOrder_eq h.isOpen index (o.perm data)
    refine ⟨s', ?_, hc, hu h⟩
    rw [perform, hs']
    rfl
  | insertChains index data =>
    obtain ⟨s', hs', hc, -, hu⟩ := insertInOrder_eq h.isOpen index (o.perm data)
    refine ⟨s', ?_, hc, hu h⟩
    rw [perform, hs']
    rfl
  | fetch index kind uids =>
    refine ⟨s, ?_, rfl, h⟩
    rw [perform, fetchInOrder_eq h.isOpen index kind (o.keys_perm uids)]
    rfl
  | fetchAll index kind =>
    refine ⟨s, ?_, rfl, h⟩
    rw [perform, fetchAll_eq h]
    rfl
  | size index =>
    refine ⟨s, ?_, rfl, h⟩
    rw [perform, size_eq h.isOpen]
    rfl
  | sizes indexes =>
    refine ⟨s, ?_, rfl, h⟩
    rw [perform, sizes_eq h.isOpen]
    rfl

/-- A run answers what the contents call for at every step. -/
theorem run_eq {s : Storage} (h : s.Usable) (calls : List (VisitOrder Uid × StorageCall)) :
    ∃ s', s.run calls = (s', (s.contents.run (calls.map Prod.snd)).2.map .ok) ∧
      s'.contents = (s.contents.run (calls.map Prod.snd)).1 ∧ s'.Usable := by
  -- The invariant is that the storage is usable; the contents carry all that a run remembers.
  induction calls generalizing s with
  | nil => exact ⟨s, rfl, rfl, h⟩
  | cons visited rest ih =>
    obtain ⟨s', hs', hc, hu⟩ := perform_eq h visited.1 visited.2
    obtain ⟨last, hlast, hcl, hul⟩ := ih hu
    rw [hc] at hlast hcl
    refine ⟨last, ?_, hcl, hul⟩
    simp only [run, hs', hlast]
    rfl

end Storage

/-- A call, and the orders in which the two stores happen to visit its lines. The order of a fetch
decides which identifiers share a query, and in which order a query answers them. -/
structure SharedCall where
  call : StorageCall
  mapOrder : VisitOrder Uid
  rowOrder : VisitOrder Uid

/-- Started empty, the store of maps and the store of rows answer every run of calls alike, and no call
fails. Sizes are taken to stay below `2 ^ 63`. -/
theorem stores_answer_alike (calls : List SharedCall) :
    ∃ answers : List StorageAnswer,
      ((Storage.empty .keyValue).run (calls.map fun c => (c.mapOrder, c.call))).2 =
        answers.map .ok ∧
      ((Storage.empty .rows).run (calls.map fun c => (c.rowOrder, c.call))).2 =
        answers.map .ok := by
  have hcalls (order : SharedCall → VisitOrder Uid) :
      (calls.map fun c => (order c, c.call)).map Prod.snd = calls.map SharedCall.call := by
    rw [List.map_map]
    rfl
  -- Both runs answer what the empty contents call for, and that does not depend on the orders.
  obtain ⟨s, hs, -⟩ := Storage.run_eq (Storage.usable_empty .keyValue)
    (calls.map fun c => (c.mapOrder, c.call))
  obtain ⟨s', hs', -⟩ := Storage.run_eq (Storage.usable_empty .rows)
    (calls.map fun c => (c.rowOrder, c.call))
  rw [hcalls SharedCall.mapOrder, Storage.contents_empty] at hs
  rw [hcalls SharedCall.rowOrder, Storage.contents_empty] at hs'
  exact ⟨(Contents.empty.run (calls.map SharedCall.call)).2, congrArg Prod.snd hs,
    congrArg Prod.snd hs'⟩

end IndexVault
