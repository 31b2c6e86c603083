import IndexVault.Proofs.Storage.KeyValueBatch

namespace IndexVault

/-- Keys of whole identifiers name the index, the table and the identifier. -/
theorem RowKey.ofUid_inj {i i' : IndexId} {k k' : TableKind} {u u' : Uid} :
    RowKey.ofUid i k u = RowKey.ofUid i' k' u' ↔ i = i' ∧ k = k' ∧ u = u' := by
  constructor
  · intro h
    have hi : i = i' := congrArg RowKey.index h
    have hk : k.tag = k'.tag := congrArg RowKey.tag h
    have hu : u.bytes = u'.bytes := congrArg RowKey.uid h
    exact ⟨hi, TableKind.tag_injective hk, Uid.ext_bytes hu⟩
  · rintro ⟨rfl, rfl, rfl⟩
    rfl

namespace RowStore

/-- A line of a table as a query answers it. -/
def rowOf (line : Uid × Bytes) : Bytes × Bytes := (line.1.bytes, line.2)

/-- The lines of a table, those of damaged rows left out. -/
def tableLines (s : RowStore) (index : IndexId) (kind : TableKind) : List (Uid × Bytes) :=
  (s.selectTable index kind).filterMap fun row =>
    match Uid.ofBytes row.1 with
    | .ok uid => some (uid, row.2)
    | .error _ => none

def table (s : RowStore) (index : IndexId) (kind : TableKind) : EncryptedTable :=
  SortedMap.ofList (s.tableLines index kind)

def contents (s : RowStore) : Contents := ⟨s.table, s.size⟩

theorem mem_selectTable {s : RowStore} {index : IndexId} {kind : TableKind} {uid value : Bytes} :
    (uid, value) ∈ s.selectTable index kind ↔
      s.lines.get? ⟨index, kind.tag, uid⟩ = some value := by
  rw [SortedMap.get?_eq_some_iff, selectTable, List.mem_map]
  constructor
  · rintro ⟨⟨⟨i, tag, u⟩, v⟩, hmem, heq⟩
    cases heq
    obtain ⟨hrow, hkey⟩ := List.mem_filter.1 hmem
    simp only [Bool.and_eq_true, beq_iff_eq] at hkey
    obtain ⟨rfl, rfl⟩ := hkey
    exact hrow
  · intro hmem
    refine ⟨(⟨index, kind.tag, uid⟩, value), List.mem_filter.2 ⟨hmem, ?_⟩, rfl⟩
    simp only [beq_self_eq_true, Bool.and_self]

theorem mem_tableLines {s : RowStore} {index : IndexId} {kind : TableKind} {uid : Uid}
    {value : Bytes} : (uid, value) ∈ s.tableLines index kind ↔
      s.lines.get? (RowKey.ofUid index kind uid) = some value := by
  rw [tableLines, List.mem_filterMap, RowKey.ofUid, ← mem_selectTable]
  constructor
  · rintro ⟨⟨u, v⟩, hmem, heq⟩
    split at heq <;> cases heq
    rename_i hu
    rw [Uid.ofBytes_eq_ok_iff.1 hu]
    exact hmem
  · intro hmem
    refine ⟨(uid.bytes, value), hmem, ?_⟩
    simp only [Uid.ofBytes_eq_ok_iff.2 (rfl : uid.bytes = uid.bytes)]

theorem distinctKeys_tableLines (s : RowStore) (index : IndexId) (kind : TableKind) :
    SortedMap.DistinctKeys (s.tableLines index kind) := by
  have hrows := SortedMap.distinctKeys_toList s.lines
  have hselected : SortedMap.DistinctKeys (s.selectTable index kind) := by
    rw [selectTable, ← List.filterMap_eq_map, ← List.filterMap_eq_filter, List.filterMap_filterMap]
    apply hrows.filterMap
    rintro ⟨⟨i, tag, u⟩, v⟩ ⟨⟨i', tag', u'⟩, v'⟩ y y' hy hy' heq
    simp only [Option.guard, Function.comp_apply, Option.bind_eq_some_iff,
      Option.ite_none_right_eq_some, Bool.and_eq_true, beq_iff_eq, Option.some.injEq] at hy hy'
    obtain ⟨x, ⟨⟨rfl, rfl⟩, rfl⟩, rfl⟩ := hy
    obtain ⟨x', ⟨⟨rfl, rfl⟩, rfl⟩, rfl⟩ := hy'
    exact congrArg (RowKey.mk _ _) heq
  apply hselected.filterMap
  intro x x' y y' hy hy' heq
  split at hy <;> cases hy
  split at hy' <;> cases hy'
  rename_i uid hu _ uid' hu'
  rw [← Uid.ofBytes_eq_ok_iff.1 hu, ← Uid.ofBytes_eq_ok_iff.1 hu']
  exact congrArg Uid.bytes heq

/-- A table holds the rows that are kept under its keys. -/
theorem get?_table (s : RowStore) (index : IndexId) (kind : TableKind) (uid : Uid) :
    (s.table index kind).get? uid = s.lines.get? (RowKey.ofUid index kind uid) := by
  have hkeys := s.distinctKeys_tableLines index kind
  -- Both sides are lookups among distinct keys, so it is enough to compare members.
  apply Option.ext
  intro value
  rw [table, SortedMap.get?_ofList hkeys, SortedMap.lineValue?_eq_some_iff_mem hkeys,
    mem_tableLines]

/-- A written row shows in its own table and in no other. -/
theorem table_write (s : RowStore) (index : IndexId) (kind : TableKind) (uid : Uid)
    (value : Bytes) (i : IndexId) (k : TableKind) :
    ({ s with lines := s.lines.insert (RowKey.ofUid index kind uid) value } : RowStore).table i k =
      if i = index ∧ k = kind then (s.table index kind).insert uid value else s.table i k := by
  apply SortedMap.ext_get?
  intro u
  rw [get?_table, SortedMap.get?_insert]
  simp only [SortedMap.compare_eq_iff, RowKey.ofUid_inj]
  -- Keys of different tables or indexes differ, so only one table sees the row.
  by_cases hik : i = index ∧ k = kind
  · obtain ⟨rfl, rfl⟩ := hik
    simp only [true_and, and_self, if_true, SortedMap.get?_insert, SortedMap.compare_eq_iff,
      get?_table]
  · rw [if_neg hik, if_neg fun h => hik ⟨h.1, h.2.1⟩, get?_table]

/-- Lines of a table as rows. -/
def rowLines (index : IndexId) (kind : TableKind) (lines : List (Uid × Bytes)) :
    List (RowKey × Bytes) :=
  lines.map fun line => (RowKey.ofUid index kind line.1, line.2)

theorem distinctKeys_rowLines (index : IndexId) (kind : TableKind) {lines : List (Uid × Bytes)}
    (h : SortedMap.DistinctKeys lines) : SortedMap.DistinctKeys (rowLines index kind lines) := by
  rw [rowLines, ← List.filterMap_eq_map]
  apply h.filterMap
  intro x x' y y' hy hy' hkey
  cases hy
  cases hy'
  exact (RowKey.ofUid_inj.1 hkey).2.2

/-- Writes the rows of lines of one table of an index. -/
def insertLines (s : RowStore) (index : IndexId) (kind : TableKind) (lines : List (Uid × Bytes)) :
    RowStore :=
  { s with lines := s.lines.insertAll (rowLines index kind lines) }

theorem insertLines_insertLines (s : RowStore) (index : IndexId) (kind : TableKind)
    (l l' : List (Uid × Bytes)) :
    (s.insertLines index kind l).insertLines index kind l' = s.insertLines index kind (l ++ l') := by
  simp only [insertLines, rowLines, List.map_append, SortedMap.insertAll_append]

/-- Lines of distinct identifiers may be written in any order. -/
theorem insertLines_perm (s : RowStore) (index : IndexId) (kind : TableKind)
    {l l' : List (Uid × Bytes)} (h : SortedMap.DistinctKeys l) (hp : l.Perm l') :
    s.insertLines index kind l = s.insertLines index kind l' := by
  have hrows : (rowLines index kind l).Perm (rowLines index kind l') := hp.map _
  rw [insertLines, insertLines,
    SortedMap.insertAll_perm s.lines (distinctKeys_rowLines index kind h) hrows]

theorem table_insertLines (s : RowStore) (index : IndexId) (kind : TableKind)
    (lines : List (Uid × Bytes)) (i : IndexId) (k : TableKind) :
    (s.insertLines index kind lines).table i k =
      if i = index ∧ k = kind then (s.table index kind).insertAll lines else s.table i k := by
  induction lines generalizing s with
  | nil =>
    split
    · rename_i hik
      rw [hik.1, hik.2]
      rfl
    · rfl
  | cons x rest ih =>
    -- The first line is one row; the others are written to what it leaves.
    refine (ih { s with lines := s.lines.insert (RowKey.ofUid index kind x.1) x.2 }).trans ?_
    rw [table_write, table_write]
    simp only [and_self, if_true]
    split <;> rfl

theorem writeEntry_of_eq {s : RowStore} {key : RowKey} {line : UpsertLine}
    (h : s.lines.get? key = line.old) :
    s.writeEntry key line = ({ s with lines := s.lines.insert key line.new }, 1) := by
  cases hold : line.old with
  | none => simp only [writeEntry, insertIfAbsent, hold, h, Option.isNone_none, if_true]
  | some old => simp only [writeEntry, updateWhere, hold, h, if_true]

/-- A conditional statement whose condition does not hold counts no row and changes none. -/
theorem writeEntry_of_ne {s : RowStore} {key : RowKey} {line : UpsertLine}
    (h : s.lines.get? key ≠ line.old) : s.writeEntry key line = (s, 0) := by
  cases hold : line.old with
  | none =>
    rw [hold] at h
    have hsome : ¬(s.lines.get? key).isNone = true := fun hn => h (Option.isNone_iff_eq_none.1 hn)
    simp only [writeEntry, insertIfAbsent, hold, if_neg hsome]
  | some old =>
    rw [hold] at h
    simp only [writeEntry, updateWhere, hold, if_neg h]

theorem swap_of_written {index : IndexId} {b : BatchState} {uid : Uid} {line : UpsertLine}
    (h : b.store.lines.get? (RowKey.ofUid index .entries uid) = line.old) :
    b.swap index uid line =
      { b with
        store := { b.store with
          lines := b.store.lines.insert (RowKey.ofUid index .entries uid) line.new }
        added := if line.old.isNone then b.added + line.new.length else b.added } := by
  simp only [BatchState.swap, writeEntry_of_eq h, Nat.lt_one_iff, if_true]

theorem swap_of_ne {index : IndexId} {b : BatchState} {uid : Uid} {line : UpsertLine}
    (h : b.store.lines.get? (RowKey.ofUid index .entries uid) ≠ line.old) :
    b.swap index uid line =
      match b.store.lines.get? (RowKey.ofUid index .entries uid) with
      | some stored => { b with rejected := b.rejected.insert uid stored }
      | none => b := by
  cases hstored : b.store.lines.get? (RowKey.ofUid index .entries uid) with
  | none =>
    simp only [BatchState.swap, writeEntry_of_ne h, Nat.lt_irrefl, if_false, selectValue, hstored]
  | some stored =>
    simp only [BatchState.swap, writeEntry_of_ne h, Nat.lt_irrefl, if_false, selectValue, hstored]

/-- A batch in progress with the rows of its entries seen as a map. -/
def BatchState.mapView (index : IndexId) (b : BatchState) : KeyValueStore.BatchState :=
  { lines := b.store.table index .entries, rejected := b.rejected, added := b.added }

/-- A line does to the rows what it does to a map. -/
theorem mapView_swap (index : IndexId) (b : BatchState) (uid : Uid) (line : UpsertLine) :
    (b.swap index uid line).mapView index = (b.mapView index).swap uid line := by
  have hget : (b.mapView index).lines.get? uid =
      b.store.lines.get? (RowKey.ofUid index .entries uid) := get?_table b.store index .entries uid
  -- The statement that was chosen by the old value changes a row in the first case alone.
  cases hout : line.outcome ((b.mapView index).lines.get? uid) with
  | written =>
    have hold := UpsertLine.outcome_eq_written_iff.1 hout
    rw [KeyValueStore.swap_of_written hout, swap_of_written (hget ▸ hold)]
    simp only [BatchState.mapView, table_write, and_self, if_true,
      KeyValueStore.BatchState.mk.injEq, true_and]
    rw [← hold]
    rfl
  | rejected stored =>
    obtain ⟨hstored, hne⟩ := UpsertLine.outcome_eq_rejected_iff.1 hout
    rw [KeyValueStore.swap_of_rejected hout, swap_of_ne (hget ▸ hne), ← hget, hstored]
    rfl
  | dropped =>
    obtain ⟨hstored, hold⟩ := UpsertLine.outcome_eq_dropped_iff.1 hout
    have hne : (b.mapView index).lines.get? uid ≠ line.old := fun h => hold (h.symm.trans hstored)
    rw [KeyValueStore.swap_of_dropped hout, swap_of_ne (hget ▸ hne), ← hget, hstored]

/-- A line changes the one row that it writes, if it is written. -/
theorem store_swap (index : IndexId) (b : BatchState) (uid : Uid) (line : UpsertLine) :
    (b.swap index uid line).store = b.store.insertLines index .entries
      (EncryptedTable.writtenLines (b.store.table index .entries) [(uid, line)]) := by
  have hget : (b.store.table index .entries).get? uid =
      b.store.lines.get? (RowKey.ofUid index .entries uid) := get?_table b.store index .entries uid
  by_cases h : b.store.lines.get? (RowKey.ofUid index .entries uid) = line.old
  · have hout : line.outcome ((b.store.table index .entries).get? uid) = .written :=
      UpsertLine.outcome_eq_written_iff.2 (hget.trans h)
    rw [swap_of_written h, EncryptedTable.writtenLines_cons_of_written _ _ hout]
    rfl
  · have hout : line.outcome ((b.store.table index .entries).get? uid) ≠ .written :=
      fun hwritten => h (hget.symm.trans (UpsertLine.outcome_eq_written_iff.1 hwritten))
    rw [swap_of_ne h, EncryptedTable.writtenLines_cons_of_ne _ _ hout]
    split <;> rfl

/-- A batch changes the rows that it writes. -/
theorem store_foldl_swap (index : IndexId) (b : BatchState) {lines : List (Uid × UpsertLine)}
    (h : SortedMap.DistinctKeys lines) :
    (lines.foldl (fun b line => b.swap index line.1 line.2) b).store =
      b.store.insertLines index .entries
        (EncryptedTable.writtenLines (b.store.table index .entries) lines) := by
  induction lines generalizing b with
  | nil => rfl
  | cons x rest ih =>
    obtain ⟨hx, hrest⟩ := h.of_cons
    let first := EncryptedTable.writtenLines (b.store.table index .entries) [x]
    -- The rows of the first line are not those of the later ones.
    have hsame : ∀ line ∈ rest,
        ((b.store.insertLines index .entries first).table index .entries).get? line.1 =
          (b.store.table index .entries).get? line.1 := by
      intro line hline
      rw [table_insertLines, if_pos ⟨rfl, rfl⟩]
      apply SortedMap.get?_insertAll_of_not_mem
      intro hmem
      obtain ⟨⟨uid, value⟩, hwritten, hkey⟩ := List.mem_map.1 hmem
      obtain ⟨line', hline', -⟩ := EncryptedTable.mem_writtenLines.1 hwritten
      have hfirst : uid = x.1 := congrArg Prod.fst (List.mem_singleton.1 hline')
      have hkey' : line.1 = x.1 := hkey.symm.trans hfirst
      exact hx (hkey' ▸ List.mem_map_of_mem hline)
    rw [List.foldl_cons, ih (b.swap index x.1 x.2) hrest, store_swap,
      EncryptedTable.writtenLines_congr hsame, insertLines_insertLines,
      ← EncryptedTable.writtenLines_append]
    rfl

/-- On the rows of the entries a whole batch does what it does to a map. -/
theorem mapView_foldl_swap (s : RowStore) (index : IndexId) {data : UpsertData}
    {lines : List (Uid × UpsertLine)} (hp : lines.Perm data.toList) :
    (lines.foldl (fun b line => b.swap index line.1 line.2)
      ({ store := s } : BatchState)).mapView index =
      { lines := EncryptedTable.swapped (s.table index .entries) data
        rejected := EncryptedTable.rejections (s.table index .entries) data
        added := valueBytes (EncryptedTable.newLines (s.table index .entries) data.toList) } := by
  rw [← KeyValueStore.foldl_swap_of_perm (s.table index .entries) hp]
  exact (List.foldl_hom (BatchState.mapView index)
    (fun b line => (mapView_swap index b line.1 line.2).symm)).symm

/-- Writes lines to one table of an index, and counts bytes for the index. -/
def writeLines (s : RowStore) (index : IndexId) (kind : TableKind) (lines : List (Uid × Bytes))
    (added : Nat) : RowStore :=
  (s.insertLines index kind lines).addSize index added

/-- In whatever order its lines are visited, an upsert writes the rows that the table before it accepts, and
rejects the lines that this table rejects. -/
theorem upsertInOrder_eq (s : RowStore) (index : IndexId) {data : UpsertData}
    {lines : List (Uid × UpsertLine)} (hp : lines.Perm data.toList) :
    s.upsertInOrder index lines =
      (s.writeLines index .entries
          (EncryptedTable.writtenLines (s.table index .entries) data.toList)
          (valueBytes (EncryptedTable.newLines (s.table index .entries) data.toList)),
        EncryptedTable.rejections (s.table index .entries) data) := by
  have hkeys : SortedMap.DistinctKeys lines := (SortedMap.distinctKeys_toList data).perm hp.symm
  have hview := mapView_foldl_swap s index hp
  have hadded := congrArg KeyValueStore.BatchState.added hview
  have hrejected := congrArg KeyValueStore.BatchState.rejected hview
  simp only [BatchState.mapView] at hadded hrejected
  rw [upsertInOrder, store_foldl_swap index { store := s } hkeys, hadded, hrejected,
    insertLines_perm s index .entries (EncryptedTable.distinctKeys_writtenLines _ hkeys)
      (hp.filterMap _)]
  rfl

theorem foldl_insertOrReplace (s : RowStore) (index : IndexId) (lines : List (Uid × Bytes)) :
    lines.foldl (fun (s : RowStore) line =>
      s.insertOrReplace (RowKey.ofUid index .chains line.1) line.2) s =
      s.insertLines index .chains lines := by
  induction lines generalizing s with
  | nil => rfl
  | cons x rest ih => exact ih _

/-- An insertion replaces the rows that are there and adds the bytes of all its values to the size. -/
theorem insertInOrder_eq (s : RowStore) (index : IndexId) {data : EncryptedTable}
    {lines : List (Uid × Bytes)} (hp : lines.Perm data.toList) :
    s.insertInOrder index lines =
      s.writeLines index .chains data.toList (valueBytes data.toList) := by
  have hkeys : SortedMap.DistinctKeys lines := (SortedMap.distinctKeys_toList data).perm hp.symm
  rw [insertInOrder, foldl_insertOrReplace, valueBytes_perm hp,
    insertLines_perm s index .chains hkeys hp]
  rfl

theorem contents_addSize (s : RowStore) (index : IndexId) (added : Nat) :
    (s.addSize index added).contents = s.contents.grow index added := by
  apply Contents.ext
  · funext i k
    rw [addSize]
    split <;> rfl
  · funext i
    simp only [contents, Contents.size_grow, addSize, size]
    split
    -- No size row is written when nothing was added.
    · rename_i hzero
      simp only [hzero, Nat.add_zero, ite_self]
    · by_cases hi : i = index
      · subst hi
        simp only [SortedMap.get?_insert_self, if_true, Option.getD_some]
      · simp only [SortedMap.get?_insert_of_ne _ hi, if_neg hi]

/-- The contents become what the same lines make of them. -/
theorem contents_writeLines (s : RowStore) (index : IndexId) (kind : TableKind)
    (lines : List (Uid × Bytes)) (added : Nat) :
    (s.writeLines index kind lines added).contents =
      s.contents.writeLines index kind lines added := by
  rw [writeLines, contents_addSize, Contents.writeLines]
  apply congrArg (Contents.grow · index added)
  apply Contents.ext
  · funext i k
    exact table_insertLines s index kind lines i k
  · rfl

theorem flatten_chunks {α : Type} (n : Nat) (l : List α) : (chunks n l).flatten = l := by
  induction l using chunks.induct n with
  | case1 l hl =>
    rw [chunks, if_pos hl, List.isEmpty_iff.1 hl]
    rfl
  | case2 l hl ih =>
    rw [chunks, if_neg hl, List.flatten_cons, ih, List.take_append_drop]

theorem readRows_rowOf (t : EncryptedTable) (lines : List (Uid × Bytes)) :
    readRows t (lines.map rowOf) = .ok (t.insertAll lines) := by
  induction lines generalizing t with
  | nil => rfl
  | cons x rest ih =>
    have huid : readUid x.1.bytes = .ok x.1 := by
      rw [readUid, Uid.ofBytes_eq_ok_iff.2 (rfl : x.1.bytes = x.1.bytes)]
    have hstep : readRows t ((x :: rest).map rowOf) =
        (readUid x.1.bytes >>= fun uid => pure (t.insert uid x.2)) >>= fun t' =>
          readRows t' (rest.map rowOf) := rfl
    rw [hstep, huid]
    exact ih (t.insert x.1 x.2)

def foundLines (s : RowStore) (index : IndexId) (kind : TableKind) (uids : List Uid) :
    List (Uid × Bytes) :=
  uids.filterMap fun uid => ((s.table index kind).get? uid).map fun value => (uid, value)

/-- A query among identifiers finds their rows in the order of the identifiers. -/
theorem selectAmong_eq (s : RowStore) (index : IndexId) (kind : TableKind) (uids : List Uid) :
    s.selectAmong index kind uids = (s.foundLines index kind uids).map rowOf := by
  rw [selectAmong, foundLines, List.map_filterMap]
  apply List.filterMap_congr
  intro uid _
  rw [get?_table, selectValue, Option.map_map]
  rfl

/-- Piece by piece, a fetch finds what one query would find. -/
theorem foldlM_fetchChunk (s : RowStore) (index : IndexId) (kind : TableKind) (t : EncryptedTable)
    (pieces : List (List Uid)) :
    pieces.foldlM (s.fetchChunk index kind) t =
      .ok (t.insertAll (s.foundLines index kind pieces.flatten)) := by
  induction pieces generalizing t with
  | nil => rfl
  | cons piece rest ih =>
    -- What the earlier pieces found stays in the map; the next piece is added to it.
    have hpiece : s.fetchChunk index kind t piece =
        .ok (t.insertAll (s.foundLines index kind piece)) := by
      rw [fetchChunk, selectAmong_eq, readRows_rowOf]
    rw [List.foldlM_cons, hpiece]
    change rest.foldlM (s.fetchChunk index kind) _ = _
    rw [ih, List.flatten_cons]
    simp only [foundLines, List.filterMap_append, SortedMap.insertAll, List.foldl_append]

/-- The queries of a fetch find together what one look-up of all its identifiers finds. -/
theorem fetchInOrder_eq (s : RowStore) (index : IndexId) (kind : TableKind) (order : List Uid) :
    s.fetchInOrder index kind order = .ok ((s.table index kind).restrictToKeys order) := by
  rw [fetchInOrder, foldlM_fetchChunk, flatten_chunks]
  rfl

/-- Every row has an identifier of the right length. -/
def Undamaged (s : RowStore) : Prop :=
  ∀ key value, s.lines.get? key = some value → key.uid.length = 32

theorem Undamaged.write {s : RowStore} (h : s.Undamaged) (index : IndexId) (kind : TableKind)
    (uid : Uid) (value : Bytes) :
    Undamaged { s with lines := s.lines.insert (RowKey.ofUid index kind uid) value } := by
  intro key v hv
  rw [SortedMap.get?_insert] at hv
  split at hv
  · rename_i hkey
    rw [SortedMap.compare_eq_iff.1 hkey]
    exact uid.length_eq
  · exact h key v hv

theorem lines_addSize (s : RowStore) (index : IndexId) (added : Nat) :
    (s.addSize index added).lines = s.lines := by
  rw [addSize]
  split <;> rfl

theorem Undamaged.addSize {s : RowStore} (h : s.Undamaged) (index : IndexId) (added : Nat) :
    (s.addSize index added).Undamaged := by
  intro key value hv
  rw [lines_addSize] at hv
  exact h key value hv

/-- Written lines have whole identifiers. -/
theorem Undamaged.writeLines {s : RowStore} (h : s.Undamaged) (index : IndexId) (kind : TableKind)
    (lines : List (Uid × Bytes)) (added : Nat) : (s.writeLines index kind lines added).Undamaged := by
  apply Undamaged.addSize
  induction lines generalizing s with
  | nil => exact h
  | cons x rest ih => exact ih (h.write index kind x.1 x.2)

/-- Where no row of a table is damaged, a query for the whole table answers the table. -/
theorem fetchAll_of_length_eq {s : RowStore} {index : IndexId} {kind : TableKind}
    (h : ∀ row ∈ s.selectTable index kind, row.1.length = 32) :
    s.fetchAll index kind = .ok (s.table index kind) := by
  have hrows : s.selectTable index kind = (s.tableLines index kind).map rowOf := by
    rw [tableLines, List.map_filterMap]
    symm
    apply (List.filterMap_congr _).trans List.filterMap_some
    intro row hrow
    -- No row is left out, for only a damaged one would be.
    simp only [Uid.ofBytes, dif_pos (h row hrow), Option.map_some, rowOf]
  rw [fetchAll, hrows, readRows_rowOf]
  rfl

/-- Where no row is damaged, a query for a whole table answers the table. -/
theorem fetchAll_eq {s : RowStore} (h : s.Undamaged) (index : IndexId) (kind : TableKind) :
    s.fetchAll index kind = .ok (s.table index kind) := by
  apply fetchAll_of_length_eq
  intro row hrow
  exact h _ _ (mem_selectTable.1 hrow)

end RowStore
end IndexVault
