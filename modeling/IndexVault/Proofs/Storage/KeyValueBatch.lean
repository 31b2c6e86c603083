import IndexVault.Proofs.Storage.Contents

namespace IndexVault

namespace EncryptedTable

section

variable (t : EncryptedTable) {x : Uid × UpsertLine} (rest : List (Uid × UpsertLine))

theorem writtenLines_cons_of_written (h : x.2.outcome (t.get? x.1) = .written) :
    t.writtenLines (x :: rest) = (x.1, x.2.new) :: t.writtenLines rest := by
  simp only [writtenLines, List.filterMap_cons, h]

theorem writtenLines_cons_of_ne (h : x.2.outcome (t.get? x.1) ≠ .written) :
    t.writtenLines (x :: rest) = t.writtenLines rest := by
  rw [writtenLines, List.filterMap_cons]
  split
  · rfl
  · rename_i hline
    split at hline
    · exact absurd ‹_› h
    · cases hline

theorem rejectedLines_cons_of_rejected {stored : Bytes}
    (h : x.2.outcome (t.get? x.1) = .rejected stored) :
    t.rejectedLines (x :: rest) = (x.1, stored) :: t.rejectedLines rest := by
  simp only [rejectedLines, List.filterMap_cons, h]

theorem rejectedLines_cons_of_ne (h : ∀ stored, x.2.outcome (t.get? x.1) ≠ .rejected stored) :
    t.rejectedLines (x :: rest) = t.rejectedLines rest := by
  rw [rejectedLines, List.filterMap_cons]
  split
  · rfl
  · rename_i hline
    split at hline
    · exact absurd ‹_› (h _)
    · cases hline

end

end EncryptedTable

namespace KeyValueStore

/-- What clients see of the store. -/
def contents (s : KeyValueStore) : Contents := ⟨s.table, s.size⟩

/-- A line whose old value is stored is written. -/
theorem swap_of_written {b : BatchState} {uid : Uid} {line : UpsertLine}
    (h : line.outcome (b.lines.get? uid) = .written) :
    b.swap uid line =
      { b with
        lines := b.lines.insert uid line.new
        added := if (b.lines.get? uid).isNone then b.added + line.new.length else b.added } := by
  simp only [BatchState.swap, if_pos (UpsertLine.outcome_eq_written_iff.1 h)]

theorem swap_of_rejected {b : BatchState} {uid : Uid} {line : UpsertLine} {stored : Bytes}
    (h : line.outcome (b.lines.get? uid) = .rejected stored) :
    b.swap uid line = { b with rejected := b.rejected.insert uid stored } := by
  obtain ⟨hstored, hne⟩ := UpsertLine.outcome_eq_rejected_iff.1 h
  rw [hstored] at hne
  simp only [BatchState.swap, hstored, if_neg hne]

/-- A line that expects a value where nothing is stored does nothing. -/
theorem swap_of_dropped {b : BatchState} {uid : Uid} {line : UpsertLine}
    (h : line.outcome (b.lines.get? uid) = .dropped) : b.swap uid line = b := by
  obtain ⟨hstored, hold⟩ := UpsertLine.outcome_eq_dropped_iff.1 h
  simp only [BatchState.swap, hstored, if_neg hold.symm]

/-- A batch is decided by the lines it starts from. -/
theorem foldl_swap (b : BatchState) {lines : List (Uid × UpsertLine)}
    (h : SortedMap.DistinctKeys lines) :
    lines.foldl (fun b line => b.swap line.1 line.2) b =
      { lines := b.lines.insertAll (b.lines.writtenLines lines)
        rejected := b.rejected.insertAll (b.lines.rejectedLines lines)
        added := b.added + valueBytes (b.lines.newLines lines) } := by
  induction lines generalizing b with
  | nil => rfl
  | cons x rest ih =>
    obtain ⟨hx, hrest⟩ := h.of_cons
    rw [List.foldl_cons, ih (b.swap x.1 x.2) hrest]
    cases hout : x.2.outcome (b.lines.get? x.1) with
    | written =>
      -- The later lines are of other identifiers, so they meet what they would have met without `x`.
      have hsame : ∀ line ∈ rest, SortedMap.get? (b.lines.insert x.1 x.2.new) line.1 =
          b.lines.get? line.1 := by
        intro line hline
        have hne : line.1 ≠ x.1 := fun heq => hx (heq ▸ List.mem_map_of_mem hline)
        exact SortedMap.get?_insert_of_ne b.lines hne x.2.new
      have hwritten := EncryptedTable.writtenLines_cons_of_written b.lines rest hout
      have hrejected : b.lines.rejectedLines (x :: rest) = b.lines.rejectedLines rest := by
        apply EncryptedTable.rejectedLines_cons_of_ne
        simp [hout]
      rw [swap_of_written hout]
      simp only [EncryptedTable.writtenLines_congr hsame,
        EncryptedTable.rejectedLines_congr hsame, EncryptedTable.newLines_congr hsame,
        hwritten, hrejected, BatchState.mk.injEq]
      refine ⟨rfl, trivial, ?_⟩
      -- Only a line that is written where nothing was stored counts for the size.
      rw [EncryptedTable.newLines, EncryptedTable.newLines, hwritten, List.filter_cons]
      split
      · simp only [valueBytes]
        omega
      · rfl
    | rejected stored =>
      have hwritten : b.lines.writtenLines (x :: rest) = b.lines.writtenLines rest := by
        apply EncryptedTable.writtenLines_cons_of_ne
        simp [hout]
      have hrejected := EncryptedTable.rejectedLines_cons_of_rejected b.lines rest hout
      rw [swap_of_rejected hout]
      simp only [EncryptedTable.newLines, hwritten, hrejected]
      rfl
    | dropped =>
      have hwritten : b.lines.writtenLines (x :: rest) = b.lines.writtenLines rest := by
        apply EncryptedTable.writtenLines_cons_of_ne
        simp [hout]
      have hrejected : b.lines.rejectedLines (x :: rest) = b.lines.rejectedLines rest := by
        apply EncryptedTable.rejectedLines_cons_of_ne
        simp [hout]
      rw [swap_of_dropped hout]
      simp only [EncryptedTable.newLines, hwritten, hrejected]

/-- The order of its lines makes no difference to a batch. -/
theorem foldl_swap_of_perm (t : EncryptedTable) {data : UpsertData}
    {lines : List (Uid × UpsertLine)} (hp : lines.Perm data.toList) :
    lines.foldl (fun b line => b.swap line.1 line.2) ({ lines := t } : BatchState) =
      { lines := t.swapped data
        rejected := t.rejections data
        added := valueBytes (t.newLines data.toList) } := by
  have hkeys : SortedMap.DistinctKeys lines := (SortedMap.distinctKeys_toList data).perm hp.symm
  have hlines : t.insertAll (t.writtenLines lines) = t.swapped data :=
    SortedMap.insertAll_perm t (t.distinctKeys_writtenLines hkeys) (hp.filterMap _)
  have hrejected : SortedMap.ofList (t.rejectedLines lines) = t.rejections data :=
    SortedMap.ofList_perm (t.distinctKeys_rejectedLines hkeys) (hp.filterMap _)
  have hadded : valueBytes (t.newLines lines) = valueBytes (t.newLines data.toList) :=
    valueBytes_perm ((hp.filterMap _).filter _)
  rw [foldl_swap { lines := t } hkeys, ← hrejected]
  simp only [hlines, hadded, Nat.zero_add]
  rfl

def setTable (s : KeyValueStore) (index : IndexId) (kind : TableKind) (t : EncryptedTable) :
    KeyValueStore :=
  match kind with
  | .entries => { s with entries := s.entries.insert index t }
  | .chains => { s with chains := s.chains.insert index t }

/-- Writes lines to one table of an index, and counts bytes for the index. -/
def writeLines (s : KeyValueStore) (index : IndexId) (kind : TableKind)
    (lines : List (Uid × Bytes)) (added : Nat) : KeyValueStore :=
  (s.setTable index kind ((s.table index kind).insertAll lines)).addSize index added

/-- In whatever order its lines are visited, an upsert writes the lines that the table before it accepts,
and rejects the lines that this table rejects. -/
theorem upsertInOrder_eq (s : KeyValueStore) (index : IndexId) {data : UpsertData}
    {lines : List (Uid × UpsertLine)} (hp : lines.Perm data.toList) :
    s.upsertInOrder index lines =
      (s.writeLines index .entries ((s.table index .entries).writtenLines data.toList)
          (valueBytes ((s.table index .entries).newLines data.toList)),
        (s.table index .entries).rejections data) := by
  rw [upsertInOrder, foldl_swap_of_perm (s.table index .entries) hp]
  rfl

theorem insertInOrder_eq (s : KeyValueStore) (index : IndexId) {data : EncryptedTable}
    {lines : List (Uid × Bytes)} (hp : lines.Perm data.toList) :
    s.insertInOrder index lines =
      s.writeLines index .chains data.toList (valueBytes data.toList) := by
  have hkeys : SortedMap.DistinctKeys lines := (SortedMap.distinctKeys_toList data).perm hp.symm
  rw [insertInOrder, valueBytes_perm hp, SortedMap.insertAll_perm (s.table index .chains) hkeys hp]
  rfl

theorem table_setTable (s : KeyValueStore) (index : IndexId) (kind : TableKind)
    (t : EncryptedTable) (i : IndexId) (k : TableKind) :
    (s.setTable index kind t).table i k = if i = index ∧ k = kind then t else s.table i k := by
  by_cases hi : i = index
  · subst hi
    cases kind <;> cases k <;> simp [setTable, table, SortedMap.get?_insert_self]
  · cases kind <;> cases k <;> simp [setTable, table, SortedMap.get?_insert_of_ne _ hi, hi]

theorem contents_addSize (s : KeyValueStore) (index : IndexId) (added : Nat) :
    (s.addSize index added).contents = s.contents.grow index added := by
  apply Contents.ext
  · funext i k
    cases k <;> rfl
  · funext i
    by_cases hi : i = index
    · subst hi
      simp [contents, addSize, size, SortedMap.get?_insert_self]
    · simp [contents, addSize, size, SortedMap.get?_insert_of_ne _ hi, hi]

/-- The contents become what the same lines make of them. -/
theorem contents_writeLines (s : KeyValueStore) (index : IndexId) (kind : TableKind)
    (lines : List (Uid × Bytes)) (added : Nat) :
    (s.writeLines index kind lines added).contents =
      s.contents.writeLines index kind lines added := by
  rw [writeLines, contents_addSize, Contents.writeLines]
  apply congrArg (Contents.grow · index added)
  apply Contents.ext
  · funext i k
    exact table_setTable s index kind _ i k
  · cases kind <;> rfl

/-- In whatever order its identifiers are visited, a fetch answers the table restricted to them. -/
theorem fetchInOrder_eq_restrict (s : KeyValueStore) (index : IndexId) (kind : TableKind)
    {uids : UidSet} {order : List Uid} (hp : order.Perm uids.keys) :
    s.fetchInOrder index kind order = (s.contents.table index kind).restrict uids :=
  SortedMap.restrictToKeys_perm _ hp

end KeyValueStore
end IndexVault
