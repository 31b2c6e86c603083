import IndexVault.Proofs.DisjointMaps
import IndexVault.Storage.Backend

namespace IndexVault

/-- What becomes of a line of a batch. It is read off the table as it was before the batch, so no order of
lines is mentioned: a line is written where the stored value is the old value given, else it is rejected
where something is stored and dropped where nothing is. -/
inductive LineOutcome where
  | written
  | rejected (stored : Bytes)
  | dropped
  deriving DecidableEq, Repr

/-- What becomes of a line, given what is stored under its identifier. -/
def UpsertLine.outcome (line : UpsertLine) (stored : Option Bytes) : LineOutcome :=
  if stored = line.old then .written
  else
    match stored with
    | some value => .rejected value
    | none => .dropped

/-- A line is written where the stored value is the old value given. -/
theorem UpsertLine.outcome_eq_written_iff {line : UpsertLine} {stored : Option Bytes} :
    line.outcome stored = .written ↔ stored = line.old := by
  unfold outcome
  split
  · rename_i h
    exact iff_of_true rfl h
  · rename_i h
    cases stored <;> exact iff_of_false (by simp) h

theorem UpsertLine.outcome_eq_rejected_iff {line : UpsertLine} {stored : Option Bytes}
    {value : Bytes} :
    line.outcome stored = .rejected value ↔ stored = some value ∧ stored ≠ line.old := by
  unfold outcome
  split
  · rename_i h
    simp [h]
  · rename_i h
    cases stored <;> simp [h]

/-- A line is dropped where it expects a value and nothing is stored. -/
theorem UpsertLine.outcome_eq_dropped_iff {line : UpsertLine} {stored : Option Bytes} :
    line.outcome stored = .dropped ↔ stored = none ∧ line.old ≠ none := by
  unfold outcome
  split
  · rename_i h
    rw [← h]
    exact iff_of_false (by simp) (fun hs => hs.2 hs.1)
  · rename_i h
    cases stored with
    | none => exact iff_of_true rfl ⟨rfl, fun hold => h hold.symm⟩
    | some value => exact iff_of_false (by simp) (by simp)

namespace EncryptedTable

/-- The lines of a batch that are written, with their new values. -/
def writtenLines (t : EncryptedTable) (lines : List (Uid × UpsertLine)) : List (Uid × Bytes) :=
  lines.filterMap fun line =>
    match line.2.outcome (t.get? line.1) with
    | .written => some (line.1, line.2.new)
    | _ => none

/-- The lines of a batch that are rejected, with the stored values. -/
def rejectedLines (t : EncryptedTable) (lines : List (Uid × UpsertLine)) : List (Uid × Bytes) :=
  lines.filterMap fun line =>
    match line.2.outcome (t.get? line.1) with
    | .rejected stored => some (line.1, stored)
    | _ => none

/-- The lines of a batch that are written where nothing was stored. -/
def newLines (t : EncryptedTable) (lines : List (Uid × UpsertLine)) : List (Uid × Bytes) :=
  (t.writtenLines lines).filter fun line => (t.get? line.1).isNone

def swapped (t : EncryptedTable) (data : UpsertData) : EncryptedTable :=
  t.insertAll (t.writtenLines data.toList)

def rejections (t : EncryptedTable) (data : UpsertData) : EncryptedTable :=
  SortedMap.ofList (t.rejectedLines data.toList)

theorem distinctKeys_writtenLines (t : EncryptedTable) {lines : List (Uid × UpsertLine)}
    (h : SortedMap.DistinctKeys lines) : SortedMap.DistinctKeys (t.writtenLines lines) := by
  apply h.filterMap_same
  intro x y hy
  split at hy <;> cases hy
  rfl

theorem distinctKeys_rejectedLines (t : EncryptedTable) {lines : List (Uid × UpsertLine)}
    (h : SortedMap.DistinctKeys lines) : SortedMap.DistinctKeys (t.rejectedLines lines) := by
  apply h.filterMap_same
  intro x y hy
  split at hy <;> cases hy
  rfl

/-- The lines that a batch writes are those whose old value is the stored one. -/
theorem mem_writtenLines {t : EncryptedTable} {lines : List (Uid × UpsertLine)} {uid : Uid}
    {value : Bytes} : (uid, value) ∈ t.writtenLines lines ↔
      ∃ line, (uid, line) ∈ lines ∧ t.get? uid = line.old ∧ line.new = value := by
  rw [writtenLines, List.mem_filterMap]
  constructor
  · rintro ⟨⟨u, line⟩, hmem, hline⟩
    split at hline <;> cases hline
    rename_i hout
    exact ⟨line, hmem, UpsertLine.outcome_eq_written_iff.1 hout, rfl⟩
  · rintro ⟨line, hmem, hold, rfl⟩
    refine ⟨(uid, line), hmem, ?_⟩
    simp only [UpsertLine.outcome_eq_written_iff.2 hold]

/-- The lines that a batch rejects come with what is stored in place of their old value. -/
theorem mem_rejectedLines {t : EncryptedTable} {lines : List (Uid × UpsertLine)} {uid : Uid}
    {value : Bytes} : (uid, value) ∈ t.rejectedLines lines ↔
      ∃ line, (uid, line) ∈ lines ∧ t.get? uid = some value ∧ line.old ≠ some value := by
  rw [rejectedLines, List.mem_filterMap]
  constructor
  · rintro ⟨⟨u, line⟩, hmem, hline⟩
    split at hline <;> cases hline
    rename_i stored hout
    obtain ⟨hstored, hne⟩ := UpsertLine.outcome_eq_rejected_iff.1 hout
    exact ⟨line, hmem, hstored, fun h => hne (hstored.trans h.symm)⟩
  · rintro ⟨line, hmem, hstored, hne⟩
    refine ⟨(uid, line), hmem, ?_⟩
    have hout : line.outcome (t.get? uid) = .rejected value :=
      UpsertLine.outcome_eq_rejected_iff.2 ⟨hstored, fun h => hne (h.symm.trans hstored)⟩
    simp only [hout]

theorem lineValue?_writtenLines_eq_some_iff {t : EncryptedTable} {data : UpsertData} {uid : Uid}
    {value : Bytes} : SortedMap.lineValue? uid (t.writtenLines data.toList) = some value ↔
      ∃ line, data.get? uid = some line ∧ t.get? uid = line.old ∧ line.new = value := by
  have hkeys := t.distinctKeys_writtenLines (SortedMap.distinctKeys_toList data)
  rw [SortedMap.lineValue?_eq_some_iff_mem hkeys, mem_writtenLines]
  simp only [SortedMap.get?_eq_some_iff]

/-- A batch decides each identifier by its own line. -/
theorem get?_swapped (t : EncryptedTable) (data : UpsertData) (uid : Uid) :
    (t.swapped data).get? uid =
      match data.get? uid with
      | some line => if t.get? uid = line.old then some line.new else t.get? uid
      | none => t.get? uid := by
  have hkeys := SortedMap.distinctKeys_toList data
  rw [swapped, SortedMap.get?_insertAll t (t.distinctKeys_writtenLines hkeys)]
  -- The written line of `uid`, if there is one, is the line of the batch whose old value is stored.
  split
  · rename_i line hline
    split
    · rename_i hold
      rw [lineValue?_writtenLines_eq_some_iff.2 ⟨line, hline, hold, rfl⟩]
      rfl
    · rename_i hold
      have hnone : SortedMap.lineValue? uid (t.writtenLines data.toList) = none := by
        apply Option.eq_none_iff_forall_ne_some.2
        intro value hv
        obtain ⟨line', hline', hold', -⟩ := lineValue?_writtenLines_eq_some_iff.1 hv
        cases hline.symm.trans hline'
        exact hold hold'
      rw [hnone]
      rfl
  · rename_i hline
    have hnone : SortedMap.lineValue? uid (t.writtenLines data.toList) = none := by
      apply Option.eq_none_iff_forall_ne_some.2
      intro value hv
      obtain ⟨line', hline', -, -⟩ := lineValue?_writtenLines_eq_some_iff.1 hv
      cases hline.symm.trans hline'
    rw [hnone]
    rfl

/-- A value is answered for a line if it is stored and is not the old value of the line. -/
theorem get?_rejections_eq_some_iff {t : EncryptedTable} {data : UpsertData} {uid : Uid}
    {value : Bytes} : (t.rejections data).get? uid = some value ↔
      ∃ line, data.get? uid = some line ∧ t.get? uid = some value ∧ line.old ≠ some value := by
  have hkeys := t.distinctKeys_rejectedLines (SortedMap.distinctKeys_toList data)
  rw [rejections, SortedMap.get?_ofList hkeys, SortedMap.lineValue?_eq_some_iff_mem hkeys,
    mem_rejectedLines]
  simp only [SortedMap.get?_eq_some_iff]

/-- A line is told of when something else than its old value is stored. -/
theorem get?_rejections (t : EncryptedTable) (data : UpsertData) (uid : Uid) :
    (t.rejections data).get? uid =
      match data.get? uid with
      | some line => if t.get? uid = line.old then none else t.get? uid
      | none => none := by
  apply Option.ext
  intro value
  rw [get?_rejections_eq_some_iff]
  cases hline : data.get? uid with
  | none => simp
  | some line =>
    by_cases hold : t.get? uid = line.old
    · simp [hold]
    · -- What is stored is told, and it is not the old value.
      have hne : t.get? uid = some value → line.old ≠ some value :=
        fun hstored holds => hold (hstored.trans holds.symm)
      simpa [hold] using hne

theorem writtenLines_append (t : EncryptedTable) (l l' : List (Uid × UpsertLine)) :
    t.writtenLines (l ++ l') = t.writtenLines l ++ t.writtenLines l' := List.filterMap_append

theorem newLines_append (t : EncryptedTable) (l l' : List (Uid × UpsertLine)) :
    t.newLines (l ++ l') = t.newLines l ++ t.newLines l' := by
  rw [newLines, writtenLines_append]
  exact List.filter_append _ _

/-- A batch is decided by what is stored under its own identifiers. -/
theorem writtenLines_congr {t t' : EncryptedTable} {lines : List (Uid × UpsertLine)}
    (h : ∀ line ∈ lines, t.get? line.1 = t'.get? line.1) :
    t.writtenLines lines = t'.writtenLines lines := by
  apply List.filterMap_congr
  intro line hline
  rw [h line hline]

theorem rejectedLines_congr {t t' : EncryptedTable} {lines : List (Uid × UpsertLine)}
    (h : ∀ line ∈ lines, t.get? line.1 = t'.get? line.1) :
    t.rejectedLines lines = t'.rejectedLines lines := by
  apply List.filterMap_congr
  intro line hline
  rw [h line hline]

theorem newLines_congr {t t' : EncryptedTable} {lines : List (Uid × UpsertLine)}
    (h : ∀ line ∈ lines, t.get? line.1 = t'.get? line.1) :
    t.newLines lines = t'.newLines lines := by
  rw [newLines, writtenLines_congr h, newLines]
  apply List.filter_congr
  rintro ⟨uid, value⟩ hwritten
  obtain ⟨line, hline, -⟩ := mem_writtenLines.1 hwritten
  rw [h _ hline]

end EncryptedTable

theorem valueBytes_append (l l' : List (Uid × Bytes)) :
    valueBytes (l ++ l') = valueBytes l + valueBytes l' := by
  induction l with
  | nil => rw [List.nil_append, valueBytes, Nat.zero_add]
  | cons x rest ih =>
    rw [List.cons_append, valueBytes, valueBytes, ih]
    omega

theorem valueBytes_perm {l l' : List (Uid × Bytes)} (h : l.Perm l') :
    valueBytes l = valueBytes l' := by
  induction h with
  | nil => rfl
  | cons x _ ih => simp only [valueBytes, ih]
  | swap x y l => simp only [valueBytes]; omega
  | trans _ _ ih₁ ih₂ => exact ih₁.trans ih₂

/-- What a store holds: the lines of both tables of every index, and the sizes. -/
@[ext]
structure Contents where
  table : IndexId → TableKind → EncryptedTable
  size : IndexId → Nat

namespace Contents

/-- No line anywhere. -/
def empty : Contents := ⟨fun _ _ => ∅, fun _ => 0⟩

/-- The contents with one table replaced. -/
def setTable (c : Contents) (index : IndexId) (kind : TableKind) (t : EncryptedTable) :
    Contents :=
  { c with table := fun i k => if i = index ∧ k = kind then t else c.table i k }

/-- The contents with the size of one index increased. -/
def grow (c : Contents) (index : IndexId) (added : Nat) : Contents :=
  { c with size := fun i => if i = index then c.size i + added else c.size i }

/-- A batch of compare-and-swaps, and its rejected lines. -/
def upsertEntries (c : Contents) (index : IndexId) (data : UpsertData) :
    Contents × EncryptedTable :=
  let t := c.table index .entries
  ((c.setTable index .entries (t.swapped data)).grow index (valueBytes (t.newLines data.toList)),
    t.rejections data)

/-- Chain lines written over what was stored. -/
def insertChains (c : Contents) (index : IndexId) (data : EncryptedTable) : Contents :=
  (c.setTable index .chains ((c.table index .chains).insertAll data.toList)).grow index
    (valueBytes data.toList)

/-- Lines written to one table of an index, and bytes counted for the index. -/
def writeLines (c : Contents) (index : IndexId) (kind : TableKind) (lines : List (Uid × Bytes))
    (added : Nat) : Contents :=
  (c.setTable index kind ((c.table index kind).insertAll lines)).grow index added

@[simp]
theorem table_setTable (c : Contents) (index : IndexId) (kind : TableKind) (t : EncryptedTable)
    (i : IndexId) (k : TableKind) :
    (c.setTable index kind t).table i k = if i = index ∧ k = kind then t else c.table i k := rfl

@[simp]
theorem size_setTable (c : Contents) (index : IndexId) (kind : TableKind) (t : EncryptedTable) :
    (c.setTable index kind t).size = c.size := rfl

@[simp]
theorem table_grow (c : Contents) (index : IndexId) (added : Nat) :
    (c.grow index added).table = c.table := rfl

@[simp]
theorem size_grow (c : Contents) (index : IndexId) (added : Nat) (i : IndexId) :
    (c.grow index added).size i = if i = index then c.size i + added else c.size i := rfl

variable (c : Contents) {index i : IndexId} {k : TableKind}

theorem table_upsertEntries (data : UpsertData) :
    (c.upsertEntries index data).1.table index .entries =
      (c.table index .entries).swapped data := if_pos ⟨rfl, rfl⟩

/-- An upsert leaves all tables but the entries of its index. -/
theorem table_upsertEntries_of_ne (h : ¬(i = index ∧ k = .entries)) (data : UpsertData) :
    (c.upsertEntries index data).1.table i k = c.table i k := if_neg h

/-- An upsert leaves the sizes of other indexes. -/
theorem size_upsertEntries_of_ne (h : i ≠ index) (data : UpsertData) :
    (c.upsertEntries index data).1.size i = c.size i := if_neg h

theorem table_insertChains (data : EncryptedTable) :
    (c.insertChains index data).table index .chains =
      (c.table index .chains).insertAll data.toList := if_pos ⟨rfl, rfl⟩

/-- An insertion leaves all tables but the chains of its index. -/
theorem table_insertChains_of_ne (h : ¬(i = index ∧ k = .chains)) (data : EncryptedTable) :
    (c.insertChains index data).table i k = c.table i k := if_neg h

theorem size_insertChains_of_ne (h : i ≠ index) (data : EncryptedTable) :
    (c.insertChains index data).size i = c.size i := if_neg h

end Contents
end IndexVault
