import IndexVault.Proofs.Storage.LineWrites

namespace IndexVault

/-- What becomes of a line, given what is stored under its identifier before the batch and after it, and
what the answer tells of it. -/
inductive UpsertLine.Becomes (line : UpsertLine) (before after told : Option Bytes) :
    LineOutcome → Prop
  | written (hold : before = line.old) (hnew : after = some line.new) (htold : told = none) :
    Becomes line before after told .written
  | rejected {stored : Bytes} (hbefore : before = some stored) (hold : line.old ≠ some stored)
      (hstays : after = some stored) (htold : told = some stored) :
    Becomes line before after told (.rejected stored)
  | dropped (hbefore : before = none) (hold : line.old ≠ none) (hstays : after = none)
      (htold : told = none) :
    Becomes line before after told .dropped

/-- The stored value decides, so no line has two outcomes. -/
theorem UpsertLine.Becomes.eq_outcome {line : UpsertLine} {before after told : Option Bytes}
    {outcome : LineOutcome} (h : line.Becomes before after told outcome) :
    outcome = line.outcome before := by
  cases h with
  | written hold => exact (outcome_eq_written_iff.2 hold).symm
  | rejected hbefore hold =>
    have hne : before ≠ line.old := fun heq => hold (heq.symm.trans hbefore)
    exact (outcome_eq_rejected_iff.2 ⟨hbefore, hne⟩).symm
  | dropped hbefore hold => exact (outcome_eq_dropped_iff.2 ⟨hbefore, hold⟩).symm

/-- Each line of an upsert becomes what is stored before the batch makes of it. -/
theorem EncryptedTable.becomes_outcome {t : EncryptedTable} {data : UpsertData} {uid : Uid}
    {line : UpsertLine} (hline : data.get? uid = some line) :
    line.Becomes (t.get? uid) ((t.swapped data).get? uid) ((t.rejections data).get? uid)
      (line.outcome (t.get? uid)) := by
  have hafter := t.get?_swapped data uid
  have htold := t.get?_rejections data uid
  simp only [hline] at hafter htold
  cases hout : line.outcome (t.get? uid) with
  | written =>
    have hold := UpsertLine.outcome_eq_written_iff.1 hout
    rw [if_pos hold] at hafter htold
    exact .written hold hafter htold
  | rejected stored =>
    obtain ⟨hbefore, hne⟩ := UpsertLine.outcome_eq_rejected_iff.1 hout
    rw [if_neg hne, hbefore] at hafter htold
    exact .rejected hbefore (fun hold => hne (hbefore.trans hold.symm)) hafter htold
  | dropped =>
    obtain ⟨hbefore, hold⟩ := UpsertLine.outcome_eq_dropped_iff.1 hout
    have hne : t.get? uid ≠ line.old := fun heq => hold (heq.symm.trans hbefore)
    rw [if_neg hne, hbefore] at hafter htold
    exact .dropped hbefore hold hafter htold

namespace Storage

/-- What is stored under an identifier of any length: rows that are damaged are lines too. -/
def heldAt (s : Storage) (index : IndexId) (kind : TableKind) (uid : Bytes) : Option Bytes :=
  match s with
  | keyValue store =>
    match Uid.ofBytes uid with
    | .ok uid => (store.table index kind).get? uid
    | .error _ => none
  | rows store | closedRows store => store.lines.get? ⟨index, kind.tag, uid⟩

theorem heldAt_bytes (s : Storage) (index : IndexId) (kind : TableKind) (uid : Uid) :
    s.heldAt index kind uid.bytes = (s.contents.table index kind).get? uid := by
  cases s with
  | keyValue store =>
    have huid : Uid.ofBytes uid.bytes = .ok uid := Uid.ofBytes_eq_ok_iff.2 rfl
    rw [heldAt, huid]
    rfl
  | rows store => exact (store.get?_table index kind uid).symm
  | closedRows store => exact (store.get?_table index kind uid).symm

/-- Lines written leave all other lines as they are. -/
theorem heldAt_writeLines (s : Storage) (index : IndexId) (kind : TableKind)
    (lines : List (Uid × Bytes)) (added : Nat) {i : IndexId} {k : TableKind} {uid : Bytes}
    (h : i = index → k = kind → ∀ u ∈ lines.map Prod.fst, u.bytes ≠ uid) :
    (s.writeLines index kind lines added).heldAt i k uid = s.heldAt i k uid := by
  -- keys of rows are compared as bytes, so this holds for damaged rows as well
  have hrows (store : RowStore) : (store.writeLines index kind lines added).lines.get?
      ⟨i, k.tag, uid⟩ = store.lines.get? ⟨i, k.tag, uid⟩ := by
    rw [RowStore.writeLines, RowStore.lines_addSize]
    apply SortedMap.get?_insertAll_of_not_mem
    intro hmem
    simp only [RowStore.rowLines, List.map_map, List.mem_map, Function.comp_apply] at hmem
    obtain ⟨x, hx, hkey⟩ := hmem
    have hindex : i = index := (congrArg RowKey.index hkey).symm
    have hkind : k = kind := TableKind.tag_injective (congrArg RowKey.tag hkey).symm
    exact h hindex hkind x.1 (List.mem_map_of_mem hx) (congrArg RowKey.uid hkey)
  cases s with
  | rows store => exact hrows store
  | closedRows store => exact hrows store
  | keyValue store =>
    -- a store of maps holds nothing under bytes that are no identifier
    cases huid : Uid.ofBytes uid with
    | error e => simp only [heldAt, writeLines, huid]
    | ok u =>
      have hbytes : u.bytes = uid := Uid.ofBytes_eq_ok_iff.1 huid
      have htable : (store.writeLines index kind lines added).table i k =
          if i = index ∧ k = kind then (store.table index kind).insertAll lines
          else store.table i k :=
        congrArg (fun c => Contents.table c i k) (store.contents_writeLines index kind lines added)
      simp only [heldAt, writeLines, huid, htable]
      split
      · rename_i hik
        rw [hik.1, hik.2]
        exact SortedMap.get?_insertAll_of_not_mem _ fun hmem => h hik.1 hik.2 u hmem hbytes
      · rfl

variable {s : Storage}

/-- For every order in which its lines are visited, an upsert answers the same and leaves the same store.
Each of its lines becomes one of three things, by what is stored under its identifier; the answer tells of
no other line, and all other lines of the store stay as they were. The size of the index grows by the bytes
of the lines that are written where nothing was stored, and is taken to stay below `2 ^ 63`. -/
theorem upsert_lines_decided (hopen : s.isOpen = true) (index : IndexId) (data : UpsertData) :
    ∃ s' rejected,
      (∀ lines, lines.Perm data.toList → s.upsertInOrder index lines = .ok (s', rejected)) ∧
      (∀ uid line, data.get? uid = some line →
        ∃! outcome, line.Becomes (s.heldAt index .entries uid.bytes)
          (s'.heldAt index .entries uid.bytes) (rejected.get? uid) outcome) ∧
      (∀ uid, rejected.contains uid = true → data.contains uid = true) ∧
      (∀ i kind uid, (i = index → kind = .entries → ∀ u, u.bytes = uid → data.get? u = none) →
        s'.heldAt i kind uid = s.heldAt i kind uid) ∧
      ∀ i, s'.size i = (s.size i).map fun size =>
        if i = index then
          size + valueBytes ((s.contents.table index .entries).newLines data.toList)
        else size := by
  let t := s.contents.table index .entries
  let s' := s.upserted index data
  have hcontents : s'.contents = (s.contents.upsertEntries index data).1 :=
    s.contents_upserted index data
  have htable : s'.contents.table index .entries = t.swapped data := s.table_upserted index data
  refine ⟨s', t.rejections data, fun lines hp => upsertInOrder_eq_upserted hopen index hp,
    ?decided, ?told, ?others, ?size⟩
  case decided =>
    intro uid line hline
    rw [heldAt_bytes, heldAt_bytes, htable]
    exact ⟨_, EncryptedTable.becomes_outcome hline, fun outcome h => h.eq_outcome⟩
  case told =>
    intro uid htold
    rw [SortedMap.contains, EncryptedTable.get?_rejections] at htold
    rw [SortedMap.contains]
    cases hline : data.get? uid with
    | none => simp only [hline, Option.isSome_none, Bool.false_eq_true] at htold
    | some line => rfl
  case others =>
    intro i kind uid hother
    apply heldAt_writeLines
    intro hi hkind u hmem hu
    -- a written line stands in the batch, but none of the batch has this identifier
    obtain ⟨⟨u', value⟩, hwritten, rfl⟩ := List.mem_map.1 hmem
    obtain ⟨line, hline, -⟩ := EncryptedTable.mem_writtenLines.1 hwritten
    cases (SortedMap.get?_eq_some_iff.2 hline).symm.trans (hother hi hkind u' hu)
  case size =>
    intro i
    have hopen' : s'.isOpen = true := (s.isOpen_upserted index data).trans hopen
    rw [size_eq hopen, size_eq hopen', hcontents]
    rfl

/-- Two entries of index 1. -/
def twoEntries : Storage :=
  .rows { lines := .ofList [(RowKey.ofUid 1 .entries (.repeating 0), [1]),
    (RowKey.ofUid 1 .entries (.repeating 1), [2])] }

/-- The first line has the stored value for its old one, the second none, and the third an old value where
nothing is stored. -/
def mixedBatch : UpsertData :=
  .ofList [(.repeating 0, ⟨some [1], [3]⟩), (.repeating 1, ⟨none, [4]⟩),
    (.repeating 2, ⟨some [5], [6]⟩)]

/-- One batch may have a line of each outcome. -/
theorem upsert_lines_decided_mixed :
    twoEntries.isOpen = true ∧ ∃ s' rejected,
      twoEntries.upsertEntries 1 mixedBatch = .ok (s', rejected) ∧
      UpsertLine.Becomes ⟨some [1], [3]⟩ (some [1]) (s'.heldAt 1 .entries (.replicate 32 0))
        (rejected.get? (.repeating 0)) .written ∧
      UpsertLine.Becomes ⟨none, [4]⟩ (some [2]) (s'.heldAt 1 .entries (.replicate 32 1))
        (rejected.get? (.repeating 1)) (.rejected [2]) ∧
      UpsertLine.Becomes ⟨some [5], [6]⟩ none (s'.heldAt 1 .entries (.replicate 32 2))
        (rejected.get? (.repeating 2)) .dropped := by
  obtain ⟨s', rejected, hanswer, hdecided, -⟩ :=
    upsert_lines_decided (s := twoEntries) rfl 1 mixedBatch
  have hclass : ∀ uid line, mixedBatch.get? uid = some line →
      line.Becomes (twoEntries.heldAt 1 .entries uid.bytes) (s'.heldAt 1 .entries uid.bytes)
        (rejected.get? uid) (line.outcome (twoEntries.heldAt 1 .entries uid.bytes)) := by
    intro uid line hline
    obtain ⟨outcome, hbecomes, -⟩ := hdecided uid line hline
    exact hbecomes.eq_outcome ▸ hbecomes
  refine ⟨rfl, s', rejected, hanswer mixedBatch.toList (List.Perm.refl _), ?_, ?_, ?_⟩
  · exact hclass (.repeating 0) ⟨some [1], [3]⟩ rfl
  · exact hclass (.repeating 1) ⟨none, [4]⟩ rfl
  · exact hclass (.repeating 2) ⟨some [5], [6]⟩ rfl

end Storage
end IndexVault
