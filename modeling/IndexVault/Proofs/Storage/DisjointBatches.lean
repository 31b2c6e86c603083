import IndexVault.Proofs.Storage.LineWrites

namespace IndexVault

open SortedMap (VisitOrder)

namespace EncryptedTable

variable (t : EncryptedTable) {d d' : UpsertData}

/-- A batch leaves what is stored under identifiers that are not its own. -/
theorem get?_swapped_of_none {data : UpsertData} {uid : Uid} (h : data.get? uid = none) :
    (t.swapped data).get? uid = t.get? uid := by
  rw [get?_swapped, h]

/-- A batch finds under its identifiers what it would have found before the other batch. -/
theorem get?_swapped_of_disjoint (h : d.DisjointKeys d') :
    ∀ line ∈ d'.toList, (t.swapped d).get? line.1 = t.get? line.1 := by
  intro line hline
  apply t.get?_swapped_of_none
  exact SortedMap.disjointKeys_iff.1 h.symm line hline

/-- A batch is rejected the same lines after one that it does not meet as before it. -/
theorem rejections_swapped (h : d.DisjointKeys d') :
    EncryptedTable.rejections (t.swapped d) d' = t.rejections d' := by
  rw [rejections, rejectedLines_congr (t.get?_swapped_of_disjoint h), rejections]

/-- The union of two batches that do not meet writes the lines of the one and those of the other. -/
theorem writtenLines_union (h : d.DisjointKeys d') :
    (t.writtenLines (d.union d').toList).Perm
      (t.writtenLines d.toList ++ t.writtenLines d'.toList) := by
  rw [← writtenLines_append]
  exact h.toList_union.filterMap _

theorem bytes_newLines_union (h : d.DisjointKeys d') :
    valueBytes (t.newLines (d.union d').toList) =
      valueBytes (t.newLines d.toList) + valueBytes (t.newLines d'.toList) := by
  have hlines : (t.newLines (d.union d').toList).Perm
      (t.newLines d.toList ++ t.newLines d'.toList) := by
    rw [← newLines_append]
    exact (h.toList_union.filterMap _).filter _
  rw [valueBytes_perm hlines, valueBytes_append]

theorem rejections_union (h : d.DisjointKeys d') :
    t.rejections (d.union d') = (t.rejections d).union (t.rejections d') := by
  apply SortedMap.ext_get?
  intro uid
  rw [SortedMap.get?_union, get?_rejections, get?_rejections, get?_rejections,
    SortedMap.get?_union]
  -- A line of the union is a line of one batch alone.
  rcases h uid with hnone | hnone
  · rw [hnone, Option.or_none, Option.or_none]
  · rw [hnone, Option.none_or, Option.none_or]

end EncryptedTable

namespace Storage

variable (s : Storage) (index : IndexId)

/-- Two upserts that do not meet are as good as their union. -/
theorem upserted_upserted {d d' : UpsertData} (h : d.DisjointKeys d') :
    (s.upserted index d).upserted index d' = s.upserted index (d.union d') := by
  let t := s.contents.table index .entries
  have hsame : ∀ line ∈ d'.toList, SortedMap.get? (t.swapped d) line.1 = t.get? line.1 :=
    t.get?_swapped_of_disjoint h
  have hkeys := t.distinctKeys_writtenLines (SortedMap.distinctKeys_toList (d.union d'))
  calc (s.upserted index d).upserted index d'
      = (s.upserted index d).writeLines index .entries (t.writtenLines d'.toList)
          (valueBytes (t.newLines d'.toList)) := by
        rw [upserted, table_upserted, EncryptedTable.writtenLines_congr hsame,
          EncryptedTable.newLines_congr hsame]
    _ = s.writeLines index .entries (t.writtenLines d.toList ++ t.writtenLines d'.toList)
          (valueBytes (t.newLines d.toList) + valueBytes (t.newLines d'.toList)) :=
        s.writeLines_writeLines index .entries _ _ _ _
    _ = s.upserted index (d.union d') := by
        rw [upserted, t.bytes_newLines_union h,
          s.writeLines_perm index .entries hkeys (t.writtenLines_union h)]

theorem inserted_inserted {c c' : EncryptedTable} (h : c.DisjointKeys c') :
    (s.inserted index c).inserted index c' = s.inserted index (c.union c') := by
  have hlines := h.toList_union
  have hkeys := SortedMap.distinctKeys_toList (c.union c')
  calc (s.inserted index c).inserted index c'
      = s.writeLines index .chains (c.toList ++ c'.toList)
          (valueBytes c.toList + valueBytes c'.toList) :=
        s.writeLines_writeLines index .chains _ _ _ _
    _ = s.inserted index (c.union c') := by
        rw [inserted, valueBytes_perm hlines, valueBytes_append,
          s.writeLines_perm index .chains hkeys hlines]

theorem table_entries_inserted (other : IndexId) (c : EncryptedTable) :
    (s.inserted other c).contents.table index .entries = s.contents.table index .entries := by
  rw [contents_inserted]
  exact Contents.table_insertChains_of_ne _ (by simp) c

/-- Upserts write entries and insertions chains, so they may change places. -/
theorem inserted_upserted (other : IndexId) (d : UpsertData) (c : EncryptedTable) :
    (s.inserted other c).upserted index d = (s.upserted index d).inserted other c := by
  rw [upserted, table_entries_inserted, inserted, inserted, upserted]
  exact s.writeLines_comm (by simp) _ _ _ _

variable {s}

theorem perform_upsertEntries (hopen : s.isOpen = true) (o : VisitOrder Uid) (d : UpsertData) :
    s.perform o (.upsertEntries index d) = (s.upserted index d,
      .ok (.table ((s.contents.table index .entries).rejections d))) := by
  rw [perform, upsertInOrder_eq_upserted hopen index (o.perm d)]

theorem perform_insertChains (hopen : s.isOpen = true) (o : VisitOrder Uid) (c : EncryptedTable) :
    s.perform o (.insertChains index c) = (s.inserted index c, .ok .written) := by
  rw [perform, insertInOrder_eq_inserted hopen index (o.perm c)]

/-- Each of two upserts that do not meet is answered as if it came alone. -/
theorem run_upserts (hopen : s.isOpen = true) {d d' : UpsertData} (h : d.DisjointKeys d')
    (o o' : VisitOrder Uid) :
    s.run [(o, .upsertEntries index d), (o', .upsertEntries index d')] =
      (s.upserted index (d.union d'),
        [.ok (.table ((s.contents.table index .entries).rejections d)),
          .ok (.table ((s.contents.table index .entries).rejections d'))]) := by
  have hopen' : (s.upserted index d).isOpen = true := (s.isOpen_upserted index d).trans hopen
  simp only [run, perform_upsertEntries index hopen, perform_upsertEntries index hopen']
  rw [table_upserted, EncryptedTable.rejections_swapped _ h, upserted_upserted s index h]

theorem run_insertions (hopen : s.isOpen = true) {c c' : EncryptedTable} (h : c.DisjointKeys c')
    (o o' : VisitOrder Uid) :
    s.run [(o, .insertChains index c), (o', .insertChains index c')] =
      (s.inserted index (c.union c'), [.ok .written, .ok .written]) := by
  have hopen' : (s.inserted index c).isOpen = true := (s.isOpen_inserted index c).trans hopen
  simp only [run, perform_insertChains index hopen, perform_insertChains index hopen']
  rw [inserted_inserted s index h]

theorem run_upsert_insertion (hopen : s.isOpen = true) (other : IndexId) (d : UpsertData)
    (c : EncryptedTable) (o o' : VisitOrder Uid) :
    s.run [(o, .upsertEntries index d), (o', .insertChains other c)] =
      ((s.upserted index d).inserted other c,
        [.ok (.table ((s.contents.table index .entries).rejections d)), .ok .written]) := by
  have hopen' : (s.upserted index d).isOpen = true := (s.isOpen_upserted index d).trans hopen
  simp only [run, perform_upsertEntries index hopen, perform_insertChains other hopen']

theorem run_insertion_upsert (hopen : s.isOpen = true) (other : IndexId) (d : UpsertData)
    (c : EncryptedTable) (o o' : VisitOrder Uid) :
    s.run [(o, .insertChains other c), (o', .upsertEntries index d)] =
      ((s.upserted index d).inserted other c,
        [.ok .written, .ok (.table ((s.contents.table index .entries).rejections d))]) := by
  have hopen' : (s.inserted other c).isOpen = true := (s.isOpen_inserted other c).trans hopen
  simp only [run, perform_insertChains other hopen, perform_upsertEntries index hopen']
  rw [inserted_upserted, table_entries_inserted]

/-- Two upserts without a common identifier answer and leave the same in either order, and together they do
what their union does at once; so do two insertions of chains. An upsert and an insertion of chains, of any
index, answer and leave the same in either order. None of this depends on the orders in which lines are
visited. Sizes are taken to stay below `2 ^ 63`. -/
theorem disjoint_batches_commute (hopen : s.isOpen = true) (index : IndexId) :
    (∀ d d' : UpsertData, d.DisjointKeys d' → ∃ s' r r', ∀ o o' : VisitOrder Uid,
      s.run [(o, .upsertEntries index (d.union d'))] = (s', [.ok (.table (r.union r'))]) ∧
      s.run [(o, .upsertEntries index d), (o', .upsertEntries index d')] =
        (s', [.ok (.table r), .ok (.table r')]) ∧
      s.run [(o, .upsertEntries index d'), (o', .upsertEntries index d)] =
        (s', [.ok (.table r'), .ok (.table r)])) ∧
    (∀ c c' : EncryptedTable, c.DisjointKeys c' → ∃ s', ∀ o o' : VisitOrder Uid,
      s.run [(o, .insertChains index (c.union c'))] = (s', [.ok .written]) ∧
      s.run [(o, .insertChains index c), (o', .insertChains index c')] =
        (s', [.ok .written, .ok .written]) ∧
      s.run [(o, .insertChains index c'), (o', .insertChains index c)] =
        (s', [.ok .written, .ok .written])) ∧
    ∀ (other : IndexId) (d : UpsertData) (c : EncryptedTable), ∃ s' r, ∀ o o' : VisitOrder Uid,
      s.run [(o, .upsertEntries index d), (o', .insertChains other c)] =
        (s', [.ok (.table r), .ok .written]) ∧
      s.run [(o, .insertChains other c), (o', .upsertEntries index d)] =
        (s', [.ok .written, .ok (.table r)]) := by
  refine ⟨?upserts, ?insertions, ?both⟩
  case upserts =>
    intro d d' h
    refine ⟨_, _, _, fun o o' => ⟨?_, run_upserts index hopen h o o', ?_⟩⟩
    · simp only [run, perform_upsertEntries index hopen]
      rw [EncryptedTable.rejections_union _ h]
    -- the other order is the same with the batches exchanged
    · rw [run_upserts index hopen h.symm, h.union_comm]
  case insertions =>
    intro c c' h
    refine ⟨_, fun o o' => ⟨?_, run_insertions index hopen h o o', ?_⟩⟩
    · simp only [run, perform_insertChains index hopen]
    · rw [run_insertions index hopen h.symm, h.union_comm]
  case both =>
    intro other d c
    exact ⟨_, _, fun o o' => ⟨run_upsert_insertion index hopen other d c o o',
      run_insertion_upsert index hopen other d c o o'⟩⟩

/-- A map with one entry of index 1. -/
def oneEntry : Storage := .keyValue { entries := .ofList [(1, .ofList [(.repeating 0, [1])])] }

/-- A batch that takes the stored entry for absent. -/
def staleBatch : UpsertData := .ofList [(.repeating 0, ⟨none, [2]⟩)]

/-- A batch with an entry that is new. -/
def newBatch : UpsertData := .ofList [(.repeating 1, ⟨none, [3]⟩)]

/-- A rejected batch and an accepted one, together and in either order. -/
theorem disjoint_batches_commute_staleAndNew :
    oneEntry.isOpen = true ∧ staleBatch.DisjointKeys newBatch ∧ ∃ s' r r',
      oneEntry.run [(.ascending, .upsertEntries 1 (staleBatch.union newBatch))] =
        (s', [.ok (.table (r.union r'))]) ∧
      oneEntry.run [(.ascending, .upsertEntries 1 staleBatch),
        (.descending, .upsertEntries 1 newBatch)] = (s', [.ok (.table r), .ok (.table r')]) ∧
      oneEntry.run [(.ascending, .upsertEntries 1 newBatch),
        (.descending, .upsertEntries 1 staleBatch)] = (s', [.ok (.table r'), .ok (.table r)]) ∧
      (∃ chains, ∀ o o', oneEntry.run [(o, .insertChains 1 (.ofList [(.repeating 0, [4])])),
        (o', .insertChains 1 (.ofList [(.repeating 1, [5])]))] =
          (chains, [.ok .written, .ok .written])) := by
  have hdisjoint : staleBatch.DisjointKeys newBatch := by decide
  obtain ⟨hupserts, hinsertions, -⟩ := disjoint_batches_commute (s := oneEntry) rfl 1
  obtain ⟨s', r, r', hruns⟩ := hupserts staleBatch newBatch hdisjoint
  obtain ⟨hmerged, hinTurn, hswapped⟩ := hruns .ascending .descending
  obtain ⟨chains, hchains⟩ := hinsertions (.ofList [(.repeating 0, [4])])
    (.ofList [(.repeating 1, [5])]) (by decide)
  refine ⟨rfl, hdisjoint, s', r, r', hmerged, hinTurn, hswapped, chains, fun o o' => ?_⟩
  obtain ⟨-, hwritten, -⟩ := hchains o o'
  exact hwritten

end Storage
end IndexVault
