import IndexVault.Proofs.Storage.BatchEffects

namespace IndexVault

/-- What a fetch answers depends on nothing but what is stored under the identifiers asked for. -/
theorem EncryptedTable.restrict_eq_of_get? {t t' : EncryptedTable} {uids : UidSet}
    (h : ∀ uid ∈ uids.keys, t.get? uid = t'.get? uid) : t.restrict uids = t'.restrict uids := by
  unfold SortedMap.restrict SortedMap.restrictToKeys
  congr 1
  apply List.filterMap_congr
  intro uid huid
  rw [h uid huid]

/-- The lines that a batch has rejected depend on what is stored under its identifiers. -/
theorem EncryptedTable.rejections_eq_of_get? {t t' : EncryptedTable} {data : UpsertData}
    (h : ∀ uid ∈ data.keys, t.get? uid = t'.get? uid) : t.rejections data = t'.rejections data := by
  have hlines : ∀ line ∈ data.toList, t.get? line.1 = t'.get? line.1 := by
    intro line hline
    exact h line.1 (List.mem_map.2 ⟨line, hline, rfl⟩)
  rw [rejections, rejectedLines_congr hlines, rejections]

/-- The same is stored under the identifiers seen. -/
def Contents.AgreeAt (seen : IndexId → TableKind → Uid → Prop) (c d : Contents) : Prop :=
  ∀ i kind uid, seen i kind uid → (c.table i kind).get? uid = (d.table i kind).get? uid

namespace Contents.AgreeAt

variable {seen : IndexId → TableKind → Uid → Prop} {c d : Contents}

/-- Contents that agree on a part go on doing so when both take the same upsert. -/
theorem upsertEntries (h : c.AgreeAt seen d) (index : IndexId) (data : UpsertData) :
    (c.upsertEntries index data).1.AgreeAt seen (d.upsertEntries index data).1 := by
  intro i kind uid huid
  have hstored := h i kind uid huid
  -- Each line of the batch is decided by what is stored under its own identifier.
  by_cases htable : i = index ∧ kind = .entries
  · obtain ⟨rfl, rfl⟩ := htable
    rw [table_upsertEntries, table_upsertEntries, EncryptedTable.get?_swapped,
      EncryptedTable.get?_swapped, hstored]
  · rw [table_upsertEntries_of_ne c htable, table_upsertEntries_of_ne d htable, hstored]

theorem insertChains (h : c.AgreeAt seen d) (index : IndexId) (data : EncryptedTable) :
    (c.insertChains index data).AgreeAt seen (d.insertChains index data) := by
  intro i kind uid huid
  have hstored := h i kind uid huid
  by_cases htable : i = index ∧ kind = .chains
  · obtain ⟨rfl, rfl⟩ := htable
    rw [table_insertChains, table_insertChains, SortedMap.get?_insertAll_toList,
      SortedMap.get?_insertAll_toList, hstored]
  · rw [table_insertChains_of_ne c htable, table_insertChains_of_ne d htable, hstored]

end Contents.AgreeAt

namespace Storage

variable {s t : Storage} {index : IndexId}

theorem eq_closedRows_of_not_isOpen (h : s.isOpen = false) : ∃ store, s = closedRows store := by
  cases s with
  | keyValue store => cases h
  | rows store => cases h
  | closedRows store => exact ⟨store, rfl⟩

/-- Two stores of which both are open or both are closed do a batch both, or both refuse it. -/
theorem upsertEntries_both (hopen : s.isOpen = t.isOpen) (index : IndexId) (data : UpsertData) :
    (s.upsertEntries index data = .error closed ∧ t.upsertEntries index data = .error closed) ∨
      ∃ s' t', s'.isOpen = t'.isOpen ∧
        s.upsertEntries index data =
          .ok (s', (s.contents.table index .entries).rejections data) ∧
        t.upsertEntries index data =
          .ok (t', (t.contents.table index .entries).rejections data) ∧
        s'.contents = (s.contents.upsertEntries index data).1 ∧
        t'.contents = (t.contents.upsertEntries index data).1 := by
  cases hs : s.isOpen with
  | true =>
    obtain ⟨s', hdone, hcontents, hopen', -⟩ :=
      upsertInOrder_eq hs index (List.Perm.refl data.toList)
    obtain ⟨t', hdone', hcontents', hopen'', -⟩ :=
      upsertInOrder_eq (hopen.symm.trans hs) index (List.Perm.refl data.toList)
    exact Or.inr ⟨s', t', hopen'.trans hopen''.symm, hdone, hdone', hcontents, hcontents'⟩
  | false =>
    obtain ⟨store, rfl⟩ := eq_closedRows_of_not_isOpen hs
    obtain ⟨store', rfl⟩ := eq_closedRows_of_not_isOpen (hopen.symm.trans hs)
    exact Or.inl ⟨rfl, rfl⟩

/-- Stores of which both are open or both are closed answer an insertion alike. -/
theorem insertChains_both (hopen : s.isOpen = t.isOpen) (index : IndexId) (data : EncryptedTable) :
    (s.insertChains index data = .error closed ∧ t.insertChains index data = .error closed) ∨
      ∃ s' t', s'.isOpen = t'.isOpen ∧ s.insertChains index data = .ok s' ∧
        t.insertChains index data = .ok t' ∧
        s'.contents = s.contents.insertChains index data ∧
        t'.contents = t.contents.insertChains index data := by
  cases hs : s.isOpen with
  | true =>
    obtain ⟨s', hdone, hcontents, hopen', -⟩ :=
      insertInOrder_eq hs index (List.Perm.refl data.toList)
    obtain ⟨t', hdone', hcontents', hopen'', -⟩ :=
      insertInOrder_eq (hopen.symm.trans hs) index (List.Perm.refl data.toList)
    exact Or.inr ⟨s', t', hopen'.trans hopen''.symm, hdone, hdone', hcontents, hcontents'⟩
  | false =>
    obtain ⟨store, rfl⟩ := eq_closedRows_of_not_isOpen hs
    obtain ⟨store', rfl⟩ := eq_closedRows_of_not_isOpen (hopen.symm.trans hs)
    exact Or.inl ⟨rfl, rfl⟩

/-- Both are open or both are closed, and they hold the same under the identifiers seen. -/
structure AgreeAt (seen : IndexId → TableKind → Uid → Prop) (s t : Storage) : Prop where
  isOpen : s.isOpen = t.isOpen
  contents : s.contents.AgreeAt seen t.contents

/-- A fetch on either kind of store reads only what is stored under the identifiers asked for. -/
theorem fetch_congr (hopen : s.isOpen = t.isOpen) {kind : TableKind} {uids : UidSet}
    (h : ∀ uid ∈ uids.keys,
      (s.contents.table index kind).get? uid = (t.contents.table index kind).get? uid) :
    s.fetch index kind uids = t.fetch index kind uids := by
  cases hs : s.isOpen with
  | true =>
    rw [fetch, fetch, fetchInOrder_eq hs index kind (List.Perm.refl uids.keys),
      fetchInOrder_eq (hopen.symm.trans hs) index kind (List.Perm.refl uids.keys),
      EncryptedTable.restrict_eq_of_get? h]
  | false =>
    obtain ⟨store, rfl⟩ := eq_closedRows_of_not_isOpen hs
    obtain ⟨store', rfl⟩ := eq_closedRows_of_not_isOpen (hopen.symm.trans hs)
    rfl

end Storage
end IndexVault
