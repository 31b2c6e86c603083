import IndexVault.Proofs.Storage.Equivalence

namespace IndexVault
namespace Storage

/-- One table of one index, and the size of this index, may differ; nothing else does. -/
structure ChangesOnly (s s' : Storage) (index : IndexId) (kind : TableKind) : Prop where
  table : ∀ i k, ¬(i = index ∧ k = kind) → s'.contents.table i k = s.contents.table i k
  size : ∀ i, i ≠ index → s'.contents.size i = s.contents.size i

/-- The storage takes calls, and the length of every stored value is a number of 64 bits. -/
structure Sound (s : Storage) : Prop where
  isOpen : s.isOpen = true
  fits : ∀ index kind uid value, (s.contents.table index kind).get? uid = some value →
    value.length < UInt64.size

theorem sound_empty (kind : StorageKind) : (empty kind).Sound := by
  refine ⟨(usable_empty kind).isOpen, fun i k uid value hvalue => ?_⟩
  rw [contents_empty] at hvalue
  cases hvalue

variable {s s' : Storage} {index : IndexId}

/-- An upsert that is answered found the store open. -/
theorem isOpen_of_upsertEntries {data : UpsertData} {done : Storage × EncryptedTable}
    (h : s.upsertEntries index data = .ok done) : s.isOpen = true := by
  cases s with
  | keyValue store => rfl
  | rows store => rfl
  | closedRows store => cases h

theorem isOpen_of_insertChains {data : EncryptedTable} (h : s.insertChains index data = .ok s') :
    s.isOpen = true := by
  cases s with
  | keyValue store => rfl
  | rows store => rfl
  | closedRows store => cases h

/-- An upsert that is answered does to the contents what it should, and its answer is read off them. -/
theorem upsertEntries_eq_ok {data : UpsertData} {rejected : EncryptedTable}
    (h : s.upsertEntries index data = .ok (s', rejected)) :
    s'.isOpen = true ∧ s'.contents = (s.contents.upsertEntries index data).1 ∧
      rejected = (s.contents.upsertEntries index data).2 := by
  obtain ⟨s'', hdone, hcontents, hopen, -⟩ :=
    upsertInOrder_eq (isOpen_of_upsertEntries h) index (List.Perm.refl data.toList)
  cases h.symm.trans hdone
  exact ⟨hopen, hcontents, rfl⟩

theorem insertChains_eq_ok {data : EncryptedTable} (h : s.insertChains index data = .ok s') :
    s'.isOpen = true ∧ s'.contents = s.contents.insertChains index data := by
  obtain ⟨s'', hdone, hcontents, hopen, -⟩ :=
    insertInOrder_eq (isOpen_of_insertChains h) index (List.Perm.refl data.toList)
  cases h.symm.trans hdone
  exact ⟨hopen, hcontents⟩

/-- On an open store every upsert is answered, with the lines whose old value was not the stored one. -/
theorem upsertEntries_of_isOpen (h : s.isOpen = true) (index : IndexId) (data : UpsertData) :
    ∃ s', s.upsertEntries index data =
      .ok (s', (s.contents.table index .entries).rejections data) := by
  obtain ⟨s', hdone, -⟩ := upsertInOrder_eq h index (List.Perm.refl data.toList)
  exact ⟨s', hdone⟩

theorem insertChains_of_isOpen (h : s.isOpen = true) (index : IndexId) (data : EncryptedTable) :
    ∃ s', s.insertChains index data = .ok s' := by
  obtain ⟨s', hdone, -⟩ := insertInOrder_eq h index (List.Perm.refl data.toList)
  exact ⟨s', hdone⟩

theorem table_of_upsertEntries {data : UpsertData} {rejected : EncryptedTable}
    (h : s.upsertEntries index data = .ok (s', rejected)) :
    s'.contents.table index .entries = (s.contents.table index .entries).swapped data := by
  obtain ⟨-, hcontents, -⟩ := upsertEntries_eq_ok h
  rw [hcontents]
  exact s.contents.table_upsertEntries data

theorem table_of_insertChains {data : EncryptedTable} (h : s.insertChains index data = .ok s') :
    s'.contents.table index .chains =
      (s.contents.table index .chains).insertAll data.toList := by
  obtain ⟨-, hcontents⟩ := insertChains_eq_ok h
  rw [hcontents]
  exact s.contents.table_insertChains data

/-- An upsert changes the entries of its index and the size of that index, and nothing else. -/
theorem changesOnly_of_upsertEntries {data : UpsertData} {rejected : EncryptedTable}
    (h : s.upsertEntries index data = .ok (s', rejected)) :
    s.ChangesOnly s' index .entries := by
  obtain ⟨-, hcontents, -⟩ := upsertEntries_eq_ok h
  constructor
  · intro i k hne
    rw [hcontents]
    exact s.contents.table_upsertEntries_of_ne hne data
  · intro i hne
    rw [hcontents]
    exact s.contents.size_upsertEntries_of_ne hne data

/-- An insertion changes the chains of its index and the size of that index, and nothing else. -/
theorem changesOnly_of_insertChains {data : EncryptedTable}
    (h : s.insertChains index data = .ok s') : s.ChangesOnly s' index .chains := by
  obtain ⟨-, hcontents⟩ := insertChains_eq_ok h
  constructor
  · intro i k hne
    rw [hcontents]
    exact s.contents.table_insertChains_of_ne hne data
  · intro i hne
    rw [hcontents]
    exact s.contents.size_insertChains_of_ne hne data

/-- A store that can be read as a whole can be after an upsert. -/
theorem Usable.of_upsertEntries (hs : s.Usable) {data : UpsertData} {rejected : EncryptedTable}
    (h : s.upsertEntries index data = .ok (s', rejected)) : s'.Usable := by
  obtain ⟨s'', hdone, -, -, husable⟩ :=
    upsertInOrder_eq hs.isOpen index (List.Perm.refl data.toList)
  cases h.symm.trans hdone
  exact husable hs

theorem Usable.of_insertChains (hs : s.Usable) {data : EncryptedTable}
    (h : s.insertChains index data = .ok s') : s'.Usable := by
  obtain ⟨s'', hdone, -, -, husable⟩ :=
    insertInOrder_eq hs.isOpen index (List.Perm.refl data.toList)
  cases h.symm.trans hdone
  exact husable hs

/-- Values whose length fits a word keep all stored ones so. -/
theorem Sound.of_upsertEntries (hs : s.Sound) {data : UpsertData} {rejected : EncryptedTable}
    (h : s.upsertEntries index data = .ok (s', rejected))
    (hnew : ∀ uid line, data.get? uid = some line → line.new.length < UInt64.size) :
    s'.Sound := by
  refine ⟨(upsertEntries_eq_ok h).1, fun i k uid value hvalue => ?_⟩
  by_cases htable : i = index ∧ k = .entries
  · obtain ⟨rfl, rfl⟩ := htable
    rw [table_of_upsertEntries h, EncryptedTable.get?_swapped] at hvalue
    split at hvalue
    · rename_i line hline
      split at hvalue
      · cases hvalue
        exact hnew uid line hline
      · exact hs.fits i .entries uid value hvalue
    · exact hs.fits i .entries uid value hvalue
  · rw [(changesOnly_of_upsertEntries h).table i k htable] at hvalue
    exact hs.fits i k uid value hvalue

theorem Sound.of_insertChains (hs : s.Sound) {data : EncryptedTable}
    (h : s.insertChains index data = .ok s')
    (hdata : ∀ uid value, data.get? uid = some value → value.length < UInt64.size) :
    s'.Sound := by
  refine ⟨(insertChains_eq_ok h).1, fun i k uid value hvalue => ?_⟩
  by_cases htable : i = index ∧ k = .chains
  · obtain ⟨rfl, rfl⟩ := htable
    rw [table_of_insertChains h] at hvalue
    rcases SortedMap.get?_insertAll_eq_some hvalue with hmem | hold
    · exact hdata uid value (SortedMap.get?_eq_some_iff.2 hmem)
    · exact hs.fits i .chains uid value hold
  · rw [(changesOnly_of_insertChains h).table i k htable] at hvalue
    exact hs.fits i k uid value hvalue

end Storage
end IndexVault
