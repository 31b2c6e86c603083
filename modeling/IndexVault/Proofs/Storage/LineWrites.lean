import IndexVault.Proofs.Storage.BatchEffects

/-! What batches write, one after the other. Writes to one table of an index run together
(`writeLines_writeLines`), and those to different tables may be exchanged (`writeLines_comm`). These are
equations between stores, damaged rows and all. -/
namespace IndexVault

/-- The sizes with that of one index raised. -/
def raiseSize (sizes : SortedMap IndexId Nat) (index : IndexId) (added : Nat) :
    SortedMap IndexId Nat :=
  sizes.insert index ((sizes.get? index).getD 0 + added)

/-- Two raises of one size add up. -/
theorem raiseSize_raiseSize (sizes : SortedMap IndexId Nat) (index : IndexId) (a b : Nat) :
    raiseSize (raiseSize sizes index a) index b = raiseSize sizes index (a + b) := by
  have hsize : ((raiseSize sizes index a).get? index).getD 0 =
      (sizes.get? index).getD 0 + a := by
    rw [raiseSize, SortedMap.get?_insert_self, Option.getD_some]
  rw [raiseSize, hsize, raiseSize, SortedMap.insert_insert, Nat.add_assoc]
  rfl

theorem raiseSize_comm (sizes : SortedMap IndexId Nat) (i j : IndexId) (a b : Nat) :
    raiseSize (raiseSize sizes i a) j b = raiseSize (raiseSize sizes j b) i a := by
  by_cases hij : i = j
  · rw [hij, raiseSize_raiseSize, raiseSize_raiseSize, Nat.add_comm]
  · have hj : (raiseSize sizes i a).get? j = sizes.get? j :=
      SortedMap.get?_insert_of_ne sizes (Ne.symm hij) _
    have hi : (raiseSize sizes j b).get? i = sizes.get? i :=
      SortedMap.get?_insert_of_ne sizes hij _
    calc raiseSize (raiseSize sizes i a) j b
        = (raiseSize sizes i a).insert j ((sizes.get? j).getD 0 + b) := by rw [raiseSize, hj]
      _ = (raiseSize sizes j b).insert i ((sizes.get? i).getD 0 + a) :=
          SortedMap.insert_comm sizes hij _ _
      _ = raiseSize (raiseSize sizes j b) i a := by rw [raiseSize.eq_def _ i, hi]

namespace KeyValueStore

variable (s : KeyValueStore) (index : IndexId) (kind : TableKind)

theorem addSize_addSize (a b : Nat) :
    (s.addSize index a).addSize index b = s.addSize index (a + b) :=
  congrArg (KeyValueStore.mk s.entries s.chains) (raiseSize_raiseSize s.sizes index a b)

theorem addSize_comm (i : IndexId) (a b : Nat) :
    (s.addSize index a).addSize i b = (s.addSize i b).addSize index a :=
  congrArg (KeyValueStore.mk s.entries s.chains) (raiseSize_comm s.sizes index i a b)

theorem table_addSize (added : Nat) : (s.addSize index added).table = s.table :=
  congrArg Contents.table (contents_addSize s index added)

theorem setTable_addSize (i : IndexId) (added : Nat) (t : EncryptedTable) :
    (s.addSize i added).setTable index kind t = (s.setTable index kind t).addSize i added := by
  cases kind <;> rfl

theorem setTable_setTable (t t' : EncryptedTable) :
    (s.setTable index kind t).setTable index kind t' = s.setTable index kind t' := by
  cases kind <;> simp only [setTable, SortedMap.insert_insert]

theorem setTable_comm {index i : IndexId} {kind k : TableKind} (h : ¬(i = index ∧ k = kind))
    (t t' : EncryptedTable) :
    (s.setTable index kind t).setTable i k t' = (s.setTable i k t').setTable index kind t := by
  by_cases hi : index = i
  · -- Tables of one index and different kinds lie in different maps.
    cases kind <;> cases k <;> first | exact absurd ⟨hi.symm, rfl⟩ h | rfl
  · cases kind <;> cases k <;> simp only [setTable, SortedMap.insert_comm _ hi]

/-- Writes to one table of maps run together. -/
theorem writeLines_writeLines (l l' : List (Uid × Bytes)) (a b : Nat) :
    (s.writeLines index kind l a).writeLines index kind l' b =
      s.writeLines index kind (l ++ l') (a + b) := by
  rw [writeLines, writeLines, table_addSize, setTable_addSize, setTable_setTable, table_setTable,
    if_pos ⟨rfl, rfl⟩, addSize_addSize, writeLines, SortedMap.insertAll_append]

/-- Writes to different tables of maps may be exchanged. -/
theorem writeLines_comm {index i : IndexId} {kind k : TableKind} (h : ¬(i = index ∧ k = kind))
    (l l' : List (Uid × Bytes)) (a b : Nat) :
    (s.writeLines index kind l a).writeLines i k l' b =
      (s.writeLines i k l' b).writeLines index kind l a := by
  have h' : ¬(index = i ∧ kind = k) := fun heq => h ⟨heq.1.symm, heq.2.symm⟩
  simp only [writeLines, table_addSize, setTable_addSize, table_setTable, if_neg h, if_neg h']
  rw [setTable_comm s h, addSize_comm]

end KeyValueStore

namespace RowStore

variable (s : RowStore) (index : IndexId) (kind : TableKind)

theorem addSize_of_ne_zero {added : Nat} (h : added ≠ 0) :
    s.addSize index added = { s with sizes := raiseSize s.sizes index added } := if_neg h

theorem addSize_zero : s.addSize index 0 = s := if_pos rfl

theorem addSize_addSize (a b : Nat) :
    (s.addSize index a).addSize index b = s.addSize index (a + b) := by
  by_cases ha : a = 0
  · rw [ha, addSize_zero, Nat.zero_add]
  by_cases hb : b = 0
  · rw [hb, addSize_zero, Nat.add_zero]
  have hab : a + b ≠ 0 := by omega
  rw [addSize_of_ne_zero _ _ ha, addSize_of_ne_zero _ _ hb, addSize_of_ne_zero _ _ hab]
  exact congrArg (RowStore.mk s.lines) (raiseSize_raiseSize s.sizes index a b)

theorem addSize_comm (i : IndexId) (a b : Nat) :
    (s.addSize index a).addSize i b = (s.addSize i b).addSize index a := by
  by_cases ha : a = 0
  · rw [ha, addSize_zero, addSize_zero]
  by_cases hb : b = 0
  · rw [hb, addSize_zero, addSize_zero]
  simp only [addSize_of_ne_zero _ _ ha, addSize_of_ne_zero _ _ hb]
  exact congrArg (RowStore.mk s.lines) (raiseSize_comm s.sizes index i a b)

theorem insertLines_addSize (i : IndexId) (added : Nat) (lines : List (Uid × Bytes)) :
    (s.addSize i added).insertLines index kind lines =
      (s.insertLines index kind lines).addSize i added := by
  unfold addSize
  split <;> rfl

/-- Rows of different tables have different keys, so the writes to them may be exchanged. -/
theorem insertLines_comm {index i : IndexId} {kind k : TableKind} (h : ¬(i = index ∧ k = kind))
    (l l' : List (Uid × Bytes)) :
    (s.insertLines index kind l).insertLines i k l' =
      (s.insertLines i k l').insertLines index kind l := by
  have hdisjoint : List.Disjoint ((rowLines index kind l).map Prod.fst)
      ((rowLines i k l').map Prod.fst) := by
    intro key hkey hkey'
    simp only [rowLines, List.map_map, List.mem_map, Function.comp_apply] at hkey hkey'
    obtain ⟨x, -, rfl⟩ := hkey
    obtain ⟨y, -, hsame⟩ := hkey'
    obtain ⟨hi, hk, -⟩ := RowKey.ofUid_inj.1 hsame
    exact h ⟨hi, hk⟩
  exact congrArg (RowStore.mk · s.sizes) (SortedMap.insertAll_comm s.lines hdisjoint)

/-- Writes to the rows of one table run together, and damaged rows stay where they are. -/
theorem writeLines_writeLines (l l' : List (Uid × Bytes)) (a b : Nat) :
    (s.writeLines index kind l a).writeLines index kind l' b =
      s.writeLines index kind (l ++ l') (a + b) := by
  rw [writeLines, writeLines, insertLines_addSize, insertLines_insertLines, addSize_addSize,
    writeLines]

/-- Writes to the rows of different tables may be exchanged. -/
theorem writeLines_comm {index i : IndexId} {kind k : TableKind} (h : ¬(i = index ∧ k = kind))
    (l l' : List (Uid × Bytes)) (a b : Nat) :
    (s.writeLines index kind l a).writeLines i k l' b =
      (s.writeLines i k l' b).writeLines index kind l a := by
  simp only [writeLines, insertLines_addSize]
  rw [insertLines_comm s h, addSize_comm]

end RowStore

namespace Storage

variable (s : Storage) (index : IndexId) (kind : TableKind)

/-- Writes to one table of an index run together. -/
theorem writeLines_writeLines (l l' : List (Uid × Bytes)) (a b : Nat) :
    (s.writeLines index kind l a).writeLines index kind l' b =
      s.writeLines index kind (l ++ l') (a + b) := by
  cases s <;>
    simp only [writeLines, KeyValueStore.writeLines_writeLines, RowStore.writeLines_writeLines]

/-- Writes to different tables may be exchanged. -/
theorem writeLines_comm {index i : IndexId} {kind k : TableKind} (h : ¬(i = index ∧ k = kind))
    (l l' : List (Uid × Bytes)) (a b : Nat) :
    (s.writeLines index kind l a).writeLines i k l' b =
      (s.writeLines i k l' b).writeLines index kind l a := by
  cases s <;>
    simp only [writeLines, KeyValueStore.writeLines_comm _ h, RowStore.writeLines_comm _ h]

/-- Lines of distinct identifiers may be written in any order. -/
theorem writeLines_perm {l l' : List (Uid × Bytes)} (hkeys : SortedMap.DistinctKeys l)
    (hp : l.Perm l') (added : Nat) :
    s.writeLines index kind l added = s.writeLines index kind l' added := by
  cases s <;>
    simp only [writeLines, KeyValueStore.writeLines, RowStore.writeLines,
      SortedMap.insertAll_perm _ hkeys hp, RowStore.insertLines_perm _ _ _ hkeys hp]

end Storage
end IndexVault
