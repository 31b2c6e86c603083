import IndexVault.Proofs.VisitOrder

namespace IndexVault
namespace SortedMap

variable {α β γ : Type} [Ord α] [Std.TransOrd α]

theorem insertAll_append (m : SortedMap α β) (l l' : List (α × β)) :
    m.insertAll (l ++ l') = (m.insertAll l).insertAll l' := List.foldl_append

/-- The lines of both maps; those of the second stay where both have a key. -/
def union (m m' : SortedMap α β) : SortedMap α β := m.insertAll m'.toList

/-- No key is in both maps. -/
def DisjointKeys (m : SortedMap α β) (m' : SortedMap α γ) : Prop :=
  ∀ k, m.get? k = none ∨ m'.get? k = none

theorem DisjointKeys.symm {m : SortedMap α β} {m' : SortedMap α γ} (h : m.DisjointKeys m') :
    m'.DisjointKeys m := fun k => (h k).symm

variable [Std.LawfulEqOrd α]

/-- The later value of a key stays. -/
theorem insert_insert (m : SortedMap α β) (k : α) (v v' : β) :
    (m.insert k v).insert k v' = m.insert k v' := by
  apply ext_get?
  intro j
  simp only [get?_insert]
  split <;> rfl

/-- Lines of other keys leave a look-up alone. -/
theorem get?_insertAll_of_not_mem (m : SortedMap α β) {lines : List (α × β)} {k : α}
    (h : k ∉ lines.map Prod.fst) : (m.insertAll lines).get? k = m.get? k := by
  induction lines generalizing m with
  | nil => rfl
  | cons x rest ih =>
    rw [List.map_cons, List.mem_cons, not_or] at h
    exact (ih (m.insert x.1 x.2) h.2).trans (get?_insert_of_ne m h.1 x.2)

/-- What is written under a key does not depend on the other keys. -/
theorem get?_insertAll_congr {m m' : SortedMap α β} {k : α} (h : m.get? k = m'.get? k)
    (lines : List (α × β)) : (m.insertAll lines).get? k = (m'.insertAll lines).get? k := by
  induction lines generalizing m m' with
  | nil => exact h
  | cons x rest ih =>
    apply ih
    rw [get?_insert, get?_insert, h]

/-- Lines of different keys may be written in either order. -/
theorem insertAll_comm (m : SortedMap α β) {l l' : List (α × β)}
    (h : List.Disjoint (l.map Prod.fst) (l'.map Prod.fst)) :
    (m.insertAll l).insertAll l' = (m.insertAll l').insertAll l := by
  apply ext_get?
  intro k
  -- Each key is written by one of the two lists at most.
  by_cases hk : k ∈ l.map Prod.fst
  · have hk' : k ∉ l'.map Prod.fst := fun hmem => h hk hmem
    rw [get?_insertAll_of_not_mem _ hk']
    exact get?_insertAll_congr (get?_insertAll_of_not_mem m hk').symm l
  · rw [get?_insertAll_of_not_mem _ hk]
    exact get?_insertAll_congr (get?_insertAll_of_not_mem m hk) l'

theorem insert_comm (m : SortedMap α β) {k k' : α} (h : k ≠ k') (v v' : β) :
    (m.insert k v).insert k' v' = (m.insert k' v').insert k v := by
  have hdisjoint : List.Disjoint ([(k, v)].map Prod.fst) ([(k', v')].map Prod.fst) :=
    List.disjoint_singleton.2 fun hmem => h (List.mem_singleton.1 hmem).symm
  exact insertAll_comm m hdisjoint

/-- In a union the lines of the second map lie over those of the first. -/
theorem get?_union (m m' : SortedMap α β) (k : α) :
    (m.union m').get? k = (m'.get? k).or (m.get? k) := get?_insertAll_toList m m' k

/-- Keys are disjoint if no line of one map is under a key of the other. -/
theorem disjointKeys_iff {m : SortedMap α β} {m' : SortedMap α γ} :
    m.DisjointKeys m' ↔ ∀ x ∈ m.toList, m'.get? x.1 = none := by
  constructor
  · rintro h ⟨k, v⟩ hx
    have hsome : m.get? k = some v := get?_eq_some_iff.2 hx
    rcases h k with hnone | hnone
    · cases hsome.symm.trans hnone
    · exact hnone
  · intro h k
    cases hk : m.get? k with
    | none => exact Or.inl rfl
    | some v => exact Or.inr (h (k, v) (get?_eq_some_iff.1 hk))

instance (m : SortedMap α β) (m' : SortedMap α γ) : Decidable (m.DisjointKeys m') :=
  decidable_of_iff _ disjointKeys_iff.symm

namespace DisjointKeys

variable {m m' : SortedMap α β}

/-- Maps without a common key have one union, whichever is written over the other. -/
theorem union_comm (h : m.DisjointKeys m') : m.union m' = m'.union m := by
  apply ext_get?
  intro k
  rw [get?_union, get?_union]
  rcases h k with hnone | hnone
  · rw [hnone, Option.none_or, Option.or_none]
  · rw [hnone, Option.none_or, Option.or_none]

theorem not_mem_keys (h : m.DisjointKeys m') {k : α} (hk : k ∈ m.toList.map Prod.fst) :
    k ∉ m'.toList.map Prod.fst := by
  intro hk'
  obtain ⟨x, hx, rfl⟩ := List.mem_map.1 hk
  obtain ⟨y, hy, hkey⟩ := List.mem_map.1 hk'
  have hsome : m'.get? x.1 = some y.2 := get?_eq_some_iff.2 (hkey ▸ hy)
  cases hsome.symm.trans (disjointKeys_iff.1 h x hx)

/-- The union of maps without a common key holds the lines of both. -/
theorem toList_union (h : m.DisjointKeys m') :
    (m.union m').toList.Perm (m.toList ++ m'.toList) := by
  have hkeys : DistinctKeys (m.toList ++ m'.toList) := by
    rw [DistinctKeys, List.map_append]
    refine List.Nodup.append (distinctKeys_toList m) (distinctKeys_toList m') ?_
    intro k hk hk'
    exact h.not_mem_keys hk hk'
  have hunion : m.union m' = ofList (m.toList ++ m'.toList) := by
    rw [ofList, insertAll_append]
    exact congrArg (insertAll · m'.toList) (ofList_toList m).symm
  rw [hunion]
  exact toList_ofList_perm hkeys

end DisjointKeys

end SortedMap
end IndexVault
