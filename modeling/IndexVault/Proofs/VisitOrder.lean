import Mathlib.Data.List.Basic
import Mathlib.Data.List.Nodup
import Mathlib.Data.List.Perm.Basic
import IndexVault.SortedMap.VisitOrder

namespace IndexVault
namespace SortedMap

variable {α β γ : Type}

/-- No key occurs twice. -/
def DistinctKeys (lines : List (α × β)) : Prop := (lines.map Prod.fst).Nodup

/-- Keys stay distinct in any other order. -/
theorem DistinctKeys.perm {l l' : List (α × β)} (h : DistinctKeys l) (hp : l.Perm l') :
    DistinctKeys l' :=
  (hp.map Prod.fst).nodup_iff.1 h

theorem DistinctKeys.of_cons {x : α × β} {rest : List (α × β)} (h : DistinctKeys (x :: rest)) :
    x.1 ∉ rest.map Prod.fst ∧ DistinctKeys rest := by
  rw [DistinctKeys, List.map_cons] at h
  exact List.nodup_cons.1 h

theorem DistinctKeys.nodup {lines : List (α × β)} (h : DistinctKeys lines) : lines.Nodup :=
  List.Nodup.of_map Prod.fst h

/-- Lines made from lines, where lines of one key come from lines of one key. -/
theorem DistinctKeys.filterMap {δ : Type} {l : List (α × β)} (h : DistinctKeys l)
    (f : α × β → Option (δ × γ))
    (hf : ∀ x x' y y', f x = some y → f x' = some y' → y.1 = y'.1 → x.1 = x'.1) :
    DistinctKeys (l.filterMap f) := by
  have hl : l.Pairwise (fun x x' => x.1 ≠ x'.1) := List.pairwise_map.1 h
  apply List.pairwise_map.2
  apply List.Pairwise.filterMap f _ hl
  intro x x' hne y hy y' hy' heq
  exact hne (hf x x' y y' hy hy' heq)

/-- Lines that keep their keys keep them distinct. -/
theorem DistinctKeys.filterMap_same {l : List (α × β)} (h : DistinctKeys l)
    (f : α × β → Option (α × γ)) (hf : ∀ x y, f x = some y → y.1 = x.1) :
    DistinctKeys (l.filterMap f) := by
  apply h.filterMap
  intro x x' y y' hy hy' heq
  exact (hf x y hy).symm.trans (heq.trans (hf x' y' hy'))

theorem distinctKeys_mapValues (f : β → γ) {l : List (α × β)} (h : DistinctKeys l) :
    DistinctKeys (l.map fun x => (x.1, f x.2)) := by
  rw [DistinctKeys, List.map_map]
  exact h

theorem length_insertLine_le [Ord α] (k : α) (v : β) (l : List (α × β)) :
    (insertLine k v l).length ≤ l.length + 1 := by
  induction l with
  | nil => exact Nat.le_refl 1
  | cons x rest ih =>
    rw [insertLine]
    split
    · exact Nat.le_refl _
    · exact Nat.le_succ _
    · exact Nat.succ_le_succ ih

section

variable [Ord α] [Std.LawfulEqOrd α]

theorem compare_eq_iff {k k' : α} : compare k k' = .eq ↔ k = k' := by
  constructor
  · intro h
    exact Std.LawfulEqCmp.eq_of_compare h
  · rintro rfl
    exact compare_key_self k

theorem lineValue?_cons_self (k : α) (v : β) (rest : List (α × β)) :
    lineValue? k ((k, v) :: rest) = some v := by
  rw [lineValue?, if_pos (compare_key_self k)]

theorem lineValue?_cons_of_ne {k k' : α} (h : k ≠ k') (v : β) (rest : List (α × β)) :
    lineValue? k ((k', v) :: rest) = lineValue? k rest := by
  rw [lineValue?, if_neg (fun h' => h (compare_eq_iff.1 h'))]

theorem lineValue?_eq_none_iff {k : α} {l : List (α × β)} :
    lineValue? k l = none ↔ k ∉ l.map Prod.fst := by
  induction l with
  | nil => simp [lineValue?]
  | cons x rest ih =>
    by_cases hk : k = x.1
    · subst hk
      simp [lineValue?_cons_self x.1 x.2 rest]
    · rw [lineValue?_cons_of_ne hk, ih, List.map_cons, List.mem_cons]
      simp only [hk, false_or]

/-- Among lines of distinct keys, the value of a key is that of its one line. -/
theorem lineValue?_eq_some_iff_mem {k : α} {v : β} {l : List (α × β)} (h : DistinctKeys l) :
    lineValue? k l = some v ↔ (k, v) ∈ l := by
  induction l with
  | nil => simp [lineValue?]
  | cons x rest ih =>
    obtain ⟨hx, hrest⟩ := h.of_cons
    by_cases hk : k = x.1
    · subst hk
      rw [lineValue?_cons_self x.1 x.2 rest]
      constructor
      · intro hv
        cases hv
        exact List.mem_cons_self
      · intro hv
        rcases List.mem_cons.1 hv with hv | hv
        · rw [← hv]
        · exact absurd (List.mem_map_of_mem hv) hx
    · rw [lineValue?_cons_of_ne hk, ih hrest, List.mem_cons]
      constructor
      · exact Or.inr
      · rintro (hv | hv)
        · exact absurd (congrArg Prod.fst hv) hk
        · exact hv

/-- Among lines of distinct keys, their order does not decide what is found. -/
theorem lineValue?_perm {l l' : List (α × β)} (h : DistinctKeys l) (hp : l.Perm l') (k : α) :
    lineValue? k l = lineValue? k l' := by
  apply Option.ext
  intro v
  rw [lineValue?_eq_some_iff_mem h, lineValue?_eq_some_iff_mem (h.perm hp)]
  exact hp.mem_iff

/-- A sorted map has one line for each of its keys. -/
theorem distinctKeys_toList (m : SortedMap α β) : DistinctKeys m.toList := by
  have hne : m.toList.Pairwise (fun x y => x.1 ≠ y.1) := by
    apply List.Pairwise.imp _ m.ascending
    intro x y hlt heq
    rw [heq, compare_key_self] at hlt
    cases hlt
  exact List.pairwise_map.2 hne

theorem nodup_toList (m : SortedMap α β) : m.toList.Nodup := (distinctKeys_toList m).nodup

theorem nodup_keys (m : SortedMap α β) : m.keys.Nodup := distinctKeys_toList m

end

section

variable [Ord α] [Std.TransOrd α]

theorem get?_insertAll_eq_some {m : SortedMap α β} [Std.LawfulEqOrd α] {lines : List (α × β)} {k : α}
    {v : β} (h : (m.insertAll lines).get? k = some v) : (k, v) ∈ lines ∨ m.get? k = some v := by
  induction lines generalizing m with
  | nil => exact Or.inr h
  | cons x rest ih =>
    have hstep : ((m.insert x.1 x.2).insertAll rest).get? k = some v := h
    rcases ih hstep with hmem | hm
    · exact Or.inl (List.mem_cons_of_mem x hmem)
    · rw [get?_insert] at hm
      split at hm
      · rename_i hk
        cases hm
        rw [compare_eq_iff.1 hk]
        exact Or.inl List.mem_cons_self
      · exact Or.inr hm

theorem length_insertAll_le (m : SortedMap α β) (lines : List (α × β)) :
    (m.insertAll lines).toList.length ≤ m.toList.length + lines.length := by
  induction lines generalizing m with
  | nil => exact Nat.le_refl _
  | cons x rest ih =>
    have hline := length_insertLine_le x.1 x.2 m.toList
    have hrest := ih (m.insert x.1 x.2)
    rw [toList_insert] at hrest
    rw [List.length_cons]
    exact Nat.le_trans hrest (by omega)

/-- Equal keys make a map shorter than the list of its lines, and nothing makes it longer. -/
theorem length_ofList_le (lines : List (α × β)) : (ofList lines).toList.length ≤ lines.length := by
  have h := length_insertAll_le (empty : SortedMap α β) lines
  rw [toList_empty, List.length_nil, Nat.zero_add] at h
  exact h

theorem distinctKeys_lookups (m : SortedMap α β) {keys : List α} (h : keys.Nodup) :
    DistinctKeys (keys.filterMap fun k => (m.get? k).map fun v => (k, v)) := by
  have hkeys : DistinctKeys (keys.map fun k => (k, ())) := by
    rw [DistinctKeys, List.map_map]
    exact (List.map_id keys).symm ▸ h
  have hlines := hkeys.filterMap_same (fun x => (m.get? x.1).map fun v => (x.1, v)) (by
    intro x y hy
    obtain ⟨v, -, rfl⟩ := Option.map_eq_some_iff.1 hy
    rfl)
  rwa [List.filterMap_map] at hlines

variable [Std.LawfulEqOrd α]

/-- Lines of distinct keys are found after they were inserted, and under other keys what was there. -/
theorem get?_insertAll (m : SortedMap α β) {lines : List (α × β)} (h : DistinctKeys lines) (k : α) :
    (m.insertAll lines).get? k = (lineValue? k lines).or (m.get? k) := by
  induction lines generalizing m with
  | nil => rfl
  | cons x rest ih =>
    obtain ⟨hx, hrest⟩ := h.of_cons
    -- A key that is written once is not touched again, so the first line may be looked up last.
    have hstep : (m.insertAll (x :: rest)).get? k =
        (lineValue? k rest).or ((m.insert x.1 x.2).get? k) := ih (m.insert x.1 x.2) hrest
    rw [hstep]
    by_cases hk : k = x.1
    · subst hk
      rw [lineValue?_eq_none_iff.2 hx, get?_insert_self, lineValue?_cons_self x.1 x.2 rest]
      rfl
    · rw [get?_insert_of_ne m hk, lineValue?_cons_of_ne hk]

/-- One map written over another. -/
theorem get?_insertAll_toList (m m' : SortedMap α β) (k : α) :
    (m.insertAll m'.toList).get? k = (m'.get? k).or (m.get? k) := by
  rw [get?_insertAll m (distinctKeys_toList m'), ← get?_eq]

theorem get?_ofList {lines : List (α × β)} (h : DistinctKeys lines) (k : α) :
    (ofList lines).get? k = lineValue? k lines := by
  rw [ofList, get?_insertAll empty h, get?_empty, Option.or_none]

/-- Lines of distinct keys may be written in any order. -/
theorem insertAll_perm (m : SortedMap α β) {l l' : List (α × β)} (h : DistinctKeys l)
    (hp : l.Perm l') : m.insertAll l = m.insertAll l' := by
  apply ext_get?
  intro k
  rw [get?_insertAll m h, get?_insertAll m (h.perm hp), lineValue?_perm h hp]

/-- Lines of distinct keys make the same map in any order. -/
theorem ofList_perm {l l' : List (α × β)} (h : DistinctKeys l) (hp : l.Perm l') :
    ofList l = ofList l' :=
  insertAll_perm empty h hp

/-- Lines of distinct keys are the lines of the map they make up. -/
theorem toList_ofList_perm {lines : List (α × β)} (h : DistinctKeys lines) :
    (ofList lines).toList.Perm lines := by
  apply (List.perm_ext_iff_of_nodup (nodup_toList _) h.nodup).2
  intro x
  rw [← get?_eq_some_iff, get?_ofList h, lineValue?_eq_some_iff_mem h]

def mapValues (f : β → γ) (m : SortedMap α β) : SortedMap α γ :=
  ofList (m.toList.map fun x => (x.1, f x.2))

theorem get?_mapValues (f : β → γ) (m : SortedMap α β) (k : α) :
    (m.mapValues f).get? k = (m.get? k).map f := by
  have hkeys := distinctKeys_mapValues f (distinctKeys_toList m)
  apply Option.ext
  intro v
  rw [mapValues, get?_ofList hkeys, lineValue?_eq_some_iff_mem hkeys, List.mem_map,
    Option.map_eq_some_iff]
  constructor
  · rintro ⟨⟨k', w⟩, hmem, heq⟩
    cases heq
    exact ⟨w, get?_eq_some_iff.2 hmem, rfl⟩
  · rintro ⟨w, hw, rfl⟩
    exact ⟨(k, w), get?_eq_some_iff.1 hw, rfl⟩

/-- A look-up of some keys may go through them in any order. -/
theorem restrictToKeys_perm (m : SortedMap α β) {among : SortedMap α γ} {keys : List α}
    (hp : keys.Perm among.keys) : m.restrictToKeys keys = m.restrict among :=
  ofList_perm (distinctKeys_lookups m (hp.nodup_iff.2 (nodup_keys among))) (hp.filterMap _)

end

namespace VisitOrder

variable [Ord α]

def keys (o : VisitOrder α) (m : SortedMap α β) : List α := (o.lines m).map Prod.fst

/-- Whatever the order, each key is visited once. -/
theorem keys_perm (o : VisitOrder α) (m : SortedMap α β) : (o.keys m).Perm m.keys :=
  (o.perm m).map Prod.fst

theorem distinctKeys [Std.TransOrd α] [Std.LawfulEqOrd α] (o : VisitOrder α) (m : SortedMap α β) :
    DistinctKeys (o.lines m) :=
  (distinctKeys_toList m).perm (o.perm m).symm

end VisitOrder

end SortedMap
end IndexVault
