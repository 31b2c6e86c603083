import IndexVault.SortedMap.SearchTree

/-! Finite maps: ordered search trees, taken to be the same when they hold the same lines. A map is
read through its ascending lines (`toList`), so two maps that answer every look-up alike are equal
(`ext_get?`), however they were built. -/
namespace IndexVault

/-- A search tree with ascending lines. -/
def OrderedTree (α β : Type) [Ord α] : Type :=
  { t : SearchTree α β // SortedMap.Ascending t.lines }

/-- Two trees are one map when they hold the same lines. -/
instance OrderedTree.sameLines (α β : Type) [Ord α] : Setoid (OrderedTree α β) where
  r s t := s.1.lines = t.1.lines
  iseqv := ⟨fun _ => rfl, Eq.symm, Eq.trans⟩

/-- A finite map. -/
def SortedMap (α β : Type) [Ord α] : Type :=
  Quotient (OrderedTree.sameLines α β)

namespace SortedMap

variable {α β γ : Type} [Ord α]

/-- The lines in ascending key order. -/
def toList (m : SortedMap α β) : List (α × β) :=
  Quotient.lift (fun t : OrderedTree α β => t.1.lines) (fun _ _ h => h) m

theorem ascending (m : SortedMap α β) : Ascending m.toList :=
  Quotient.ind (motive := fun m : SortedMap α β => Ascending m.toList) (fun t => t.2) m

/-- Two maps with the same lines are equal, however they were built. -/
theorem ext_toList {m m' : SortedMap α β} (h : m.toList = m'.toList) : m = m' := by
  induction m using Quotient.ind
  induction m' using Quotient.ind
  exact Quotient.sound h

theorem toList_inj {m m' : SortedMap α β} : m.toList = m'.toList ↔ m = m' :=
  ⟨ext_toList, congrArg _⟩

def empty : SortedMap α β :=
  Quotient.mk _ ⟨.leaf, List.Pairwise.nil⟩

instance : EmptyCollection (SortedMap α β) := ⟨empty⟩

instance : Inhabited (SortedMap α β) := ⟨empty⟩

instance [DecidableEq α] [DecidableEq β] : DecidableEq (SortedMap α β) := fun _ _ =>
  decidable_of_iff _ toList_inj

theorem toList_empty : (empty : SortedMap α β).toList = [] := rfl

section

variable [Std.TransOrd α]

def get? (m : SortedMap α β) (k : α) : Option β :=
  Quotient.lift (fun t : OrderedTree α β => t.1.find? k) (fun s t h =>
    (SearchTree.find?_eq k s.2).trans ((congrArg _ h).trans (SearchTree.find?_eq k t.2).symm)) m

/-- A look-up reads the lines. -/
theorem get?_eq (m : SortedMap α β) (k : α) : m.get? k = lineValue? k m.toList :=
  Quotient.ind (motive := fun m : SortedMap α β => m.get? k = lineValue? k m.toList)
    (fun t => SearchTree.find?_eq k t.2) m

def contains (m : SortedMap α β) (k : α) : Bool :=
  (m.get? k).isSome

def insertTree (k : α) (v : β) (t : OrderedTree α β) : OrderedTree α β :=
  ⟨t.1.insert k v, SearchTree.lines_insert k v t.2 ▸ ascending_insertLine k v t.2⟩

theorem lines_insertTree (k : α) (v : β) (t : OrderedTree α β) :
    (insertTree k v t).1.lines = insertLine k v t.1.lines :=
  SearchTree.lines_insert k v t.2

def insert (m : SortedMap α β) (k : α) (v : β) : SortedMap α β :=
  Quotient.lift (fun t => (Quotient.mk _ (insertTree k v t) : SortedMap α β)) (fun s t h =>
    Quotient.sound ((lines_insertTree k v s).trans
      ((congrArg _ h).trans (lines_insertTree k v t).symm))) m

/-- An insertion is one into the lines. -/
theorem toList_insert (m : SortedMap α β) (k : α) (v : β) :
    (m.insert k v).toList = insertLine k v m.toList :=
  Quotient.ind (motive := fun m : SortedMap α β =>
    (m.insert k v).toList = insertLine k v m.toList) (lines_insertTree k v) m

/-- Lines written one after the other: the last line of a repeated key stays. -/
def insertAll (m : SortedMap α β) (lines : List (α × β)) : SortedMap α β :=
  lines.foldl (fun m x => m.insert x.1 x.2) m

/-- The map of some lines; the last line of a repeated key stays. -/
def ofList (lines : List (α × β)) : SortedMap α β :=
  empty.insertAll lines

/-- Lines that go on in ascending order stay as they are. -/
theorem toList_insertAll_of_ascending {m : SortedMap α β} {lines : List (α × β)}
    (h : Ascending (m.toList ++ lines)) : (m.insertAll lines).toList = m.toList ++ lines := by
  induction lines generalizing m with
  | nil => simp [insertAll]
  | cons x rest ih =>
    have hgt : ∀ y ∈ m.toList, compare x.1 y.1 = .gt := fun y hy =>
      Std.OrientedCmp.gt_iff_lt.2 ((List.pairwise_append.1 h).2.2 y hy x List.mem_cons_self)
    have hm : (m.insert x.1 x.2).toList = m.toList ++ [x] := by
      have happ := insertLine_append_of_gt x.2 hgt []
      rw [List.append_nil] at happ
      rw [toList_insert, happ, insertLine]
    have hrest : Ascending ((m.insert x.1 x.2).toList ++ rest) := by
      rw [hm, List.append_assoc, List.singleton_append]
      exact h
    exact (ih hrest).trans (by rw [hm, List.append_assoc, List.singleton_append])

/-- Ascending lines are the lines of their map. -/
theorem toList_ofList_of_ascending {lines : List (α × β)} (h : Ascending lines) :
    (ofList lines).toList = lines :=
  toList_insertAll_of_ascending (m := empty) h

/-- A map is the map of its lines. -/
theorem ofList_toList (m : SortedMap α β) : ofList m.toList = m :=
  ext_toList (toList_ofList_of_ascending m.ascending)

def filter (p : α → β → Bool) (m : SortedMap α β) : SortedMap α β :=
  ofList (m.toList.filter fun x => p x.1 x.2)

theorem toList_filter (p : α → β → Bool) (m : SortedMap α β) :
    (m.filter p).toList = m.toList.filter fun x => p x.1 x.2 :=
  toList_ofList_of_ascending (m.ascending.filter _)

def erase (m : SortedMap α β) (k : α) : SortedMap α β :=
  m.filter (fun k' _ => compare k k' != .eq)

theorem get?_empty (k : α) : (empty : SortedMap α β).get? k = none := rfl

end

def keys (m : SortedMap α β) : List α :=
  m.toList.map Prod.fst

/-- The lines at some keys, which are looked up one by one. -/
def restrictToKeys [Std.TransOrd α] (m : SortedMap α β) (keys : List α) : SortedMap α β :=
  ofList (keys.filterMap fun k => (m.get? k).map fun v => (k, v))

/-- The lines at the keys of another map. -/
def restrict [Std.TransOrd α] (m : SortedMap α β) (among : SortedMap α γ) : SortedMap α β :=
  m.restrictToKeys among.keys

def values (m : SortedMap α β) : List β :=
  m.toList.map Prod.snd

def size (m : SortedMap α β) : Nat :=
  m.toList.length

def isEmpty (m : SortedMap α β) : Bool :=
  m.toList.isEmpty

section

variable [Std.TransOrd α]

theorem toList_restrict (m : SortedMap α β) (among : SortedMap α γ) :
    (m.restrict among).toList = among.keys.filterMap fun k => (m.get? k).map fun v => (k, v) := by
  apply toList_ofList_of_ascending
  have hkeys : among.keys.Pairwise (fun k k' => compare k k' = .lt) :=
    List.pairwise_map.2 among.ascending
  refine List.Pairwise.filterMap _ (fun k k' hk y hy y' hy' => ?_) hkeys
  obtain ⟨_, _, rfl⟩ := Option.map_eq_some_iff.1 hy
  obtain ⟨_, _, rfl⟩ := Option.map_eq_some_iff.1 hy'
  exact hk

variable [Std.LawfulEqOrd α]

/-- What a look-up finds are the lines of the map. -/
theorem get?_eq_some_iff {m : SortedMap α β} {k : α} {v : β} :
    m.get? k = some v ↔ (k, v) ∈ m.toList := by
  rw [get?_eq, lineValue?_eq_some_iff m.ascending]

theorem get?_filter (p : α → β → Bool) (m : SortedMap α β) (k : α) :
    (m.filter p).get? k = (m.get? k).filter (p k) := by
  apply Option.ext
  intro v
  rw [get?_eq_some_iff, Option.filter_eq_some_iff, get?_eq_some_iff, toList_filter,
    List.mem_filter]

/-- A restriction keeps the lines whose keys the other map has. -/
theorem restrict_eq_filter (m : SortedMap α β) (among : SortedMap α γ) :
    m.restrict among = m.filter fun k _ => among.contains k := by
  apply ext_toList
  refine eq_of_ascending_of_mem_iff (ascending _) (ascending _) fun x => ?_
  obtain ⟨k, v⟩ := x
  have hkey : among.contains k = true ↔ k ∈ among.keys := by
    simp [contains, Option.isSome_iff_exists, get?_eq_some_iff, keys]
  rw [toList_restrict, toList_filter, List.mem_filter, hkey, ← get?_eq_some_iff,
    List.mem_filterMap]
  constructor
  · rintro ⟨k', hk, hv⟩
    obtain ⟨v', hv', heq⟩ := Option.map_eq_some_iff.1 hv
    cases heq
    exact ⟨hv', hk⟩
  · rintro ⟨hv, hk⟩
    exact ⟨k, hk, Option.map_eq_some_iff.2 ⟨v, hv, rfl⟩⟩

theorem get?_restrict (m : SortedMap α β) (among : SortedMap α γ) (k : α) :
    (m.restrict among).get? k = if among.contains k then m.get? k else none := by
  rw [restrict_eq_filter, get?_filter]
  cases m.get? k <;> simp [Option.filter]

theorem get?_erase (m : SortedMap α β) (k k' : α) :
    (m.erase k).get? k' = if compare k k' = .eq then none else m.get? k' := by
  rw [erase, get?_filter]
  by_cases h : compare k k' = .eq
  · simp [h]
  · cases m.get? k' <;> simp [h]

/-- After a line is written its key has the new value, and every other key what it had. -/
theorem get?_insert (m : SortedMap α β) (k k' : α) (v : β) :
    (m.insert k v).get? k' = if compare k' k = .eq then some v else m.get? k' := by
  rw [get?_eq, toList_insert, lineValue?_insertLine, ← get?_eq]

theorem get?_insert_self (m : SortedMap α β) (k : α) (v : β) :
    (m.insert k v).get? k = some v := by
  rw [get?_insert, if_pos (compare_key_self k)]

theorem get?_insert_of_ne (m : SortedMap α β) {k k' : α} (h : k' ≠ k) (v : β) :
    (m.insert k v).get? k' = m.get? k' := by
  rw [get?_insert, if_neg fun h' => h (Std.LawfulEqCmp.eq_of_compare h')]

/-- Two maps that answer every look-up alike are equal. -/
theorem ext_get? {m m' : SortedMap α β} (h : ∀ k, m.get? k = m'.get? k) : m = m' :=
  ext_toList (eq_of_ascending_of_mem_iff m.ascending m'.ascending fun x => by
    rw [← get?_eq_some_iff, ← get?_eq_some_iff, h])

end

end SortedMap

end IndexVault
