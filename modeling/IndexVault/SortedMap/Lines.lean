namespace IndexVault

namespace SortedMap

variable {α β : Type} [Ord α]

/-- Lines by strictly ascending key. On such a list look-up and insertion take one pass. -/
def Ascending (l : List (α × β)) : Prop :=
  l.Pairwise (fun x y => compare x.1 y.1 = .lt)

/-- The order of lines is that of their keys. -/
theorem ascending_iff {l : List (α × β)} :
    Ascending l ↔ (l.map Prod.fst).Pairwise fun k k' => compare k k' = .lt := by
  rw [Ascending, List.pairwise_map]

def lineValue? (k : α) : List (α × β) → Option β
  | [] => none
  | (k', v) :: rest => if compare k k' = .eq then some v else lineValue? k rest

/-- Puts a line at its place among ascending lines; a line with the same key is replaced. -/
def insertLine (k : α) (v : β) : List (α × β) → List (α × β)
  | [] => [(k, v)]
  | (k', v') :: rest =>
    match compare k k' with
    | .lt => (k, v) :: (k', v') :: rest
    | .eq => (k, v) :: rest
    | .gt => (k', v') :: insertLine k v rest

/-- An insertion adds no line but the one that is written. -/
theorem mem_insertLine {k : α} {v : β} {l : List (α × β)} {x : α × β}
    (h : x ∈ insertLine k v l) : x = (k, v) ∨ x ∈ l := by
  induction l with
  | nil => simpa [insertLine] using h
  | cons y rest ih =>
    obtain ⟨k', v'⟩ := y
    unfold insertLine at h
    split at h
    · simpa using h
    · rcases List.mem_cons.1 h with h | h
      · exact Or.inl h
      · exact Or.inr (List.mem_cons_of_mem _ h)
    · rcases List.mem_cons.1 h with h | h
      · exact Or.inr (h ▸ List.mem_cons_self)
      · exact (ih h).imp id (List.mem_cons_of_mem _)

theorem ascending_insertLine [Std.TransOrd α] (k : α) (v : β) {l : List (α × β)}
    (h : Ascending l) : Ascending (insertLine k v l) := by
  induction l with
  | nil => simp [insertLine, Ascending]
  | cons y rest ih =>
    obtain ⟨k', v'⟩ := y
    obtain ⟨hy, hrest⟩ := List.pairwise_cons.1 h
    -- the line goes in front, in place of the first one, or among the later ones
    unfold insertLine
    split
    · rename_i hk
      refine List.pairwise_cons.2 ⟨fun x hx => ?_, h⟩
      rcases List.mem_cons.1 hx with rfl | hx
      · exact hk
      · exact Std.TransCmp.lt_trans hk (hy x hx)
    · rename_i hk
      exact List.pairwise_cons.2 ⟨fun x hx => Std.TransCmp.lt_of_eq_of_lt hk (hy x hx), hrest⟩
    · rename_i hk
      refine List.pairwise_cons.2 ⟨fun x hx => ?_, ih hrest⟩
      rcases mem_insertLine hx with rfl | hx
      · exact Std.OrientedCmp.gt_iff_lt.1 hk
      · exact hy x hx

/-- Cut at a line behind the key, the list takes the new line in its front part, as a search tree does. -/
theorem insertLine_append_of_lt {k : α} (v : β) (l : List (α × β)) {x : α × β}
    (h : compare k x.1 = .lt) (r : List (α × β)) :
    insertLine k v (l ++ x :: r) = insertLine k v l ++ x :: r := by
  induction l with
  | nil => simp [insertLine, h]
  | cons y l ih =>
    rw [List.cons_append, insertLine, insertLine]
    split
    · rfl
    · rfl
    · rw [ih, List.cons_append]

/-- Cut behind lines before the key, the list takes the new line in its back part. -/
theorem insertLine_append_of_gt {k : α} (v : β) {l : List (α × β)}
    (h : ∀ y ∈ l, compare k y.1 = .gt) (r : List (α × β)) :
    insertLine k v (l ++ r) = l ++ insertLine k v r := by
  induction l with
  | nil => rfl
  | cons y l ih =>
    rw [List.cons_append, insertLine, h y List.mem_cons_self,
      ih fun z hz => h z (List.mem_cons_of_mem _ hz), List.cons_append]

theorem lineValue?_eq_none {k : α} {l : List (α × β)} (h : ∀ y ∈ l, compare k y.1 ≠ .eq) :
    lineValue? k l = none := by
  induction l with
  | nil => rfl
  | cons y l ih =>
    rw [lineValue?, if_neg (h y List.mem_cons_self),
      ih fun z hz => h z (List.mem_cons_of_mem _ hz)]

theorem lineValue?_append (k : α) (l r : List (α × β)) :
    lineValue? k (l ++ r) = (lineValue? k l).or (lineValue? k r) := by
  induction l with
  | nil => rfl
  | cons y l ih =>
    rw [List.cons_append, lineValue?, lineValue?]
    split
    · rfl
    · exact ih

theorem gt_of_ascending_append [Std.TransOrd α] {k : α} {l r : List (α × β)} {x : α × β}
    (h : Ascending (l ++ x :: r)) (hk : (compare k x.1).isGE) :
    ∀ y ∈ l, compare k y.1 = .gt := fun y hy =>
  have hlt : compare y.1 x.1 = .lt :=
    (List.pairwise_append.1 h).2.2 y hy x List.mem_cons_self
  Std.OrientedCmp.gt_iff_lt.2 (Std.TransCmp.lt_of_lt_of_isLE hlt
    (Std.OrientedCmp.isGE_iff_isLE.1 hk))

theorem lt_of_ascending_append [Std.TransOrd α] {k : α} {l r : List (α × β)} {x : α × β}
    (h : Ascending (l ++ x :: r)) (hk : (compare k x.1).isLE) :
    ∀ y ∈ r, compare k y.1 = .lt := fun y hy =>
  Std.TransCmp.lt_of_isLE_of_lt hk
    ((List.pairwise_cons.1 (List.pairwise_append.1 h).2.1).1 y hy)

theorem compare_key_self [Std.LawfulEqOrd α] (k : α) : compare k k = .eq :=
  Std.ReflCmp.compare_self

/-- Among ascending lines a look-up finds every line. -/
theorem lineValue?_eq_some_iff [Std.LawfulEqOrd α] {k : α} {v : β} {l : List (α × β)}
    (h : Ascending l) : lineValue? k l = some v ↔ (k, v) ∈ l := by
  induction l with
  | nil => simp [lineValue?]
  | cons y rest ih =>
    obtain ⟨k', v'⟩ := y
    obtain ⟨hy, hrest⟩ := List.pairwise_cons.1 h
    unfold lineValue?
    split
    · rename_i hk
      have hk' : k = k' := Std.LawfulEqCmp.eq_of_compare hk
      subst hk'
      constructor
      · intro hv
        cases hv
        exact List.mem_cons_self
      · intro hv
        -- a later line of the same key would be above itself
        rcases List.mem_cons.1 hv with hv | hv
        · cases hv
          rfl
        · have hlt := hy _ hv
          rw [compare_key_self] at hlt
          cases hlt
    · rename_i hk
      rw [ih hrest, List.mem_cons]
      constructor
      · exact Or.inr
      · rintro (hv | hv)
        · cases hv
          exact absurd (compare_key_self _) hk
        · exact hv

/-- A look-up after an insertion, whatever the order of the lines is. -/
theorem lineValue?_insertLine [Std.LawfulEqOrd α] (k k' : α) (v : β) (l : List (α × β)) :
    lineValue? k' (insertLine k v l) = if compare k' k = .eq then some v else lineValue? k' l := by
  induction l with
  | nil => rfl
  | cons y rest ih =>
    obtain ⟨k₁, v₁⟩ := y
    unfold insertLine
    split
    · rfl
    · rename_i hk
      have hk' : k = k₁ := Std.LawfulEqCmp.eq_of_compare hk
      subst hk'
      by_cases h : compare k' k = .eq <;> simp [lineValue?, h]
    · rename_i hk
      rw [lineValue?, ih, lineValue?]
      by_cases h : compare k' k₁ = .eq
      · have hne : ¬compare k' k = .eq := by
          intro h'
          rw [← Std.LawfulEqCmp.eq_of_compare h', Std.LawfulEqCmp.eq_of_compare h,
            compare_key_self] at hk
          cases hk
        simp [h, hne]
      · simp [h]

/-- Ascending lists of the same lines are one list. -/
theorem eq_of_ascending_of_mem_iff [Std.TransOrd α] [Std.LawfulEqOrd α] {l l' : List (α × β)}
    (h : Ascending l) (h' : Ascending l') (hmem : ∀ x, x ∈ l ↔ x ∈ l') : l = l' := by
  induction l generalizing l' with
  | nil =>
    cases l' with
    | nil => rfl
    | cons y _ => exact absurd ((hmem y).2 List.mem_cons_self) List.not_mem_nil
  | cons x rest ih =>
    cases l' with
    | nil => exact absurd ((hmem x).1 List.mem_cons_self) List.not_mem_nil
    | cons y rest' =>
      obtain ⟨hx, hrest⟩ := List.pairwise_cons.1 h
      obtain ⟨hy, hrest'⟩ := List.pairwise_cons.1 h'
      have hself (z : α × β) : ¬compare z.1 z.1 = .lt := by
        rw [compare_key_self]
        decide
      -- the first lines are equal, for each would be above the other if both came later
      have hxy : x = y := by
        rcases List.mem_cons.1 ((hmem x).1 List.mem_cons_self) with hxy | hxm
        · exact hxy
        rcases List.mem_cons.1 ((hmem y).2 List.mem_cons_self) with hyx | hym
        · exact hyx.symm
        exact absurd (Std.TransCmp.lt_trans (hx y hym) (hy x hxm)) (hself x)
      subst hxy
      refine congrArg (x :: ·) (ih hrest hrest' fun z => ⟨fun hz => ?_, fun hz => ?_⟩)
      · rcases List.mem_cons.1 ((hmem z).1 (List.mem_cons_of_mem _ hz)) with rfl | hz'
        · exact absurd (hx z hz) (hself z)
        · exact hz'
      · rcases List.mem_cons.1 ((hmem z).2 (List.mem_cons_of_mem _ hz)) with rfl | hz'
        · exact absurd (hy z hz) (hself z)
        · exact hz'

end SortedMap

end IndexVault
