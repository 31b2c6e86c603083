import IndexVault.Metadata.Registry

namespace IndexVault

namespace Registry

theorem get?_eq_ok_iff {r : Registry} {publicId : String} {row : Option Index} :
    r.get? publicId = .ok row ↔ r.ready = .ok () ∧ r.findLive publicId = row := by
  cases h : r.ready with
  | error e =>
    have hget : r.get? publicId = .error e := by
      rw [get?, h]
      rfl
    simp [hget]
  | ok u =>
    have hget : r.get? publicId = .ok (r.findLive publicId) := by
      rw [get?, h]
      rfl
    simp [hget]

theorem get?_eq_error {r : Registry} {publicId : String} {e : Failure}
    (h : r.get? publicId = .error e) : r.ready = .error e := by
  rw [get?] at h
  cases hready : r.ready with
  | error e' =>
    rw [hready] at h
    cases h
    rfl
  | ok u =>
    rw [hready] at h
    cases h

theorem ready_eq_error {r : Registry} {e : Failure} (h : r.ready = .error e) :
    ∃ fault, e = .database fault := by
  rw [ready] at h
  split at h
  · cases h
    exact ⟨_, rfl⟩
  · split at h
    · cases h
      exact ⟨_, rfl⟩
    · cases h

/-- A listing is the live rows of the project, sorted. -/
theorem list_of_ready {r : Registry} (h : r.ready = .ok ()) (project : String) :
    r.list project = .ok ((r.rows.filter fun i => i.projectUuid == project && i.isLive).mergeSort
      listsBefore) := by
  rw [list, h]
  rfl

/-- Only live indexes of the project are listed. -/
theorem mem_of_list {r : Registry} {project : String} {indexes : List Index}
    (h : r.list project = .ok indexes) {i : Index} (hi : i ∈ indexes) :
    i ∈ r.rows ∧ i.projectUuid = project ∧ i.isLive = true := by
  cases hready : r.ready with
  | error e =>
    rw [list, hready] at h
    cases h
  | ok u =>
    rw [list_of_ready hready] at h
    cases h
    obtain ⟨hmem, hshown⟩ := List.mem_filter.1 (List.mem_mergeSort.1 hi)
    rw [Bool.and_eq_true] at hshown
    exact ⟨hmem, eq_of_beq hshown.1, hshown.2⟩

/-- What is found under a public id has it. -/
theorem publicId_of_findLive {r : Registry} {publicId : String} {index : Index}
    (h : r.findLive publicId = some index) : index.publicId = publicId := by
  have hfound := List.find?_some h
  rw [Bool.and_eq_true] at hfound
  exact eq_of_beq hfound.1

/-- The rows are numbered from 1 in the order in which they were made. -/
def Numbered (r : Registry) : Prop :=
  ∀ (n : Nat) (i : Index), r.rows[n]? = some i → i.id = n + 1

/-- Rows with one number are one row. -/
theorem Numbered.eq_of_mem {r : Registry} (hr : r.Numbered) {i j : Index} (hi : i ∈ r.rows)
    (hj : j ∈ r.rows) (h : i.id = j.id) : i = j := by
  obtain ⟨m, hm⟩ := List.getElem?_of_mem hi
  obtain ⟨n, hn⟩ := List.getElem?_of_mem hj
  have hmn : m = n := by
    have hnext : (m : Int) + 1 = n + 1 := (hr m i hm).symm.trans (h.trans (hr n j hn))
    omega
  subst hmn
  exact Option.some.inj (hm.symm.trans hn)

/-- The next number is a new one. -/
theorem Numbered.ne_nextId {r : Registry} (hr : r.Numbered) {i : Index} (hi : i ∈ r.rows) :
    i.id ≠ r.nextId := by
  obtain ⟨n, hn⟩ := List.getElem?_of_mem hi
  obtain ⟨hlt, -⟩ := List.getElem?_eq_some_iff.1 hn
  intro heq
  have hnext : (n : Int) + 1 = r.rows.length + 1 := (hr n i hn).symm.trans heq
  omega

/-- Two live indexes of one internal number have one public id. -/
theorem Numbered.eq_of_id_eq {r : Registry} (hr : r.Numbered) {publicId other : String}
    {i j : Index} (hi : r.findLive publicId = some i) (hj : r.findLive other = some j)
    (h : i.id = j.id) : publicId = other := by
  have hij := hr.eq_of_mem (List.mem_of_find?_eq_some hi) (List.mem_of_find?_eq_some hj) h
  rw [← publicId_of_findLive hi, ← publicId_of_findLive hj, hij]

/-- A new index takes the first place behind the rows, and one of the public ids drawn for it that no
row has. -/
theorem create_rows {r r' : Registry} {new : NewIndex} {spareIds : List String} {index : Index}
    (h : r.create new spareIds = .ok (r', index)) :
    r'.ready = r.ready ∧ r'.rows = r.rows ++ [index] ∧
      ∃ publicId ∈ new.publicId :: spareIds,
        r.isTaken publicId = false ∧ index = new.placed r.nextId publicId := by
  rw [create] at h
  cases hready : r.ready with
  | error e =>
    rw [hready] at h
    cases h
  | ok u =>
    rw [hready] at h
    dsimp only [bind, Except.bind] at h
    split at h
    · cases h
    · rename_i publicId hfree
      have huntaken := List.find?_some hfree
      rw [Bool.not_eq_true'] at huntaken
      cases h
      exact ⟨hready, rfl, publicId, List.mem_of_find?_eq_some hfree, huntaken, rfl⟩

/-- A registry that takes a new index answers. -/
theorem ready_of_create {r r' : Registry} {new : NewIndex} {spareIds : List String} {index : Index}
    (h : r.create new spareIds = .ok (r', index)) : r.ready = .ok () := by
  rw [create] at h
  cases hready : r.ready with
  | error e =>
    rw [hready] at h
    cases h
  | ok u => rfl

/-- Creating an index changes no answer that was found. -/
theorem create_eq_ok {r r' : Registry} {new : NewIndex} {spareIds : List String} {index : Index}
    (h : r.create new spareIds = .ok (r', index)) :
    r'.ready = r.ready ∧ (r.Numbered → r'.Numbered) ∧
      ∀ publicId found, r.findLive publicId = some found → r'.findLive publicId = some found := by
  obtain ⟨hready, hrows, publicId, -, -, rfl⟩ := create_rows h
  refine ⟨hready, fun hr => ?_, fun publicId found hfound => ?_⟩
  -- The new row is the only one behind the others, and it is numbered by their count.
  · intro n i hi
    rw [hrows, List.getElem?_append] at hi
    split at hi
    · exact hr n i hi
    · rename_i hn
      obtain ⟨hlast, rfl⟩ := List.getElem?_eq_some_iff.1 hi
      have hzero : n = r.rows.length := by
        rw [List.length_singleton] at hlast
        omega
      subst hzero
      simp [NewIndex.placed, nextId]
  -- It is behind all other rows, so it hides none of them.
  · rw [findLive, hrows, List.find?_append]
    exact congrArg (Option.or · _) hfound

/-- A deletion marks the rows that it applies to and keeps all others, in their places. -/
theorem delete_rows {r r' : Registry} {publicId authzId : String} {now : Moment} {done : Bool}
    (h : r.delete publicId authzId now = .ok (r', done)) :
    r'.ready = r.ready ∧
      r'.rows = (r.rows.map fun i =>
        if isDeletable publicId authzId i then { i with deletedAt := some now } else i) ∧
      done = r.rows.any (isDeletable publicId authzId) := by
  rw [delete] at h
  cases hready : r.ready with
  | error e =>
    rw [hready] at h
    cases h
  | ok u =>
    rw [hready] at h
    cases h
    exact ⟨hready, rfl, rfl⟩

theorem ready_of_delete {r r' : Registry} {publicId authzId : String} {now : Moment} {done : Bool}
    (h : r.delete publicId authzId now = .ok (r', done)) : r.ready = .ok () := by
  rw [delete] at h
  cases hready : r.ready with
  | error e =>
    rw [hready] at h
    cases h
  | ok u => rfl

/-- Deleting an index changes the answers for one public id at most, and rows keep the numbers they were
given. -/
theorem delete_eq_ok {r r' : Registry} {publicId authzId : String} {now : Moment} {done : Bool}
    (h : r.delete publicId authzId now = .ok (r', done)) :
    r'.ready = r.ready ∧ (r.Numbered → r'.Numbered) ∧
      ∀ other, other ≠ publicId → r'.findLive other = r.findLive other := by
  obtain ⟨hready, hrows, -⟩ := delete_rows h
  refine ⟨hready, fun hr => ?_, fun other hother => ?_⟩
  · intro n i hi
    rw [hrows, List.getElem?_map] at hi
    obtain ⟨j, hj, rfl⟩ := Option.map_eq_some_iff.1 hi
    have hid := hr n j hj
    split
    · exact hid
    · exact hid
  · simp only [findLive, hrows]
    generalize r.rows = rows
    -- A row of the public id is passed over by both searches, and any other row stays as it is.
    induction rows with
    | nil => rfl
    | cons i rest ih =>
      rw [List.map_cons, List.find?_cons, List.find?_cons, ih]
      by_cases hi : isDeletable publicId authzId i = true
      · have hne : (i.publicId == other) = false := by
          rw [isDeletable, Bool.and_eq_true, Bool.and_eq_true] at hi
          rw [eq_of_beq hi.1.1]
          exact beq_false_of_ne hother.symm
        rw [if_pos hi]
        simp only [hne, Bool.false_and]
      · rw [if_neg hi]

end Registry
end IndexVault
