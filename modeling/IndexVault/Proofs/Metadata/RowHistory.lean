import Mathlib.Data.List.Nodup
import IndexVault.Proofs.Metadata.LiveIndexes

namespace IndexVault

/-- The row as it was before it was deleted. -/
def Index.undeleted (i : Index) : Index := { i with deletedAt := none }

theorem Index.undeleted_of_isLive {i : Index} (h : i.isLive = true) : i.undeleted = i := by
  have hnone : i.deletedAt = none := Option.isNone_iff_eq_none.1 h
  rw [undeleted, ← hnone]

namespace Registry

/-- No public id has two rows. -/
def DistinctIds (r : Registry) : Prop := (r.rows.map Index.publicId).Nodup

theorem isTaken_iff {r : Registry} {publicId : String} :
    r.isTaken publicId = true ↔ ∃ i ∈ r.rows, i.publicId = publicId := by
  rw [isTaken, List.any_eq_true]
  simp only [beq_iff_eq]

/-- Where public ids are distinct, a public id has one row at most. -/
theorem DistinctIds.eq_of_publicId_eq {r : Registry} (h : r.DistinctIds) {i j : Index}
    (hi : i ∈ r.rows) (hj : j ∈ r.rows) (heq : i.publicId = j.publicId) : i = j :=
  List.inj_on_of_nodup_map h hi hj heq

/-- What is found is a live row of the public id. -/
theorem findLive_spec {r : Registry} {publicId : String} {i : Index}
    (h : r.findLive publicId = some i) : i ∈ r.rows ∧ i.publicId = publicId ∧ i.isLive = true := by
  have hlive := List.find?_some h
  rw [Bool.and_eq_true] at hlive
  exact ⟨List.mem_of_find?_eq_some h, eq_of_beq hlive.1, hlive.2⟩

/-- Where public ids are distinct, every live row is found. -/
theorem findLive_eq_some_iff {r : Registry} (h : r.DistinctIds) {publicId : String} {i : Index} :
    r.findLive publicId = some i ↔ i ∈ r.rows ∧ i.publicId = publicId ∧ i.isLive = true := by
  constructor
  · exact findLive_spec
  · rintro ⟨hi, hid, hlive⟩
    cases hfound : r.findLive publicId with
    | none =>
      have hnot := List.find?_eq_none.1 hfound i hi
      rw [hid, hlive, beq_self_eq_true] at hnot
      exact absurd rfl hnot
    | some j =>
      obtain ⟨hj, hjd, -⟩ := findLive_spec hfound
      rw [h.eq_of_publicId_eq hi hj (hid.trans hjd.symm)]

/-- Nothing is found where every row of the public id is deleted. -/
theorem findLive_eq_none_iff {r : Registry} {publicId : String} :
    r.findLive publicId = none ↔ ∀ i ∈ r.rows, i.publicId = publicId → i.isLive = false := by
  rw [findLive, List.find?_eq_none]
  simp only [Bool.and_eq_true, beq_iff_eq, not_and, Bool.not_eq_true]

/-- What creations and deletions make of a registry. -/
structure Evolves (r r' : Registry) : Prop where
  ready : r'.ready = r.ready
  distinctIds : r.DistinctIds → r'.DistinctIds
  rows : ∀ i ∈ r.rows, ∃ i' ∈ r'.rows, i'.undeleted = i.undeleted
  live : ∀ i ∈ r'.rows, i.isLive = true → i ∈ r.rows ∨ r.isTaken i.publicId = false

namespace Evolves

theorem refl (r : Registry) : r.Evolves r :=
  ⟨rfl, id, fun i hi => ⟨i, hi, rfl⟩, fun _ hi _ => Or.inl hi⟩

variable {r r' : Registry} (h : r.Evolves r') {publicId : String}

include h

/-- A public id that is taken stays taken. -/
theorem isTaken (htaken : r.isTaken publicId = true) : r'.isTaken publicId = true := by
  obtain ⟨i, hi, hid⟩ := isTaken_iff.1 htaken
  obtain ⟨i', hi', hsame⟩ := h.rows i hi
  have hid' : i'.undeleted.publicId = i.undeleted.publicId := congrArg Index.publicId hsame
  exact isTaken_iff.2 ⟨i', hi', hid'.trans hid⟩

/-- An index that is deleted is never found again. -/
theorem findLive_eq_none (htaken : r.isTaken publicId = true)
    (hnone : r.findLive publicId = none) : r'.findLive publicId = none := by
  rw [findLive_eq_none_iff] at hnone ⊢
  intro i hi hid
  cases hlive : i.isLive with
  | false => rfl
  | true =>
    rcases h.live i hi hlive with hmem | hfree
    · exact hlive.symm.trans (hnone i hmem hid)
    · rw [hid, htaken] at hfree
      cases hfree

/-- An index that is found was found before, if its public id had a row then. -/
theorem findLive_before (hdistinct : r.DistinctIds) (htaken : r.isTaken publicId = true) {i : Index}
    (hfound : r'.findLive publicId = some i) : r.findLive publicId = some i := by
  obtain ⟨hi, hid, hlive⟩ := findLive_spec hfound
  rcases h.live i hi hlive with hmem | hfree
  · exact (findLive_eq_some_iff hdistinct).2 ⟨hmem, hid, hlive⟩
  · rw [hid, htaken] at hfree
    cases hfree

end Evolves

/-- A creation adds a row behind the others. -/
theorem evolves_of_create {r r' : Registry} {new : NewIndex} {spareIds : List String} {index : Index}
    (h : r.create new spareIds = .ok (r', index)) : r.Evolves r' := by
  obtain ⟨hready, hrows, publicId, -, huntaken, rfl⟩ := create_rows h
  refine ⟨hready, fun hdistinct => ?_, fun i hi => ?_, fun i hi hlive => ?_⟩
  · have hnew : publicId ∉ r.rows.map Index.publicId := by
      intro hmem
      obtain ⟨i, hi, hid⟩ := List.mem_map.1 hmem
      rw [isTaken_iff.2 ⟨i, hi, hid⟩] at huntaken
      cases huntaken
    rw [DistinctIds, hrows, List.map_append]
    exact List.nodup_append_comm.1 (List.nodup_cons.2 ⟨hnew, hdistinct⟩)
  · exact ⟨i, hrows ▸ List.mem_append_left _ hi, rfl⟩
  · rw [hrows] at hi
    rcases List.mem_append.1 hi with hold | hlast
    · exact Or.inl hold
    · cases List.mem_singleton.1 hlast
      exact Or.inr huntaken

section Delete

variable {r r' : Registry} {publicId authzId : String} {now : Moment} {done : Bool}

/-- Rows that are live after a deletion are those that it did not apply to. -/
theorem mem_rows_of_delete (h : r.delete publicId authzId now = .ok (r', done)) {i : Index}
    (hi : i ∈ r'.rows) (hlive : i.isLive = true) :
    i ∈ r.rows ∧ isDeletable publicId authzId i = false := by
  rw [(delete_rows h).2.1] at hi
  obtain ⟨j, hj, rfl⟩ := List.mem_map.1 hi
  by_cases hdel : isDeletable publicId authzId j = true
  · rw [if_pos hdel] at hlive
    cases hlive
  · rw [if_neg hdel]
    exact ⟨hj, Bool.eq_false_iff.2 hdel⟩

/-- A deletion leaves every row in its place, with a time of deletion at most. -/
theorem evolves_of_delete (h : r.delete publicId authzId now = .ok (r', done)) : r.Evolves r' := by
  obtain ⟨-, hrows, -⟩ := delete_rows h
  refine ⟨(delete_eq_ok h).1, fun hdistinct => ?_, fun i hi => ?_, fun i hi hlive => ?_⟩
  · have hids : r'.rows.map Index.publicId = r.rows.map Index.publicId := by
      rw [hrows, List.map_map]
      apply List.map_congr_left
      intro i _
      rw [Function.comp_apply]
      split <;> rfl
    rw [DistinctIds, hids]
    exact hdistinct
  · refine ⟨_, hrows ▸ List.mem_map_of_mem hi, ?_⟩
    split <;> rfl
  · exact Or.inl (mem_rows_of_delete h hi hlive).1

/-- An index that was there to delete is not found afterwards, though its row stays. -/
theorem findLive_of_deleted (hdistinct : r.DistinctIds)
    (h : r.delete publicId authzId now = .ok (r', true)) :
    r'.isTaken publicId = true ∧ r'.findLive publicId = none := by
  obtain ⟨i, hi, hdel⟩ := List.any_eq_true.1 (delete_rows h).2.2.symm
  have hid : i.publicId = publicId := by
    rw [isDeletable, Bool.and_eq_true, Bool.and_eq_true] at hdel
    exact eq_of_beq hdel.1.1
  refine ⟨(evolves_of_delete h).isTaken (isTaken_iff.2 ⟨i, hi, hid⟩), ?_⟩
  rw [findLive_eq_none_iff]
  intro j hj hjd
  cases hlive : j.isLive with
  | false => rfl
  | true =>
    obtain ⟨hmem, hkept⟩ := mem_rows_of_delete h hj hlive
    -- The only row of the public id is the one that was deleted.
    rw [hdistinct.eq_of_publicId_eq hmem hi (hjd.trans hid.symm), hdel] at hkept
    cases hkept

end Delete

/-- A public id has a row, but none that is live. -/
def HasDeleted (r : Registry) (publicId : String) : Prop :=
  r.isTaken publicId = true ∧ r.findLive publicId = none

theorem hasDeleted_iff {r : Registry} {publicId : String} :
    r.HasDeleted publicId ↔ (∃ i ∈ r.rows, i.publicId = publicId) ∧
      ∀ i ∈ r.rows, i.publicId = publicId → i.isLive = false := by
  rw [HasDeleted, isTaken_iff, findLive_eq_none_iff]

theorem DistinctIds.hasDeleted {r : Registry} (h : r.DistinctIds) {i : Index} (hi : i ∈ r.rows)
    (hdead : i.isLive = false) : r.HasDeleted i.publicId := by
  refine hasDeleted_iff.2 ⟨⟨i, hi, rfl⟩, fun j hj hid => ?_⟩
  rw [h.eq_of_publicId_eq hj hi hid]
  exact hdead

/-- A public id of a deleted index stays that of a deleted index. -/
theorem Evolves.hasDeleted {r r' : Registry} (h : r.Evolves r') {publicId : String}
    (hdeleted : r.HasDeleted publicId) : r'.HasDeleted publicId :=
  ⟨h.isTaken hdeleted.1, h.findLive_eq_none hdeleted.1 hdeleted.2⟩

/-- A creation deletes nothing. -/
theorem HasDeleted.before_create {r r' : Registry} {new : NewIndex} {spareIds : List String}
    {index : Index} {publicId : String} (hdeleted : r'.HasDeleted publicId)
    (h : r.create new spareIds = .ok (r', index)) : r.HasDeleted publicId := by
  obtain ⟨-, hrows, _, -, -, rfl⟩ := create_rows h
  obtain ⟨⟨i, hi, hid⟩, hdead⟩ := hasDeleted_iff.1 hdeleted
  rw [hrows] at hi hdead
  have hbefore : i ∈ r.rows := by
    rcases List.mem_append.1 hi with hold | hnew
    · exact hold
    · -- The new row is live.
      have hlive := hdead i hi hid
      cases List.mem_singleton.1 hnew
      cases hlive
  exact hasDeleted_iff.2 ⟨⟨i, hbefore, hid⟩, fun j hj => hdead j (List.mem_append_left _ hj)⟩

/-- A row that is deleted now was deleted before, or has just been found by its deletion. -/
theorem HasDeleted.before_delete {r r' : Registry} {publicId other authzId : String} {now : Moment}
    {found : Bool} (hdeleted : r'.HasDeleted publicId)
    (h : r.delete other authzId now = .ok (r', found)) :
    r.HasDeleted publicId ∨ other = publicId ∧ found = true := by
  obtain ⟨-, hrows, hfound⟩ := delete_rows h
  obtain ⟨⟨i', hi', hid'⟩, hdead⟩ := hasDeleted_iff.1 hdeleted
  rw [hrows] at hi'
  obtain ⟨i, hi, rfl⟩ := List.mem_map.1 hi'
  have hid : i.publicId = publicId := by
    rw [← hid']
    split <;> rfl
  -- either all rows of the public id were deleted before, or the deletion has found one
  by_cases hlive : ∀ j ∈ r.rows, j.publicId = publicId → j.isLive = false
  · exact Or.inl (hasDeleted_iff.2 ⟨⟨i, hi, hid⟩, hlive⟩)
  · right
    push Not at hlive
    obtain ⟨j, hj, hjd, hjlive⟩ := hlive
    have hdel : isDeletable other authzId j = true := by
      by_contra hkept
      have hsame : j ∈ r'.rows := by
        rw [hrows]
        exact List.mem_map.2 ⟨j, hj, if_neg hkept⟩
      exact hjlive (hdead j hsame hjd)
    have hother : j.publicId = other := by
      rw [isDeletable, Bool.and_eq_true, Bool.and_eq_true] at hdel
      exact eq_of_beq hdel.1.1
    exact ⟨hother.symm.trans hjd, hfound.trans (List.any_eq_true.2 ⟨j, hj, hdel⟩)⟩

end Registry
end IndexVault
