import IndexVault.Proofs.Metadata.RegistryRuns
import IndexVault.Proofs.Calendar.StoredOrder

namespace IndexVault

/-- Whether an index was made before another: at an earlier moment, or at the same one under a lower
number. -/
def Index.OlderThan (i j : Index) : Prop :=
  i.createdAt.Earlier j.createdAt ∨ i.createdAt = j.createdAt ∧ i.id < j.id

namespace Registry

/-- What a listing of a project should be. -/
structure ListsNewestFirst (r : Registry) (project : String) (indexes : List Index) : Prop where
  complete : ∀ i, i ∈ indexes ↔ i ∈ r.rows ∧ i.projectUuid = project ∧ i.deletedAt = none
  once : (indexes.map Index.id).Nodup
  sorted : indexes.Pairwise fun newer older => older.OlderThan newer

/-- Rows are listed by their stored times, later ones first, and within one time by their numbers. -/
theorem listsBefore_iff {i j : Index} :
    listsBefore i j = true ↔ compare i.createdAt.stored j.createdAt.stored = .gt ∨
      compare i.createdAt.stored j.createdAt.stored = .eq ∧ j.id ≤ i.id := by
  rw [listsBefore]
  rcases compare i.createdAt.stored j.createdAt.stored with _ | _ | _ <;> simp

theorem listsBefore_total (i j : Index) : (listsBefore i j || listsBefore j i) = true := by
  rw [Bool.or_eq_true, listsBefore_iff, listsBefore_iff]
  rcases h : compare i.createdAt.stored j.createdAt.stored with _ | _ | _
  · exact .inr (.inl (Std.OrientedCmp.gt_of_lt h))
  · have hback := Std.OrientedCmp.eq_symm h
    rcases Int.le_total j.id i.id with hid | hid
    · exact .inl (.inr ⟨rfl, hid⟩)
    · exact .inr (.inr ⟨hback, hid⟩)
  · exact .inl (.inl rfl)

/-- The order of listings is one by which rows can be sorted. -/
theorem listsBefore_trans (i j k : Index) (hij : listsBefore i j = true)
    (hjk : listsBefore j k = true) : listsBefore i k = true := by
  rw [listsBefore_iff] at hij hjk ⊢
  rcases hij with hij | ⟨hij, hid⟩ <;> rcases hjk with hjk | ⟨hjk, hid'⟩
  · exact .inl (Std.TransCmp.gt_trans hij hjk)
  · exact .inl (Std.TransCmp.gt_of_gt_of_eq hij hjk)
  · exact .inl (Std.TransCmp.gt_of_eq_of_gt hij hjk)
  · exact .inr ⟨Std.TransCmp.eq_trans hij hjk, Int.le_trans hid' hid⟩

/-- In the years 0000 to 9999 the order of the statement is the order in which indexes were made. -/
theorem olderThan_of_listsBefore {i j : Index} (hi : i.createdAt.IsPlain)
    (hj : j.createdAt.IsPlain) (hne : i.id ≠ j.id) (h : listsBefore i j = true) : j.OlderThan i := by
  rw [listsBefore_iff, Moment.compare_stored hi hj] at h
  rcases h with hgt | ⟨heq, hid⟩
  · exact .inl (Moment.earlier_iff.2 (Std.OrientedCmp.lt_of_gt hgt))
  · have hsame : i.createdAt.parts = j.createdAt.parts := Std.LawfulEqCmp.eq_of_compare heq
    exact .inr ⟨Moment.parts_injective hsame.symm, Int.lt_iff_le_and_ne.2 ⟨hid, hne.symm⟩⟩

/-- A listing is sorted by stored texts, and these are in the order of the moments, so the newest index
comes first. -/
theorem list_newest_first {r : Registry} (hready : r.ready = .ok ()) (hnumbered : r.Numbered)
    (hyears : ∀ i ∈ r.rows, i.createdAt.IsPlain) (project : String) :
    ∃ indexes, r.list project = .ok indexes ∧ r.ListsNewestFirst project indexes := by
  refine ⟨_, list_of_ready hready project, ?_⟩
  set shown := r.rows.filter fun i => i.projectUuid == project && i.isLive with hshown
  have hperm : (shown.mergeSort listsBefore).Perm shown := List.mergeSort_perm shown listsBefore
  have hrow : ∀ i ∈ shown.mergeSort listsBefore, i ∈ r.rows := fun i hi =>
    List.mem_of_mem_filter (hperm.mem_iff.1 hi)
  have hids : (shown.map Index.id).Nodup := by
    have hall : (r.rows.map Index.id).Nodup := hnumbered.pairwise_lt.imp Int.ne_of_lt
    exact hall.sublist (List.filter_sublist.map Index.id)
  have honce : ((shown.mergeSort listsBefore).map Index.id).Nodup :=
    (hperm.map Index.id).nodup_iff.2 hids
  constructor
  case complete =>
    intro i
    rw [hperm.mem_iff, hshown, List.mem_filter, Bool.and_eq_true, beq_iff_eq, Index.isLive,
      Option.isNone_iff_eq_none]
  case once => exact honce
  case sorted =>
    -- Rows of one number do not meet here, so that the order of the statement is strict.
    have hdistinct : (shown.mergeSort listsBefore).Pairwise fun i j => i.id ≠ j.id :=
      List.pairwise_map.1 honce
    have hsorted := List.pairwise_mergeSort listsBefore_trans listsBefore_total shown
    apply (hsorted.and hdistinct).imp_of_mem
    intro i j hi hj h
    exact olderThan_of_listsBefore (hyears i (hrow i hi)) (hyears j (hrow j hj)) h.2 h.1

end Registry

/-- Whatever was created and deleted at moments of the years 0000 to 9999: a listing of a project answers
with exactly the live indexes of that project, each of them once, those of later moments first, and those
of one moment by decreasing number. -/
theorem listing_newest_first (calls : List RegistryCall) (project : String)
    (hyears : ∀ i ∈ (RegistryRun.ofCalls calls).registry.rows, i.createdAt.IsPlain) :
    ∃ indexes, (RegistryRun.ofCalls calls).registry.list project = .ok indexes ∧
      (RegistryRun.ofCalls calls).registry.ListsNewestFirst project indexes := by
  have h : (RegistryRun.ofCalls calls).Accounts := RegistryRun.accounts_ofCalls calls
  exact Registry.list_newest_first h.ready h.numbered hyears project

/-- A moment of the last second of 1999. -/
def lateIn1999 (fraction : String) : Moment :=
  (Moment.ofIsoText? ("1999-12-31T23:59:59" ++ fraction)).getD .epoch

/-- Creations with fractions of different lengths, two of them at one moment, and a deletion. -/
def callsWithinOneSecond : List RegistryCall :=
  [.create ⟨"aaaaa", "owner", "docs", "a", ⟨[], [], [], []⟩, lateIn1999 ".5"⟩ "eeeee" "fffff",
    .create ⟨"bbbbb", "owner", "docs", "b", ⟨[], [], [], []⟩, lateIn1999 ".500000001"⟩ "eeeee" "fffff",
    .create ⟨"ccccc", "owner", "docs", "c", ⟨[], [], [], []⟩, lateIn1999 ""⟩ "eeeee" "fffff",
    .create ⟨"ddddd", "owner", "docs", "d", ⟨[], [], [], []⟩, lateIn1999 ".5"⟩ "eeeee" "fffff",
    .create ⟨"aaaaa", "owner", "docs", "e", ⟨[], [], [], []⟩, lateIn1999 ".500001"⟩ "eeeee" "fffff",
    .delete "bbbbb" "owner" (lateIn1999 ".999999999")]

theorem listing_newest_first_withinOneSecond :
    (∀ i ∈ (RegistryRun.ofCalls callsWithinOneSecond).registry.rows, i.createdAt.IsPlain) ∧
      ∃ indexes, (RegistryRun.ofCalls callsWithinOneSecond).registry.list "docs" = .ok indexes ∧
        (RegistryRun.ofCalls callsWithinOneSecond).registry.ListsNewestFirst "docs" indexes := by
  have hyears : ∀ i ∈ (RegistryRun.ofCalls callsWithinOneSecond).registry.rows,
      i.createdAt.IsPlain := by
    decide +kernel
  exact ⟨hyears, listing_newest_first callsWithinOneSecond "docs" hyears⟩

end IndexVault
