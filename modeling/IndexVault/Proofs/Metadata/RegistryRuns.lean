import IndexVault.Proofs.Metadata.RowHistory
import Mathlib.Data.List.Induction

/-! Runs of creations and deletions on the registry. What one call does is said once (`Registry.Takes`);
from it the rows and the log of a run account for each other: the rows are the indexes that were created,
in their order, and a row is deleted exactly if one call has named it and its owner
(`registry_accounted_for`). -/
namespace IndexVault

/-- A call to the registry. A creation brings the public ids to fall back on, a deletion the present
time. -/
inductive RegistryCall where
  | create (new : NewIndex) (second third : String)
  | delete (publicId authzId : String) (now : Moment)

inductive RegistryAnswer where
  | created (index : Index)
  | deleted (done : Bool)
  | failed (e : Failure)

/-- What a new index was asked to be, under the public id that it got. -/
def Index.requested (i : Index) : NewIndex :=
  ⟨i.publicId, i.authzId, i.projectUuid, i.name, i.seeds, i.createdAt⟩

/-- By whom and when an index was deleted. -/
def Index.deletion? (i : Index) : Option (String × Moment) :=
  i.deletedAt.map fun now => (i.authzId, now)

namespace Registry

def publicIds (r : Registry) : List String := r.rows.map Index.publicId

/-- A public id is taken if some row has it. -/
theorem mem_publicIds {r : Registry} {publicId : String} :
    publicId ∈ r.publicIds ↔ r.isTaken publicId = true := by
  rw [publicIds, List.mem_map, isTaken_iff]

/-- The registry after a call, and the answer. A call that fails leaves the registry as it was. -/
def perform (r : Registry) : RegistryCall → Registry × RegistryAnswer
  | .create new second third =>
    match r.create new [second, third] with
    | .ok (r', index) => (r', .created index)
    | .error e => (r, .failed e)
  | .delete publicId authzId now =>
    match r.delete publicId authzId now with
    | .ok (r', done) => (r', .deleted done)
    | .error e => (r, .failed e)

/-- All that a call can do to a registry that is ready. -/
inductive Takes (r : Registry) : RegistryCall → Registry × RegistryAnswer → Prop
  /-- An index gets the first of its three public ids that no row has, and a row behind all others. -/
  | created {new : NewIndex} {second third publicId : String} {taken others : List String}
      {index : Index} (hids : [new.publicId, second, third] = taken ++ publicId :: others)
      (htaken : ∀ id ∈ taken, id ∈ r.publicIds) (hfree : publicId ∉ r.publicIds)
      (hrequested : index.requested = { new with publicId := publicId })
      (hnumber : index.id = r.rows.length + 1) (hlive : index.deletedAt = none) :
      Takes r (.create new second third) ({ r with rows := r.rows ++ [index] }, .created index)
  | refused {new : NewIndex} {second third : String}
      (htaken : ∀ id ∈ [new.publicId, second, third], id ∈ r.publicIds) :
      Takes r (.create new second third)
        (r, .failed (.database (.duplicateKey "indexes.public_id")))
  /-- The live row of the public id and the owner gets its time of deletion. -/
  | deleted {index : Index} {now : Moment} {before behind : List Index}
      (hrows : r.rows = before ++ index :: behind) (hlive : index.deletedAt = none) :
      Takes r (.delete index.publicId index.authzId now)
        ({ r with rows := before ++ { index with deletedAt := some now } :: behind }, .deleted true)
  | missed {publicId authzId : String} {now : Moment}
      (hmissing : ∀ i ∈ r.rows, i.publicId = publicId → i.authzId = authzId → i.deletedAt ≠ none) :
      Takes r (.delete publicId authzId now) (r, .deleted false)

/-- A creation takes the first of its public ids that is free, or fails. -/
theorem takes_create {r : Registry} (hready : r.ready = .ok ()) (new : NewIndex)
    (second third : String) :
    r.Takes (.create new second third) (r.perform (.create new second third)) := by
  rw [perform, create, hready]
  dsimp only [bind, Except.bind]
  cases hfound : [new.publicId, second, third].find? fun id => !r.isTaken id with
  | none =>
    refine Takes.refused fun id hid => mem_publicIds.2 ?_
    have htaken := List.find?_eq_none.1 hfound id hid
    rwa [Bool.not_eq_true, Bool.not_eq_false'] at htaken
  | some publicId =>
    obtain ⟨hfree, taken, others, hids, htaken⟩ := List.find?_eq_some_iff_append.1 hfound
    refine Takes.created hids (fun id hid => mem_publicIds.2 ?_) (fun hmem => ?_) rfl rfl rfl
    · have hid := htaken id hid
      rwa [Bool.not_not] at hid
    · rw [mem_publicIds.1 hmem] at hfree
      cases hfree

/-- Where public ids are distinct, no row beside an index has its public id. -/
theorem DistinctIds.publicId_ne {r : Registry} (h : r.DistinctIds) {before behind : List Index}
    {index : Index} (hrows : r.rows = before ++ index :: behind) {i : Index}
    (hi : i ∈ before ++ behind) : i.publicId ≠ index.publicId := by
  intro hid
  rw [DistinctIds, hrows, List.map_append, List.map_cons, List.nodup_middle,
    ← List.map_append] at h
  exact (List.nodup_cons.1 h).1 (List.mem_map.2 ⟨i, hi, hid⟩)

theorem isDeletable_iff {publicId authzId : String} {i : Index} :
    isDeletable publicId authzId i = true ↔
      i.publicId = publicId ∧ i.authzId = authzId ∧ i.deletedAt = none := by
  rw [isDeletable, Bool.and_eq_true, Bool.and_eq_true, beq_iff_eq, beq_iff_eq, and_assoc,
    Index.isLive, Option.isNone_iff_eq_none]

/-- A deletion marks the one live row of its public id and its owner, if there is one. -/
theorem takes_delete {r : Registry} (hready : r.ready = .ok ()) (hdistinct : r.DistinctIds)
    (publicId authzId : String) (now : Moment) :
    r.Takes (.delete publicId authzId now) (r.perform (.delete publicId authzId now)) := by
  rw [perform, delete, hready]
  dsimp only [bind, Except.bind, pure, Except.pure]
  -- A row that the deletion does not concern stays as it is.
  have hkept : ∀ rows : List Index, (∀ i ∈ rows, isDeletable publicId authzId i = false) →
      (rows.map fun i =>
        if isDeletable publicId authzId i then { i with deletedAt := some now } else i) = rows := by
    intro rows hrows
    conv_rhs => rw [← List.map_id rows]
    refine List.map_congr_left fun i hi => ?_
    rw [hrows i hi]
    rfl
  cases hany : r.rows.any (isDeletable publicId authzId) with
  | false =>
    rw [List.any_eq_false] at hany
    rw [hkept r.rows fun i hi => Bool.eq_false_iff.2 (hany i hi)]
    exact Takes.missed fun i hi hid hauthz hlive => hany i hi (isDeletable_iff.2 ⟨hid, hauthz, hlive⟩)
  | true =>
    obtain ⟨index, hmem, hdel⟩ := List.any_eq_true.1 hany
    obtain ⟨hid, hauthz, hlive⟩ := isDeletable_iff.1 hdel
    obtain ⟨before, behind, hrows⟩ := List.append_of_mem hmem
    have hothers : ∀ i ∈ before ++ behind, isDeletable publicId authzId i = false := fun i hi =>
      Bool.eq_false_iff.2 fun hdel' =>
        hdistinct.publicId_ne hrows hi ((isDeletable_iff.1 hdel').1.trans hid.symm)
    have hafter : (r.rows.map fun i =>
        if isDeletable publicId authzId i then { i with deletedAt := some now } else i) =
          before ++ { index with deletedAt := some now } :: behind := by
      rw [hrows, List.map_append, List.map_cons,
        hkept before fun i hi => hothers i (List.mem_append_left _ hi),
        hkept behind fun i hi => hothers i (List.mem_append_right _ hi), if_pos hdel]
    rw [hafter, ← hid, ← hauthz]
    exact Takes.deleted hrows hlive

/-- One call does to the registry what `Registry.Takes` says, and nothing else. -/
theorem takes_perform {r : Registry} (hready : r.ready = .ok ()) (hdistinct : r.DistinctIds)
    (call : RegistryCall) : r.Takes call (r.perform call) := by
  cases call with
  | create new second third => exact takes_create hready new second third
  | delete publicId authzId now => exact takes_delete hready hdistinct publicId authzId now

/-- A creation fails only for want of a public id. -/
theorem Takes.failed_iff {r : Registry} {new : NewIndex} {second third : String}
    {done : Registry × RegistryAnswer} (h : r.Takes (.create new second third) done) {e : Failure} :
    done.2 = .failed e ↔
      e = .database (.duplicateKey "indexes.public_id") ∧
        ∀ id ∈ [new.publicId, second, third], id ∈ r.publicIds := by
  cases h with
  | created hids htaken hfree hrequested hnumber hlive =>
    constructor
    · intro hfailed
      cases hfailed
    · rintro ⟨-, hall⟩
      refine absurd (hall _ ?_) hfree
      rw [hids]
      exact List.mem_append_right _ List.mem_cons_self
  | refused htaken =>
    constructor
    · intro hfailed
      cases hfailed
      exact ⟨rfl, htaken⟩
    · rintro ⟨rfl, -⟩
      rfl

/-- No call takes a row away. -/
theorem evolves_perform (r : Registry) (call : RegistryCall) : r.Evolves (r.perform call).1 := by
  cases call with
  | create new second third =>
    cases h : r.create new [second, third] with
    | ok done =>
      rw [perform, h]
      exact evolves_of_create h
    | error e =>
      rw [perform, h]
      exact Evolves.refl r
  | delete publicId authzId now =>
    cases h : r.delete publicId authzId now with
    | ok done =>
      rw [perform, h]
      exact evolves_of_delete h
    | error e =>
      rw [perform, h]
      exact Evolves.refl r

theorem Numbered.perform {r : Registry} (hr : r.Numbered) (call : RegistryCall) :
    (r.perform call).1.Numbered := by
  cases call with
  | create new second third =>
    cases h : r.create new [second, third] with
    | ok done =>
      rw [Registry.perform, h]
      exact (create_eq_ok h).2.1 hr
    | error e => rwa [Registry.perform, h]
  | delete publicId authzId now =>
    cases h : r.delete publicId authzId now with
    | ok done =>
      rw [Registry.perform, h]
      exact (delete_eq_ok h).2.1 hr
    | error e => rwa [Registry.perform, h]

/-- Numbers grow from row to row. -/
theorem Numbered.pairwise_lt {r : Registry} (hr : r.Numbered) :
    (r.rows.map Index.id).Pairwise (· < ·) := by
  rw [List.pairwise_map, List.pairwise_iff_getElem]
  intro m n hm hn hmn
  rw [hr m _ (List.getElem?_eq_getElem hm), hr n _ (List.getElem?_eq_getElem hn)]
  have hlt : (m : Int) + 1 < n + 1 := by omega
  exact hlt

end Registry

/-- The calls that were made, first one first, with their answers. -/
abbrev RegistryLog := List (RegistryCall × RegistryAnswer)

namespace RegistryLog

/-- The index that a call has created. -/
def created? : RegistryCall × RegistryAnswer → Option Index
  | (_, .created index) => some index
  | _ => none

/-- Who has deleted the index of a public id by a call, and when. -/
def deletion? (publicId : String) : RegistryCall × RegistryAnswer → Option (String × Moment)
  | (.delete named authzId now, .deleted true) =>
    if named = publicId then some (authzId, now) else none
  | _ => none

/-- The indexes that were created, as they were then. -/
def created (log : RegistryLog) : List Index := log.filterMap created?

/-- The deletions of a public id that have found a row. -/
def deletions (log : RegistryLog) (publicId : String) : List (String × Moment) :=
  log.filterMap (deletion? publicId)

theorem created_append_singleton (log : RegistryLog) (entry : RegistryCall × RegistryAnswer) :
    created (log ++ [entry]) = log.created ++ (created? entry).toList := by
  rw [created, List.filterMap_append, List.filterMap_cons]
  cases created? entry <;> rfl

theorem deletions_append_singleton (log : RegistryLog) (entry : RegistryCall × RegistryAnswer)
    (publicId : String) :
    deletions (log ++ [entry]) publicId =
      log.deletions publicId ++ (deletion? publicId entry).toList := by
  rw [deletions, List.filterMap_append, List.filterMap_cons]
  cases deletion? publicId entry <;> rfl

/-- The rows of a registry are what a log tells. -/
structure Tells (log : RegistryLog) (r : Registry) : Prop where
  created : r.rows.map Index.undeleted = log.created
  deleted : ∀ i ∈ r.rows, log.deletions i.publicId = i.deletion?.toList
  unknown : ∀ publicId, publicId ∉ r.publicIds → log.deletions publicId = []

namespace Tells

variable {log : RegistryLog} {r : Registry} (h : Tells log r)

include h

/-- Calls that change nothing tell nothing. -/
theorem idle {entry : RegistryCall × RegistryAnswer} (hcreated : created? entry = none)
    (hdeleted : ∀ publicId, deletion? publicId entry = none) : Tells (log ++ [entry]) r where
  created := by
    rw [created_append_singleton, hcreated, h.created]
    exact (List.append_nil _).symm
  deleted := fun i hi => by
    rw [deletions_append_singleton, hdeleted, h.deleted i hi]
    exact List.append_nil _
  unknown := fun publicId hid => by
    rw [deletions_append_singleton, hdeleted, h.unknown publicId hid]
    rfl

/-- A creation adds the row that it logs. -/
theorem add {call : RegistryCall} {index : Index} (hfree : index.publicId ∉ r.publicIds)
    (hlive : index.deletedAt = none) :
    Tells (log ++ [(call, .created index)]) { r with rows := r.rows ++ [index] } := by
  have hdeletions (publicId : String) :
      deletions (log ++ [(call, .created index)]) publicId = log.deletions publicId := by
    rw [deletions_append_singleton]
    cases call <;> exact List.append_nil _
  refine ⟨?_, fun i hi => ?_, fun publicId hid => ?_⟩
  · have hsame : index.undeleted = index :=
      Index.undeleted_of_isLive (Option.isNone_iff_eq_none.2 hlive)
    rw [created_append_singleton, ← h.created, List.map_append, List.map_singleton, hsame]
    rfl
  · rw [hdeletions]
    rcases List.mem_append.1 hi with hold | hnew
    · exact h.deleted i hold
    · -- Nobody has deleted an index of the new public id yet.
      rw [List.mem_singleton.1 hnew, h.unknown _ hfree, Index.deletion?, hlive]
      rfl
  · rw [hdeletions]
    refine h.unknown publicId fun hold => hid ?_
    rw [Registry.publicIds, List.map_append]
    exact List.mem_append_left _ hold

/-- A deletion marks the row that it logs. -/
theorem mark (hdistinct : r.DistinctIds) {index : Index} {now : Moment} {before behind : List Index}
    (hrows : r.rows = before ++ index :: behind) (hlive : index.deletedAt = none) :
    Tells (log ++ [(.delete index.publicId index.authzId now, .deleted true)])
      { r with rows := before ++ { index with deletedAt := some now } :: behind } := by
  have hmem : index ∈ r.rows := hrows ▸ List.mem_append_right _ List.mem_cons_self
  -- the new line of the log counts for its own public id alone
  have hdeletions : ∀ publicId, publicId ≠ index.publicId →
      deletions (log ++ [(.delete index.publicId index.authzId now, .deleted true)]) publicId =
        log.deletions publicId := by
    intro publicId hne
    rw [deletions_append_singleton, deletion?, if_neg hne.symm]
    exact List.append_nil _
  refine ⟨?_, fun i hi => ?_, fun publicId hid => ?_⟩
  · rw [created_append_singleton, ← h.created, hrows, List.map_append, List.map_append]
    exact (List.append_nil _).symm
  · have hcases : i = { index with deletedAt := some now } ∨ i ∈ before ++ behind := by
      rwa [← List.mem_cons, ← List.perm_middle.mem_iff]
    rcases hcases with rfl | hother
    · rw [deletions_append_singleton, h.deleted index hmem, deletion?, if_pos rfl, Index.deletion?,
        hlive]
      rfl
    · have hold : i ∈ r.rows := by
        rw [hrows, List.perm_middle.mem_iff]
        exact List.mem_cons_of_mem _ hother
      rw [hdeletions _ (hdistinct.publicId_ne hrows hother), h.deleted i hold]
  · have hunknown : publicId ∉ r.publicIds := by
      rw [Registry.publicIds, hrows, List.map_append]
      rwa [Registry.publicIds, List.map_append] at hid
    have hne : publicId ≠ index.publicId := by
      rintro rfl
      exact hunknown (List.mem_map.2 ⟨index, hmem, rfl⟩)
    rw [hdeletions _ hne, h.unknown publicId hunknown]

/-- What a call does to the rows is what its entry in the log tells. -/
theorem takes (hdistinct : r.DistinctIds) {call : RegistryCall} {done : Registry × RegistryAnswer}
    (htakes : r.Takes call done) : Tells (log ++ [(call, done.2)]) done.1 := by
  cases htakes with
  | @created _ _ _ publicId _ _ index hids htaken hfree hrequested hnumber hlive =>
    have hid : index.publicId = publicId := congrArg NewIndex.publicId hrequested
    exact h.add (hid ▸ hfree) hlive
  | refused htaken => exact h.idle rfl fun _ => rfl
  | deleted hrows hlive => exact h.mark hdistinct hrows hlive
  | missed hmissing => exact h.idle rfl fun _ => rfl

end Tells

end RegistryLog

structure RegistryRun where
  registry : Registry
  log : RegistryLog

namespace RegistryRun

def perform (run : RegistryRun) (call : RegistryCall) : RegistryRun where
  registry := (run.registry.perform call).1
  log := run.log ++ [(call, (run.registry.perform call).2)]

/-- The run of some calls on the empty registry. -/
def ofCalls (calls : List RegistryCall) : RegistryRun := calls.foldl perform ⟨{}, []⟩

theorem ofCalls_append_singleton (calls : List RegistryCall) (call : RegistryCall) :
    ofCalls (calls ++ [call]) = (ofCalls calls).perform call :=
  List.foldl_append

/-- The log of a run lists its calls. -/
theorem calls_ofCalls (calls : List RegistryCall) : (ofCalls calls).log.map Prod.fst = calls := by
  induction calls using List.reverseRecOn with
  | nil => rfl
  | append_singleton calls call ih =>
    rw [ofCalls_append_singleton, perform, List.map_append, ih]
    rfl

/-- What holds after every run. -/
structure Accounts (run : RegistryRun) : Prop where
  ready : run.registry.ready = .ok ()
  distinctIds : run.registry.DistinctIds
  numbered : run.registry.Numbered
  told : run.log.Tells run.registry

theorem accounts_nil : Accounts ⟨{}, []⟩ where
  ready := rfl
  distinctIds := List.nodup_nil
  numbered := fun n i hi => by cases hi
  told := ⟨rfl, fun _ hi => absurd hi List.not_mem_nil, fun _ _ => rfl⟩

/-- One more call keeps rows and log in step. -/
theorem Accounts.perform {run : RegistryRun} (h : run.Accounts) (call : RegistryCall) :
    (run.perform call).Accounts where
  ready := (run.registry.evolves_perform call).ready.trans h.ready
  distinctIds := (run.registry.evolves_perform call).distinctIds h.distinctIds
  numbered := h.numbered.perform call
  told := h.told.takes h.distinctIds (Registry.takes_perform h.ready h.distinctIds call)

/-- By induction on the calls, the rows and the log of a run account for each other. -/
theorem accounts_ofCalls (calls : List RegistryCall) : (ofCalls calls).Accounts := by
  induction calls using List.reverseRecOn with
  | nil => exact accounts_nil
  | append_singleton calls call ih =>
    rw [ofCalls_append_singleton]
    exact ih.perform call

end RegistryRun

/-- Whatever was created and deleted: no public id has two rows, and the rows are the indexes that were
created, in their order, under numbers that only grow. A row that is live was named by no deletion that
found a row; one that is deleted was named by exactly one, which gave it its time and was its owner's.
The next call does what it says, and a creation fails exactly if its three public ids are taken. -/
theorem registry_accounted_for (calls : List RegistryCall) :
    let run := RegistryRun.ofCalls calls
    let r := run.registry
    run.log.map Prod.fst = calls ∧
      r.publicIds.Nodup ∧
      r.rows.map Index.undeleted = run.log.created ∧
      (run.log.created.map Index.id).Pairwise (· < ·) ∧
      (∀ i ∈ r.rows, run.log.deletions i.publicId = i.deletion?.toList) ∧
      (∀ publicId, publicId ∉ r.publicIds → run.log.deletions publicId = []) ∧
      (∀ call, r.Takes call (r.perform call)) ∧
      ∀ new second third e,
        (r.perform (.create new second third)).2 = .failed e ↔
          e = .database (.duplicateKey "indexes.public_id") ∧
            ∀ id ∈ [new.publicId, second, third], id ∈ r.publicIds := by
  intro run r
  have h : run.Accounts := RegistryRun.accounts_ofCalls calls
  have htakes (call : RegistryCall) : r.Takes call (r.perform call) :=
    Registry.takes_perform h.ready h.distinctIds call
  refine ⟨RegistryRun.calls_ofCalls calls, h.distinctIds, h.told.created, ?_, h.told.deleted,
    h.told.unknown, htakes, fun new second third e => (htakes _).failed_iff⟩
  have hids : run.log.created.map Index.id = r.rows.map Index.id := by
    rw [← h.told.created, List.map_map]
    rfl
  rw [hids]
  exact h.numbered.pairwise_lt

end IndexVault
