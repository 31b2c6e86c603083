import IndexVault.Proofs.Metadata.CacheCoherence
import IndexVault.Proofs.Service.LogRuns
import IndexVault.Proofs.Service.ManagementRuns
import IndexVault.Proofs.Storage.BatchEffects
import IndexVault.Service.Router

namespace IndexVault

namespace Service

/-- The cache answers as the registry would. -/
def Coherent (s : Service) : Prop := s.cache.Coherent s.registry

/-- What no request changes: whether the registry answers, the limit on bodies, how rows are
numbered, that the cache is coherent, and that the storage is sound. -/
structure Continues (s s' : Service) : Prop where
  ready : s'.registry.ready = s.registry.ready
  bodyLimit : s'.bodyLimit = s.bodyLimit
  numbered : s.registry.Numbered → s'.registry.Numbered
  coherent : s.Coherent → s'.Coherent
  sound : s.storage.Sound → s'.storage.Sound

/-- The storage is as it was. -/
structure LeavesStorage (s s' : Service) : Prop extends Continues s s' where
  storage : s'.storage = s.storage

theorem Continues.trans {s s' s'' : Service} (h : Continues s s') (h' : Continues s' s'') :
    Continues s s'' where
  ready := h'.ready.trans h.ready
  bodyLimit := h'.bodyLimit.trans h.bodyLimit
  numbered hs := h'.numbered (h.numbered hs)
  coherent hs := h'.coherent (h.coherent hs)
  sound hs := h'.sound (h.sound hs)

theorem LeavesStorage.refl (s : Service) : LeavesStorage s s := ⟨⟨rfl, rfl, id, id, id⟩, rfl⟩

/-- What leaves the storage alone twice leaves it alone. -/
theorem LeavesStorage.trans {s s' s'' : Service} (h : LeavesStorage s s')
    (h' : LeavesStorage s' s'') : LeavesStorage s s'' :=
  ⟨h.toContinues.trans h'.toContinues, h'.storage.trans h.storage⟩

theorem leavesStorage_tenancy (s : Service) (tenancy : Option Tenancy) :
    LeavesStorage s { s with tenancy := tenancy } := ⟨⟨rfl, rfl, id, id, id⟩, rfl⟩

theorem leavesStorage_log (s : Service) (log : Option RequestLog) :
    LeavesStorage s { s with log := log } := ⟨⟨rfl, rfl, id, id, id⟩, rfl⟩

/-- A lookup changes the cache only. -/
theorem leavesStorage_looked (s : Service) (publicId : String) :
    LeavesStorage s (s.looked publicId) :=
  ⟨⟨rfl, rfl, id, fun h => IndexCache.Coherent.lookup h publicId, id⟩, rfl⟩

end Service

open Service (LeavesStorage)

namespace Action

variable {α : Type}

/-- An action that leaves the storage alone, whether it succeeds or fails. -/
def Quiet (a : Action α) : Prop := ∀ s, LeavesStorage s (a.run s).2

/-- An action that changes nothing writes no lines. -/
theorem Inert.quiet {a : Action α} (h : Inert a) : Quiet a := by
  intro s
  rw [h s]
  exact LeavesStorage.refl s

theorem quiet_parameter_bind {id : Bytes} {f : String → Action α} (h : ∀ x, Quiet (f x)) :
    Quiet (parameter id >>= f) := by
  intro s
  rcases run_parameter_bind_cases id f s with ⟨-, hrun⟩ | ⟨publicId, -, hrun⟩
  · rw [hrun]
    exact LeavesStorage.refl s
  · rw [hrun]
    exact h publicId s

end Action

open IndexVault.Action

namespace Management

/-- The requests of owners read, or change the registry, the cache or the tokens that are kept; none of them
writes lines. -/
theorem quiet_list (w : Surroundings) (r : Http.Request) : Quiet (list w r) := by
  intro s
  rw [run_list_snd]
  exact s.leavesStorage_tenancy _

theorem quiet_show? (w : Surroundings) (r : Http.Request) (id : Bytes) :
    Quiet (show? w r id) := by
  intro s
  rw [run_show?_snd]
  exact s.leavesStorage_tenancy _

theorem quiet_create (w : Surroundings) (r : Http.Request) : Quiet (create w r) := by
  intro s
  rcases run_create_cases w r s with
    ⟨e, hrun⟩ | ⟨caller, request, project, registry, index, hcreates, hrun⟩
  · rw [hrun]
    exact s.leavesStorage_tenancy _
  · rw [hrun]
    -- Creating an index hides no row, so what was cached is still what the registry finds.
    obtain ⟨hready, hnumbered, hlive⟩ := Registry.create_eq_ok hcreates.placed
    exact ⟨⟨hready, rfl, hnumbered, fun hc => hc.of_findLive hlive, fun h => h⟩, rfl⟩

theorem quiet_delete (w : Surroundings) (r : Http.Request) (id : Bytes) :
    Quiet (delete w r id) := by
  intro s
  rcases run_delete_cases w r id s with
    ⟨e, hrun⟩ | ⟨caller, publicId, registry, done, hdeletes, hrun⟩
  · rw [hrun]
    exact s.leavesStorage_tenancy _
  · rw [hrun]
    -- The cache is coherent again only after the eviction, so the two changes are taken together.
    obtain ⟨hready, hnumbered, hlive⟩ := Registry.delete_eq_ok hdeletes.marked
    exact ⟨⟨hready, rfl, hnumbered, fun hc => hc.evict hlive, fun h => h⟩, rfl⟩

end Management

namespace LogAccess

/-- A change of the log is none of the storage. -/
theorem ChangesLog.leavesStorage {s s' : Service} (h : ChangesLog s s') : LeavesStorage s s' := by
  obtain ⟨log, -, rfl⟩ := h
  exact s.leavesStorage_log log

theorem quiet_setTimeDiff (w : Surroundings) (time : String) : Quiet (setTimeDiff w time) :=
  fun s => (run_setTimeDiff_snd w time s).leavesStorage

theorem quiet_reset : Quiet reset := fun s => (run_reset_snd s).leavesStorage

theorem quiet_exportTable (kind : TableKind) (publicId : String) :
    Quiet (exportTable kind publicId) := by
  intro s
  rw [run_exportTable_snd]
  exact s.leavesStorage_looked publicId

end LogAccess
end IndexVault
