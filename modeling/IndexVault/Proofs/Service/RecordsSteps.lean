import IndexVault.Proofs.Service.WriteAuthority

namespace IndexVault

open IndexVault.Action

/-- The rows of indexes, the tenancy with its tokens, and whether requests are logged. -/
structure Records where
  registry : Registry
  tenancy : Option Tenancy
  isLogged : Bool

def Service.records (s : Service) : Records := ⟨s.registry, s.tenancy, s.log.isSome⟩

/-- What a request makes of the records of a service. -/
inductive RecordsStep (s : Service) (w : Surroundings) (r : Http.Request) : Records → Prop
  | kept : RecordsStep s w r s.records
  | identified : RecordsStep s w r (s.identified w r).records
  | created {caller : Caller} {request : CreateRequest} {project : String} {registry : Registry}
      {index : Index} (hmethod : r.method = "POST")
      (hroute : Http.Route.ofPath? s.log.isSome r.path = some .indexes)
      (h : s.Creates w r caller request project registry index) :
    RecordsStep s w r { (s.identified w r).records with registry := registry }
  | deleted {id : Bytes} {caller : Caller} {publicId : String} {registry : Registry} {done : Bool}
      (hmethod : r.method = "DELETE")
      (hroute : Http.Route.ofPath? s.log.isSome r.path = some (.index id))
      (h : s.Deletes w r id caller publicId registry done) :
    RecordsStep s w r { (s.identified w r).records with registry := registry }

theorem LogAccess.ChangesLog.records {s s' : Service} (h : LogAccess.ChangesLog s s') :
    s'.records = s.records := by
  obtain ⟨log, hlog, rfl⟩ := h
  rw [Service.records, Service.records, ← hlog]

namespace Http.Callback

theorem records_recorded (w : Surroundings) (kind : TableKind) (uids : UidSet)
    (found : EncryptedTable) (s : Service) :
    (recorded w kind uids found s).records = s.records := by
  unfold recorded
  split
  · rfl
  · rename_i log hlog
    exact (LogAccess.changesLog_of_some hlog _).records

theorem records_perform (w : Surroundings) (c : Callback) (publicId : String) (body : Bytes)
    (s : Service) : ((c.perform w publicId body).run s).2.records = s.records := by
  have hfetch (kind : TableKind) : ((fetch w kind publicId body).run s).2.records = s.records := by
    -- only a fetch that is answered writes, and it writes to the log
    rw [run_fetch]
    split
    · rfl
    · split
      · rfl
      · exact records_recorded w kind _ _ (s.looked publicId)
  cases c with
  | fetchEntries => exact hfetch .entries
  | fetchChains => exact hfetch .chains
  | upsertEntries =>
    rw [perform, run_upsert]
    split
    · rfl
    · split <;> rfl
  | insertChains =>
    rw [perform, run_insert]
    split
    · rfl
    · split <;> rfl

/-- No callback changes the rows of indexes or the tokens that were accepted. -/
theorem records_answer (w : Surroundings) (r : Request) (c : Callback) (id : Bytes) (s : Service) :
    ((c.answer w r id).run s).2.records = s.records := by
  rcases c.run_answer_cases w r id s with hsame | ⟨publicId, -, -, hrun⟩
  · rw [hsame]
  · rw [hrun]
    exact c.records_perform w publicId r.body s

end Http.Callback

namespace Service

/-- Only the requests of owners change the records, and a `HEAD` request never creates or deletes. -/
theorem recordsStep_action? {s : Service} {w : Surroundings} {r : Http.Request} {method : String}
    {route : Http.Route} {a : Action Http.Response} (h : action? w r method route = some a)
    (hmethod : method = "GET" ∨ method = r.method)
    (hroute : Http.Route.ofPath? s.log.isSome r.path = some route) :
    RecordsStep s w r (a.run s).2.records := by
  -- one case for each route; only creations and deletions reach the registry
  unfold action? at h
  split at h <;> cases h
  case h_1 => exact .kept
  case h_2 =>
    rw [Management.run_list_snd]
    exact .identified
  case h_3 =>
    have hpost : r.method = "POST" := (hmethod.resolve_left (by decide)).symm
    rcases Management.run_create_cases w r s with
      ⟨e, hrun⟩ | ⟨caller, request, project, registry, index, hcreates, hrun⟩
    · rw [hrun]
      exact .identified
    · rw [hrun]
      exact .created hpost hroute hcreates
  case h_4 =>
    rw [Management.run_show?_snd]
    exact .identified
  case h_5 id =>
    have hdelete : r.method = "DELETE" := (hmethod.resolve_left (by decide)).symm
    rcases Management.run_delete_cases w r id s with
      ⟨e, hrun⟩ | ⟨caller, publicId, registry, done, hdeletes, hrun⟩
    · rw [hrun]
      exact .identified
    · rw [hrun]
      exact .deleted hdelete hroute hdeletes
  -- callbacks and the routes of the log leave the records as they are
  case h_6 c id =>
    rw [c.records_answer]
    exact .kept
  case h_7 time =>
    rcases run_parameter_bind_cases time (LogAccess.setTimeDiff w) s with
      ⟨-, hrun⟩ | ⟨text, -, hrun⟩
    · rw [hrun]
      exact .kept
    · rw [hrun, (LogAccess.run_setTimeDiff_snd w text s).records]
      exact .kept
  case h_8 =>
    rw [LogAccess.inert_read]
    exact .kept
  case h_9 =>
    rw [(LogAccess.run_reset_snd s).records]
    exact .kept
  case h_10 kind id =>
    rcases run_parameter_bind_cases id (LogAccess.exportTable kind) s with
      ⟨-, hrun⟩ | ⟨publicId, -, hrun⟩
    · rw [hrun]
      exact .kept
    · rw [hrun, LogAccess.run_exportTable_snd]
      exact .kept

/-- A request leaves the records alone, or resolves its caller, or it creates or deletes an index for the
caller it has resolved. -/
theorem recordsStep_respond (s : Service) (w : Surroundings) (r : Http.Request) :
    RecordsStep s w r (s.respond w r).1.records := by
  unfold respond
  split
  · exact .kept
  · unfold route
    cases hroute : Http.Route.ofPath? s.log.isSome r.path with
    | none => exact .kept
    | some route =>
      cases haction : action? w r (if r.method = "HEAD" then "GET" else r.method) route with
      | none =>
        simp only [haction]
        exact .kept
      | some a =>
        simp only [haction]
        rw [carryOut_fst]
        -- A `HEAD` request takes the way of a `GET` request, any other one its own.
        refine recordsStep_action? haction ?_ hroute
        split
        · exact Or.inl rfl
        · exact Or.inr rfl

end Service

namespace RecordsStep

variable {s : Service} {w : Surroundings} {r : Http.Request} {x : Records}

/-- Requests are logged from the start on, or never. -/
theorem isLogged (h : RecordsStep s w r x) : x.isLogged = s.log.isSome := by
  cases h <;> rfl

/-- The tokens that are kept change by resolving a caller only. -/
theorem tenancy (h : RecordsStep s w r x) :
    x.tenancy = s.tenancy ∨ x.tenancy = Management.tenancyAfter s.tenancy w r := by
  cases h with
  | kept => exact Or.inl rfl
  | identified => exact Or.inr rfl
  | created => exact Or.inr rfl
  | deleted => exact Or.inr rfl

/-- No request takes a row away. -/
theorem evolves (h : RecordsStep s w r x) : s.registry.Evolves x.registry := by
  cases h with
  | kept => exact .refl _
  | identified => exact .refl _
  | created _ _ hcreates => exact Registry.evolves_of_create hcreates.placed
  | deleted _ _ hdeletes => exact Registry.evolves_of_delete hdeletes.marked

/-- A row stays as it is, unless its owner deletes it. -/
theorem row_cases (h : RecordsStep s w r x) {n : Nat} {i : Index}
    (hi : s.registry.rows[n]? = some i) :
    x.registry.rows[n]? = some i ∨
      ∃ id caller, r.method = "DELETE" ∧
        Http.Route.ofPath? s.log.isSome r.path = some (.index id) ∧
        Http.Route.parameter? id = some i.publicId ∧
        Management.callerOf s.tenancy w r = .ok caller ∧ i.authzId = caller.authzId ∧
        i.isLive = true ∧ x.registry.rows[n]? = some { i with deletedAt := some w.moment } := by
  cases h with
  | kept => exact Or.inl hi
  | identified => exact Or.inl hi
  | created _ _ hcreates =>
    obtain ⟨-, hrows, -⟩ := Registry.create_rows hcreates.placed
    left
    dsimp only
    -- a creation appends its row, so earlier places stay
    rw [hrows, List.getElem?_append_left (List.getElem?_eq_some_iff.1 hi).1]
    exact hi
  | deleted hmethod hroute hdeletes =>
    obtain ⟨-, hrows, -⟩ := Registry.delete_rows hdeletes.marked
    dsimp only
    rw [hrows, List.getElem?_map, hi, Option.map_some]
    split
    · rename_i hdeletable
      rw [Registry.isDeletable, Bool.and_eq_true, Bool.and_eq_true] at hdeletable
      obtain ⟨⟨hid, howner⟩, hlive⟩ := hdeletable
      rw [← eq_of_beq hid] at hdeletes
      exact Or.inr ⟨_, _, hmethod, hroute, hdeletes.named, hdeletes.identified, eq_of_beq howner,
        hlive, rfl⟩
    · exact Or.inl rfl

/-- A row was there before, or the request made it for its caller and a project resolved for it. -/
theorem origin_cases (h : RecordsStep s w r x) {i : Index} (hi : i ∈ x.registry.rows) :
    (∃ j ∈ s.registry.rows, j.undeleted = i.undeleted) ∨
      ∃ caller requested, r.method = "POST" ∧
        Http.Route.ofPath? s.log.isSome r.path = some .indexes ∧
        Management.callerOf s.tenancy w r = .ok caller ∧ i.authzId = caller.authzId ∧
        Tenancy.resolveProject s.tenancy w.projects caller requested = .ok i.projectUuid := by
  cases h with
  | kept => exact Or.inl ⟨i, hi, rfl⟩
  | identified => exact Or.inl ⟨i, hi, rfl⟩
  | @created caller request project registry index hmethod hroute hcreates =>
    obtain ⟨-, hrows, publicId, -, -, rfl⟩ := Registry.create_rows hcreates.placed
    dsimp only at hi
    rw [hrows] at hi
    -- the row appended is that of the caller, and all others were there
    rcases List.mem_append.1 hi with hold | hnew
    · exact Or.inl ⟨i, hold, rfl⟩
    · cases List.mem_singleton.1 hnew
      exact Or.inr ⟨caller, request.projectUuid, hmethod, hroute, hcreates.identified, rfl,
        hcreates.resolved⟩
  | deleted _ _ hdeletes =>
    obtain ⟨-, hrows, -⟩ := Registry.delete_rows hdeletes.marked
    dsimp only at hi
    rw [hrows] at hi
    obtain ⟨j, hj, rfl⟩ := List.mem_map.1 hi
    refine Or.inl ⟨j, hj, ?_⟩
    split <;> rfl

/-- Only a creation and a deletion change the rows. -/
theorem registry_of_method (h : RecordsStep s w r x) (hpost : r.method ≠ "POST")
    (hdelete : r.method ≠ "DELETE") : x.registry = s.registry := by
  cases h with
  | kept => rfl
  | identified => rfl
  | created hmethod => exact absurd hmethod hpost
  | deleted hmethod => exact absurd hmethod hdelete

/-- The rows stay as they are if no caller is resolved. -/
theorem registry_of_unidentified (h : RecordsStep s w r x) {e : Failure}
    (hcaller : Management.callerOf s.tenancy w r = .error e) : x.registry = s.registry := by
  cases h with
  | kept => rfl
  | identified => rfl
  | created _ _ hcreates => cases hcaller.symm.trans hcreates.identified
  | deleted _ _ hdeletes => cases hcaller.symm.trans hdeletes.identified

end RecordsStep
end IndexVault
