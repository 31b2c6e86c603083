import IndexVault.Proofs.Metadata.LiveIndexes
import IndexVault.Proofs.Service.ActionEffects
import IndexVault.Service.Management

namespace IndexVault

open IndexVault.Action

namespace Management

/-- The caller of a request under a tenancy. -/
def callerOf (tenancy : Option Tenancy) (w : Surroundings) (r : Http.Request) :
    Except Failure Caller :=
  match tenancy with
  | none => .ok Tenancy.soleOwner
  | some tenancy =>
    match Bearer.token (r.header "authorization") with
    | .error e => .error e
    | .ok token => (tenancy.identity.validate w.userInfo token w.uptime).2

/-- The tenancy once the caller of a request was resolved: an accepted token is kept. -/
def tenancyAfter (tenancy : Option Tenancy) (w : Surroundings) (r : Http.Request) :
    Option Tenancy :=
  match tenancy with
  | none => none
  | some tenancy =>
    match Bearer.token (r.header "authorization") with
    | .error _ => some tenancy
    | .ok token => some
        { tenancy with identity := (tenancy.identity.validate w.userInfo token w.uptime).1 }

end Management

/-- The service once the caller of a request was resolved. -/
def Service.identified (s : Service) (w : Surroundings) (r : Http.Request) : Service :=
  { s with tenancy := Management.tenancyAfter s.tenancy w r }

theorem Service.identified_of_single {s : Service} (h : s.tenancy = none) (w : Surroundings)
    (r : Http.Request) : s.identified w r = s := by
  cases s
  cases h
  rfl

namespace Management

/-- Resolving the caller keeps an accepted token and changes nothing else. -/
theorem run_caller (w : Surroundings) (r : Http.Request) (s : Service) :
    (caller w r).run s = ((callerOf s.tenancy w r).mapError .failure, s.identified w r) := by
  change ((match s.tenancy with
    | none => pure Tenancy.soleOwner
    | some tenancy => _ : Action Caller)).run s = _
  cases htenancy : s.tenancy with
  | none =>
    rw [Service.identified_of_single htenancy]
    rfl
  | some tenancy =>
    rw [Service.identified, htenancy, callerOf, tenancyAfter]
    -- without a bearer token the provider is not asked and keeps what it had
    cases htoken : Bearer.token (r.header "authorization") with
    | error e =>
      dsimp only
      rw [Attempt.run_bind_of_error (run_ofResult _ s), ← htenancy]
      rfl
    | ok token =>
      dsimp only
      rw [Attempt.run_bind_of_ok (run_ofResult _ s)]
      exact run_ofResult _ _

/-- Behind the caller the rest runs, or the request is refused for want of one. -/
theorem run_caller_bind_cases {α : Type} (w : Surroundings) (r : Http.Request)
    (f : Caller → Action α) (s : Service) :
    (∃ e, callerOf s.tenancy w r = .error e ∧
        (caller w r >>= f).run s = (.error (.failure e), s.identified w r)) ∨
      ∃ c, callerOf s.tenancy w r = .ok c ∧
        (caller w r >>= f).run s = (f c).run (s.identified w r) := by
  have hrun := run_caller w r s
  cases hc : callerOf s.tenancy w r with
  | error e =>
    rw [hc] at hrun
    exact Or.inl ⟨e, rfl, Attempt.run_bind_of_error hrun⟩
  | ok c =>
    rw [hc] at hrun
    exact Or.inr ⟨c, rfl, Attempt.run_bind_of_ok hrun⟩

/-- A request of an owner that is answered has a caller. -/
theorem run_caller_bind_eq_ok {α : Type} {w : Surroundings} {r : Http.Request}
    {f : Caller → Action α} {s t : Service} {y : α}
    (h : (caller w r >>= f).run s = (.ok y, t)) :
    ∃ c, callerOf s.tenancy w r = .ok c ∧ (f c).run (s.identified w r) = (.ok y, t) := by
  rcases run_caller_bind_cases w r f s with ⟨e, -, hrun⟩ | ⟨c, hc, hrun⟩
  · cases hrun.symm.trans h
  · exact ⟨c, hc, hrun.symm.trans h⟩

/-- A tenancy is there or not from the start on. -/
theorem isSome_tenancyAfter (tenancy : Option Tenancy) (w : Surroundings) (r : Http.Request) :
    (tenancyAfter tenancy w r).isSome = tenancy.isSome := by
  cases tenancy with
  | none => rfl
  | some tenancy =>
    rw [tenancyAfter]
    cases Bearer.token (r.header "authorization") <;> rfl

/-- Projects are resolved by what the backend answers; of the tenancy it only counts whether it is set
up. -/
theorem resolveProject_congr {tenancy tenancy' : Option Tenancy}
    (h : tenancy.isSome = tenancy'.isSome) (projects : RemoteService) (caller : Caller)
    (requested : Option String) :
    Tenancy.resolveProject tenancy projects caller requested =
      Tenancy.resolveProject tenancy' projects caller requested := by
  cases tenancy <;> cases tenancy'
  · rfl
  · cases h
  · cases h
  · rfl

/-- Keeping a token changes nothing about projects. -/
theorem resolveProject_identified (tenancy : Option Tenancy) (w : Surroundings) (r : Http.Request)
    (projects : RemoteService) (caller : Caller) (requested : Option String) :
    Tenancy.resolveProject (tenancyAfter tenancy w r) projects caller requested =
      Tenancy.resolveProject tenancy projects caller requested :=
  resolveProject_congr (isSome_tenancyAfter tenancy w r) projects caller requested

/-- Behind the project the rest runs, or the request is refused for want of one. -/
theorem run_project_bind_cases {α : Type} (w : Surroundings) (caller : Caller)
    (requested : Option String) (f : String → Action α) (s : Service) :
    (∃ e, Tenancy.resolveProject s.tenancy w.projects caller requested = .error e ∧
        (project w caller requested >>= f).run s = (.error (.failure e), s)) ∨
      ∃ p, Tenancy.resolveProject s.tenancy w.projects caller requested = .ok p ∧
        (project w caller requested >>= f).run s = (f p).run s :=
  run_ofResult_bind_cases _ f s

theorem inert_project (w : Surroundings) (caller : Caller) (requested : Option String) :
    Inert (project w caller requested) := by
  apply inert_state.bind
  intro s
  exact inert_ofResult _

theorem inert_queriedProject (r : Http.Request) : Inert (queriedProject r) := by
  unfold queriedProject
  split
  · exact inert_pure _
  · exact inert_pure _
  · exact inert_fail _

/-- A query is refused only when it gives the project more than once. -/
theorem twice_of_queriedProject {r : Http.Request} {s s' : Service} {e : Http.Refusal}
    (h : (queriedProject r).run s = (.error e, s')) :
    1 < ((Text.formFields r.query).filter (·.1 == "project_uuid")).length ∧
      e.response.status = 400 := by
  unfold queriedProject at h
  split at h
  · cases h
  · cases h
  · rename_i hnone hone
    cases h
    refine ⟨?_, rfl⟩
    rcases hfields : (Text.formFields r.query).filter (·.1 == "project_uuid") with
      _ | ⟨field, _ | ⟨other, rest⟩⟩
    · exact absurd hfields hnone
    · exact absurd hfields (hone field)
    · rw [hfields, List.length_cons, List.length_cons]
      omega

theorem inert_createRequest (r : Http.Request) : Inert (createRequest r) := by
  unfold createRequest
  split
  · apply (inert_bodyWithin r).bind
    intro body
    split
    · exact inert_pure _
    · exact inert_fail _
    · exact inert_fail _
  · exact inert_fail _

/-- What a body asks for does not depend on the service, its limit on bodies aside. -/
theorem createRequest_congr (r : Http.Request) {s t : Service} (h : s.bodyLimit = t.bodyLimit) :
    ((createRequest r).run s).1 = ((createRequest r).run t).1 := by
  -- of the state only the limit for bodies is looked at
  have hbody : ((bodyWithin r).run s).1 = ((bodyWithin r).run t).1 := by
    change ((if r.body.length > s.bodyLimit then _ else _ : Action Bytes).run s).1 =
      ((if r.body.length > t.bodyLimit then _ else _ : Action Bytes).run t).1
    rw [h]
    split <;> rfl
  unfold createRequest
  split
  · rcases hs : (bodyWithin r).run s with ⟨x, s'⟩
    rcases ht : (bodyWithin r).run t with ⟨y, t'⟩
    obtain rfl : x = y := by
      rw [hs, ht] at hbody
      exact hbody
    cases x with
    | error e => rw [Attempt.run_bind_of_error hs, Attempt.run_bind_of_error ht]
    | ok body =>
      rw [Attempt.run_bind_of_ok hs, Attempt.run_bind_of_ok ht]
      split <;> rfl
  · rfl

/-- A listing only resolves its caller, and so does showing an index (`run_show?_snd`). -/
theorem run_list_snd (w : Surroundings) (r : Http.Request) (s : Service) :
    ((list w r).run s).2 = s.identified w r := by
  rw [list, run_bind_snd ?_ s, run_caller]
  intro caller
  apply (inert_queriedProject r).bind
  intro requested
  apply (inert_project w caller requested).bind
  intro project
  apply inert_state.bind
  intro s
  apply (inert_ofResult _).bind
  intro indexes
  apply (inert_ofResult _).bind
  intro sizes
  exact inert_pure _

theorem run_show?_snd (w : Surroundings) (r : Http.Request) (id : Bytes) (s : Service) :
    ((show? w r id).run s).2 = s.identified w r := by
  rw [show?, run_bind_snd ?_ s, run_caller]
  intro caller
  apply (inert_parameter id).bind
  intro publicId
  apply inert_state.bind
  intro s
  apply (inert_ofResult _).bind
  intro row
  split
  · exact inert_fail _
  · apply (inert_ofResult _).bind
    intro size
    exact inert_pure _

end Management

namespace Service

/-- A request that creates an index, with all that was settled before it was placed. -/
structure Creates (s : Service) (w : Surroundings) (r : Http.Request) (caller : Caller)
    (request : CreateRequest) (project : String) (registry : Registry) (index : Index) : Prop where
  identified : Management.callerOf s.tenancy w r = .ok caller
  asked : ((Management.createRequest r).run s).1 = .ok request
  named : (Text.trim request.name).isEmpty = false
  resolved : Tenancy.resolveProject s.tenancy w.projects caller request.projectUuid = .ok project
  placed : s.registry.create (NewIndex.generate caller.authzId project (Text.trim request.name)
    w.draw w.moment) w.draw.spareIds = .ok (registry, index)

/-- A request that deletes the live index with a public id, if its caller owns it. -/
structure Deletes (s : Service) (w : Surroundings) (r : Http.Request) (id : Bytes) (caller : Caller)
    (publicId : String) (registry : Registry) (done : Bool) : Prop where
  identified : Management.callerOf s.tenancy w r = .ok caller
  named : Http.Route.parameter? id = some publicId
  marked : s.registry.delete publicId caller.authzId w.moment = .ok (registry, done)

end Service

namespace Management

/-- A creation is refused, with its caller resolved, or places an index. -/
theorem run_create_cases (w : Surroundings) (r : Http.Request) (s : Service) :
    (∃ e, (create w r).run s = (.error e, s.identified w r)) ∨
      ∃ caller request project registry index,
        s.Creates w r caller request project registry index ∧
        (create w r).run s =
          (.ok (.ok (index.toJson none)), { s.identified w r with registry := registry }) := by
  rw [create]
  rcases run_caller_bind_cases w r _ s with ⟨e, -, hrun⟩ | ⟨caller, hcaller, hrun⟩
  · exact Or.inl ⟨_, hrun⟩
  rw [hrun]
  rcases run_bind_cases (inert_createRequest r (s.identified w r)) _ with
    ⟨e, -, hrun⟩ | ⟨request, hrequest, hrun⟩
  · exact Or.inl ⟨e, hrun⟩
  rw [hrun]
  -- what the request asks for does not depend on what the provider has kept meanwhile
  have hsame : ((createRequest r).run s).1 = ((createRequest r).run (s.identified w r)).1 :=
    createRequest_congr r rfl
  have hasked : ((createRequest r).run s).1 = .ok request := by
    rw [hsame, hrequest]
  dsimp only
  split
  · exact Or.inl ⟨_, rfl⟩
  rename_i hname
  have hnamed : (Text.trim request.name).isEmpty = false := Bool.eq_false_iff.2 hname
  rcases run_project_bind_cases w caller request.projectUuid _ (s.identified w r) with
    ⟨e, -, hrun⟩ | ⟨project, hproject, hrun⟩
  · exact Or.inl ⟨_, hrun⟩
  rw [hrun]
  rw [Service.identified, resolveProject_identified] at hproject
  rcases run_ofResult_bind_cases (s.registry.create (NewIndex.generate caller.authzId project
      (Text.trim request.name) w.draw w.moment) w.draw.spareIds) _ (s.identified w r) with
    ⟨e, -, hrun⟩ | ⟨⟨registry, index⟩, hplaced, hrun⟩
  · exact Or.inl ⟨_, hrun⟩
  · exact Or.inr ⟨caller, request, project, registry, index,
      ⟨hcaller, hasked, hnamed, hproject, hplaced⟩, hrun⟩

/-- A deletion is refused, with its caller resolved, or marks what its caller may delete. -/
theorem run_delete_cases (w : Surroundings) (r : Http.Request) (id : Bytes) (s : Service) :
    (∃ e, (delete w r id).run s = (.error e, s.identified w r)) ∨
      ∃ caller publicId registry done, s.Deletes w r id caller publicId registry done ∧
        (delete w r id).run s =
          (.ok (.ok .null), { s.identified w r with
            registry := registry
            cache := s.cache.evict publicId }) := by
  rw [delete]
  rcases run_caller_bind_cases w r _ s with ⟨e, -, hrun⟩ | ⟨caller, hcaller, hrun⟩
  · exact Or.inl ⟨_, hrun⟩
  rw [hrun]
  rcases run_parameter_bind_cases id _ (s.identified w r) with
    ⟨-, hrun⟩ | ⟨publicId, hid, hrun⟩
  · exact Or.inl ⟨_, hrun⟩
  rw [hrun]
  rcases run_ofResult_bind_cases (s.registry.delete publicId caller.authzId w.moment) _
      (s.identified w r) with ⟨e, -, hrun⟩ | ⟨⟨registry, done⟩, hmarked, hrun⟩
  · exact Or.inl ⟨_, hrun⟩
  · exact Or.inr ⟨caller, publicId, registry, done, ⟨hcaller, hid, hmarked⟩, hrun⟩

end Management

/-- The answer that shows an index with its size. -/
def Http.shownAnswer (index : Index) (size : Nat) : Http.Response where
  status := 200
  contentType := some "application/json"
  body := (index.toJson (some size)).compact
  allowOrigin := some "*"

/-- The answer to the creation of an index. -/
def Http.createdAnswer (index : Index) : Http.Response where
  status := 200
  contentType := some "application/json"
  body := (index.toJson none).compact
  allowOrigin := some "*"

/-- The answer to a listing of some indexes with their sizes. -/
def Http.listingAnswer (listed : List (Index × Nat)) : Http.Response where
  status := 200
  contentType := some "application/json"
  body := (Json.Value.array (listed.map fun (i, size) => i.toJson (some size))).compact
  allowOrigin := some "*"

namespace Management

theorem refusesOpenly_caller (w : Surroundings) (r : Http.Request) :
    RefusesOpenly (caller w r) := by
  intro s e s' h
  rw [run_caller] at h
  cases hc : callerOf s.tenancy w r with
  | error f =>
    rw [hc] at h
    cases h
    exact f.status_ge
  | ok c =>
    rw [hc] at h
    cases h

theorem refusesOpenly_show? (w : Surroundings) (r : Http.Request) (id : Bytes) :
    RefusesOpenly (show? w r id) := by
  apply (refusesOpenly_caller w r).bind
  intro caller
  apply (refusesOpenly_parameter id).bind
  intro publicId
  apply refusesOpenly_state.bind
  intro s
  apply (refusesOpenly_ofResult _).bind
  intro row
  split
  · exact refusesOpenly_fail _
  · apply (refusesOpenly_ofResult _).bind
    intro size
    exact refusesOpenly_pure _

theorem refusesOpenly_project (w : Surroundings) (caller : Caller) (requested : Option String) :
    RefusesOpenly (project w caller requested) :=
  refusesOpenly_state.bind fun _ => refusesOpenly_ofResult _

/-- A listing that is refused says so by its status; so do the other requests of owners. -/
theorem refusesOpenly_list (w : Surroundings) (r : Http.Request) : RefusesOpenly (list w r) := by
  apply (refusesOpenly_caller w r).bind
  intro caller
  have hqueried : RefusesOpenly (queriedProject r) := by
    intro s e s' h
    have hstatus := (twice_of_queriedProject h).2
    omega
  apply hqueried.bind
  intro requested
  apply (refusesOpenly_project w caller requested).bind
  intro project
  apply refusesOpenly_state.bind
  intro s
  apply (refusesOpenly_ofResult _).bind
  intro indexes
  apply (refusesOpenly_ofResult _).bind
  intro sizes
  exact refusesOpenly_pure _

theorem refusesOpenly_createRequest (r : Http.Request) : RefusesOpenly (createRequest r) := by
  unfold createRequest
  split
  · apply (refusesOpenly_bodyWithin r).bind
    intro body
    split
    · exact refusesOpenly_pure _
    · exact refusesOpenly_reject (by decide) _
    · exact refusesOpenly_reject (by decide) _
  · exact refusesOpenly_reject (by decide) _

theorem refusesOpenly_create (w : Surroundings) (r : Http.Request) :
    RefusesOpenly (create w r) := by
  apply (refusesOpenly_caller w r).bind
  intro caller
  apply (refusesOpenly_createRequest r).bind
  intro request
  dsimp only
  split
  · exact refusesOpenly_fail _
  apply (refusesOpenly_project w caller request.projectUuid).bind
  intro project
  apply refusesOpenly_state.bind
  intro s
  apply (refusesOpenly_ofResult _).bind
  intro placed
  apply (refusesOpenly_modify _).bind
  intro _
  exact refusesOpenly_pure _

variable {w : Surroundings} {r : Http.Request} {id : Bytes} {s s' : Service}
  {response : Http.Response}

/-- What a creation answers is the index that it places. -/
theorem run_create_eq_ok (h : (create w r).run s = (.ok response, s')) :
    ∃ caller request project registry index,
      s.Creates w r caller request project registry index ∧
        response = .ok (index.toJson none) ∧ s' = { s.identified w r with registry := registry } := by
  rcases run_create_cases w r s with
    ⟨e, hrun⟩ | ⟨caller, request, project, registry, index, hcreates, hrun⟩
  · cases hrun.symm.trans h
  · cases hrun.symm.trans h
    exact ⟨caller, request, project, registry, index, hcreates, rfl, rfl⟩

/-- What is shown is the live index asked for, and it is its owner who asks. -/
theorem run_show?_eq_ok (h : (show? w r id).run s = (.ok response, s')) :
    ∃ caller index size, callerOf s.tenancy w r = .ok caller ∧
      Http.Route.parameter? id = some index.publicId ∧
      s.registry.findLive index.publicId = some index ∧ index.authzId = caller.authzId ∧
      response = .ok (index.toJson (some (size : Nat))) := by
  rw [show?] at h
  obtain ⟨caller, hcaller, hcalled⟩ := run_caller_bind_eq_ok h
  obtain ⟨publicId, hid, hnamed⟩ := run_parameter_bind_eq_ok hcalled
  obtain ⟨row, hget, hread⟩ := run_ofResult_bind_eq_ok hnamed
  split at hread
  · cases hread
  · rename_i index hrow
    obtain ⟨hrow, howner⟩ := Option.filter_eq_some_iff.1 hrow
    have hlive := (Registry.get?_eq_ok_iff.1 hget).2.trans hrow
    have hpublic := Registry.publicId_of_findLive hlive
    subst hpublic
    obtain ⟨size, -, hshown⟩ := run_ofResult_bind_eq_ok hread
    cases hshown
    exact ⟨caller, index, size, hcaller, hid, hlive, eq_of_beq howner, rfl⟩

/-- What is listed are live indexes of a project that the caller may see. -/
theorem run_list_eq_ok (h : (list w r).run s = (.ok response, s')) :
    ∃ caller requested project, callerOf s.tenancy w r = .ok caller ∧
      Tenancy.resolveProject s.tenancy w.projects caller requested = .ok project ∧
      ∃ listed : List (Index × Nat),
        response = .ok (.array (listed.map fun (i, size) => i.toJson (some size))) ∧
        ∀ x ∈ listed, x.1 ∈ s.registry.rows ∧ x.1.projectUuid = project ∧ x.1.isLive = true := by
  rw [list] at h
  obtain ⟨caller, hcaller, hcalled⟩ := run_caller_bind_eq_ok h
  obtain ⟨requested, -, hasked⟩ := run_bind_eq_ok (inert_queriedProject r _) hcalled
  obtain ⟨project, hproject, hresolved⟩ := run_ofResult_bind_eq_ok hasked
  rw [Service.identified, resolveProject_identified] at hproject
  obtain ⟨indexes, hlist, hread⟩ := run_ofResult_bind_eq_ok hresolved
  obtain ⟨sizes, -, hlisted⟩ := run_ofResult_bind_eq_ok hread
  cases hlisted
  refine ⟨caller, requested, project, hcaller, hproject, indexes.zip sizes, rfl, ?_⟩
  intro x hx
  exact Registry.mem_of_list hlist (List.of_mem_zip hx).1

end Management

end IndexVault
