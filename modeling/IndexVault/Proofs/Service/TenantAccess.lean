import Mathlib.Data.List.Induction
import IndexVault.Proofs.Service.RecordsSteps
import IndexVault.Proofs.Service.ReferenceTables
import IndexVault.Proofs.Tenancy.KeptTokens

namespace IndexVault

open IndexVault.Action

namespace Tenancy

/-- The provider gives a subject for a token, or it gave it to an earlier request with this token and
the subject still counts. -/
def Vouches (lifetime : Nat) (past : List (Surroundings × Http.Request)) (w : Surroundings)
    (token subject : String) : Prop :=
  IdentityProvider.subjectOf (w.userInfo.ask token) = .ok subject ∨
    ∃ earlier ∈ past, Bearer.token (earlier.2.header "authorization") = .ok token ∧
      IdentityProvider.subjectOf (earlier.1.userInfo.ask token) = .ok subject ∧
      w.uptime < earlier.1.uptime + lifetime

/-- The backend lists a project for a token. -/
def Lists (w : Surroundings) (token project : String) : Prop :=
  ∃ projects, Projects.ofReply (w.projects.ask token) = .ok projects ∧ project ∈ projects

/-- A request carries a token that is vouched for. -/
structure IsFrom (lifetime : Nat) (past : List (Surroundings × Http.Request)) (w : Surroundings)
    (r : Http.Request) (token subject : String) : Prop where
  bearer : Bearer.token (r.header "authorization") = .ok token
  vouched : Vouches lifetime past w token subject

/-- Every cached token was vouched for when a request carried it, and counts from then on. -/
structure KeepsGiven (lifetime : Nat) (past : List (Surroundings × Http.Request)) (t : Tenancy) :
    Prop where
  lasting : t.identity.lifetime = lifetime
  given : ∀ token c, t.identity.tokens.get? token = some c →
    ∃ earlier ∈ past, Bearer.token (earlier.2.header "authorization") = .ok token ∧
      IdentityProvider.subjectOf (earlier.1.userInfo.ask token) = .ok c.subject ∧
      c.expiresAt = earlier.1.uptime + lifetime

variable {lifetime : Nat} {past : List (Surroundings × Http.Request)} {t : Tenancy}
  {w : Surroundings} {r : Http.Request} {token : String} {caller : Caller}

namespace KeepsGiven

/-- What was given stays given. -/
theorem append (h : KeepsGiven lifetime past t) (call : Surroundings × Http.Request) :
    KeepsGiven lifetime (past ++ [call]) t := by
  refine ⟨h.lasting, fun token c hc => ?_⟩
  obtain ⟨earlier, hmem, hgiven⟩ := h.given token c hc
  exact ⟨earlier, List.mem_append_left _ hmem, hgiven⟩

/-- A token that is accepted now was given now, or is kept from when it was. -/
theorem validate (h : KeepsGiven lifetime past t)
    (hbearer : Bearer.token (r.header "authorization") = .ok token) :
    KeepsGiven lifetime (past ++ [(w, r)])
      { t with identity := (t.identity.validate w.userInfo token w.uptime).1 } := by
  have hkept := h.append (w, r)
  rcases t.identity.validate_cases w.userInfo token w.uptime with
    ⟨subject, -, hrun⟩ | ⟨subject, -, hsubject, hrun⟩ | ⟨e, -, -, hrun⟩
  · rw [hrun]
    exact hkept
  · rw [hrun]
    refine ⟨h.lasting, fun other c hc => ?_⟩
    rcases IdentityProvider.get?_remember hc with ⟨rfl, rfl⟩ | hold
    · have hlast : (w, r) ∈ past ++ [(w, r)] := by simp
      exact ⟨(w, r), hlast, hbearer, hsubject, congrArg (w.uptime + ·) h.lasting⟩
    · exact hkept.given other c hold
  · rw [hrun]
    exact hkept

/-- Every token that is kept was given less than a lifetime ago. -/
theorem tenancyAfter (h : KeepsGiven lifetime past t) (w : Surroundings) (r : Http.Request) :
    ∃ t', Management.tenancyAfter (some t) w r = some t' ∧
      KeepsGiven lifetime (past ++ [(w, r)]) t' := by
  rw [Management.tenancyAfter]
  cases hbearer : Bearer.token (r.header "authorization") with
  | error e => exact ⟨t, rfl, h.append (w, r)⟩
  | ok token => exact ⟨_, rfl, h.validate hbearer⟩

/-- A caller that is resolved is vouched for, and the token is passed on. -/
theorem isFrom (h : KeepsGiven lifetime past t)
    (hcaller : Management.callerOf (some t) w r = .ok caller) :
    ∃ token, caller.bearer = some token ∧ IsFrom lifetime past w r token caller.authzId := by
  rw [Management.callerOf] at hcaller
  cases hbearer : Bearer.token (r.header "authorization") with
  | error e =>
    rw [hbearer] at hcaller
    cases hcaller
  | ok token =>
    rw [hbearer] at hcaller
    -- A cached subject was given to an earlier request; otherwise the provider gives it now.
    rcases t.identity.validate_cases w.userInfo token w.uptime with
      ⟨subject, hcached, hrun⟩ | ⟨subject, -, hsubject, hrun⟩ | ⟨e, -, -, hrun⟩
    · have hok := (congrArg Prod.snd hrun).symm.trans hcaller
      cases hok
      obtain ⟨c, hc, rfl, hnow⟩ := IdentityProvider.cached?_eq_some hcached
      obtain ⟨earlier, hmem, hearlier, hgiven, hexpires⟩ := h.given token c hc
      exact ⟨token, rfl, hbearer, Or.inr ⟨earlier, hmem, hearlier, hgiven, hexpires ▸ hnow⟩⟩
    · have hok := (congrArg Prod.snd hrun).symm.trans hcaller
      cases hok
      exact ⟨token, rfl, hbearer, Or.inl hsubject⟩
    · have herror := (congrArg Prod.snd hrun).symm.trans hcaller
      cases herror

end KeepsGiven

/-- A project that is resolved was asked for, is not empty, and is listed for the caller. -/
theorem lists_of_resolveProject {requested : Option String} {project : String}
    (hbearer : caller.bearer = some token)
    (h : resolveProject (some t) w.projects caller requested = .ok project) :
    requested = some project ∧ project ≠ "" ∧ Lists w token project := by
  rw [resolveProject] at h
  cases hasked : requested.filter (!·.isEmpty) with
  | none =>
    rw [hasked] at h
    cases h
  | some asked =>
    rw [hasked] at h
    -- a project that is named counts only if its name is not empty
    obtain ⟨hrequested, hnonempty⟩ := Option.filter_eq_some_iff.1 hasked
    have hlist : Projects.list w.projects caller = Projects.ofReply (w.projects.ask token) := by
      rw [Projects.list, hbearer]
    dsimp only at h
    rw [Projects.ensure, hlist] at h
    cases hprojects : Projects.ofReply (w.projects.ask token) with
    | error e =>
      rw [hprojects] at h
      cases h
    | ok projects =>
      rw [hprojects] at h
      change (if projects.contains asked then _ else _ : Except Failure Unit).map _ = _ at h
      split at h
      · rename_i hcontains
        cases h
        refine ⟨hrequested, ?_, projects, hprojects, List.contains_iff_mem.1 hcontains⟩
        rintro rfl
        cases hnonempty
      · cases h

end Tenancy

namespace Service

open Tenancy (IsFrom KeepsGiven Lists)

variable {start : Service} {t : Tenancy} {w : Surroundings} {r : Http.Request} {id : Bytes}

theorem respondAll_append (s : Service) (past later : List (Surroundings × Http.Request)) :
    (s.respondAll (past ++ later)).1 = ((s.respondAll past).1.respondAll later).1 := by
  induction past generalizing s with
  | nil => rfl
  | cons call past ih => exact ih (s.respond call.1 call.2).1

theorem isLogged_respondAll (s : Service) (past : List (Surroundings × Http.Request)) :
    (s.respondAll past).1.log.isSome = s.log.isSome := by
  induction past generalizing s with
  | nil => rfl
  | cons call past ih =>
    exact (ih (s.respond call.1 call.2).1).trans (recordsStep_respond s call.1 call.2).isLogged

/-- The cached tokens of a service that started without any come from its requests. -/
theorem keepsGiven_respondAll (hstart : start.tenancy = some t) (htokens : t.identity.tokens = ∅)
    (past : List (Surroundings × Http.Request)) :
    ∃ t', (start.respondAll past).1.tenancy = some t' ∧
      KeepsGiven t.identity.lifetime past t' := by
  -- The run is taken apart at its end: what a request may rely on lies before it.
  induction past using List.reverseRecOn with
  | nil =>
    refine ⟨t, hstart, rfl, fun token c hc => ?_⟩
    rw [htokens] at hc
    cases hc
  | append_singleton past call ih =>
    obtain ⟨w, r⟩ := call
    obtain ⟨t', htenancy, hgiven⟩ := ih
    rw [respondAll_append]
    have hstep := (recordsStep_respond (start.respondAll past).1 w r).tenancy
    rw [htenancy] at hstep
    rcases hstep with hsame | hafter
    · exact ⟨t', hsame, hgiven.append (w, r)⟩
    · obtain ⟨t'', ht'', hkept⟩ := hgiven.tenancyAfter w r
      exact ⟨t'', hafter.trans ht'', hkept⟩

/-- An index was created by a request of its owner, for whom the backend listed its project then. -/
def CreatedIn (past : List (Surroundings × Http.Request)) (lifetime : Nat) (logged : Bool)
    (i : Index) : Prop :=
  ∃ before w r after token, past = before ++ (w, r) :: after ∧ r.method = "POST" ∧
    Http.Route.ofPath? logged r.path = some .indexes ∧
    IsFrom lifetime before w r token i.authzId ∧ i.projectUuid ≠ "" ∧
    Lists w token i.projectUuid

/-- Every row was there at the start, or was created by a request of its owner for its project. -/
theorem createdIn_respondAll (hstart : start.tenancy = some t) (htokens : t.identity.tokens = ∅)
    (past : List (Surroundings × Http.Request)) {i : Index}
    (hi : i ∈ (start.respondAll past).1.registry.rows) :
    (∃ j ∈ start.registry.rows, j.undeleted = i.undeleted) ∨
      CreatedIn past t.identity.lifetime start.log.isSome i := by
  induction past using List.reverseRecOn generalizing i with
  | nil => exact Or.inl ⟨i, hi, rfl⟩
  | append_singleton past call ih =>
    obtain ⟨w, r⟩ := call
    rw [respondAll_append] at hi
    rcases (recordsStep_respond (start.respondAll past).1 w r).origin_cases hi with
      ⟨j, hj, hsame⟩ | ⟨caller, requested, hmethod, hroute, hcaller, howner, hproject⟩
    · -- A deletion in between touches neither the owner nor the project.
      have howner : j.authzId = i.authzId := congrArg (·.authzId) hsame
      have hproject : j.projectUuid = i.projectUuid := congrArg (·.projectUuid) hsame
      rcases ih hj with ⟨k, hk, hkj⟩ | ⟨before, w', r', after, token, hpast, hcreated⟩
      · exact Or.inl ⟨k, hk, hkj.trans hsame⟩
      · rw [howner, hproject] at hcreated
        refine Or.inr ⟨before, w', r', after ++ [(w, r)], token, ?_, hcreated⟩
        rw [hpast, List.append_assoc, List.cons_append]
    · obtain ⟨t', htenancy, hgiven⟩ := keepsGiven_respondAll hstart htokens past
      rw [htenancy] at hcaller hproject
      obtain ⟨token, hbearer, hfrom⟩ := hgiven.isFrom hcaller
      obtain ⟨-, hnonempty, hlists⟩ := Tenancy.lists_of_resolveProject hbearer hproject
      rw [isLogged_respondAll] at hroute
      rw [← howner] at hfrom
      exact Or.inr ⟨past, w, r, [], token, rfl, hmethod, hroute, hfrom, hnonempty, hlists⟩

/-- What a service with many tenants keeps to after some requests, and in answering the next one. -/
structure AccessControlled (start : Service) (lifetime : Nat)
    (past : List (Surroundings × Http.Request)) (w : Surroundings) (r : Http.Request)
    (s s' : Service) (answer : Http.Response) : Prop where
  /-- Every row that was not there at the start was created by its owner in a project of theirs. -/
  created : ∀ i ∈ s.registry.rows, (∃ j ∈ start.registry.rows, j.undeleted = i.undeleted) ∨
    CreatedIn past lifetime start.log.isSome i
  /-- A row stays as it is, unless its owner deletes it. -/
  deleted : ∀ (n : Nat) (i : Index), s.registry.rows[n]? = some i →
    s'.registry.rows[n]? = some i ∨
      ∃ id token, r.method = "DELETE" ∧
        Http.Route.ofPath? start.log.isSome r.path = some (.index id) ∧
        Http.Route.parameter? id = some i.publicId ∧ IsFrom lifetime past w r token i.authzId ∧
        i.isLive = true ∧ s'.registry.rows[n]? = some { i with deletedAt := some w.moment }
  /-- A live index is shown to its owner only. -/
  shown : ∀ id, r.method = "GET" →
    Http.Route.ofPath? start.log.isSome r.path = some (.index id) → answer.status = 200 →
    ∃ index size token, answer = Http.shownAnswer index size ∧
      Http.Route.parameter? id = some index.publicId ∧
      s.registry.findLive index.publicId = some index ∧
      IsFrom lifetime past w r token index.authzId
  /-- What is listed belongs to one project, and the backend lists that project for the caller. -/
  listed : r.method = "GET" → Http.Route.ofPath? start.log.isSome r.path = some .indexes →
    answer.status = 200 →
    ∃ listed token subject project, answer = Http.listingAnswer listed ∧
      IsFrom lifetime past w r token subject ∧ project ≠ "" ∧ Lists w token project ∧
      ∀ x ∈ listed, x.1 ∈ s.registry.rows ∧ x.1.projectUuid = project ∧ x.1.isLive = true
  /-- A request that only reads changes no row, whatever project it asks for. -/
  reading : r.method ≠ "POST" → r.method ≠ "DELETE" → s'.registry = s.registry
  /-- Nor does one without a token. -/
  withoutBearer : ∀ e, Bearer.token (r.header "authorization") = .error e →
    s'.registry = s.registry
  /-- Nor does one whose token the provider rejects, or for which it fails. -/
  unvouched : ∀ token t e, Bearer.token (r.header "authorization") = .ok token →
    s.tenancy = some t → t.identity.cached? token w.uptime = none →
    IdentityProvider.subjectOf (w.userInfo.ask token) = .error e → s'.registry = s.registry
  /-- Nor does a creation in a project that the backend does not list. -/
  unlisted : ∀ token request, r.method = "POST" →
    Bearer.token (r.header "authorization") = .ok token →
    ((Management.createRequest r).run s).1 = .ok request →
    (∀ project, request.projectUuid = some project → ¬ Lists w token project) →
    s'.registry = s.registry

section Step

variable {past : List (Surroundings × Http.Request)} {lifetime : Nat} {s : Service}
  (htenancy : s.tenancy = some t) (hgiven : KeepsGiven lifetime past t)

include htenancy hgiven

/-- A row changes only when its owner deletes it. -/
theorem row_deleted_by_owner {n : Nat} {i : Index} (hi : s.registry.rows[n]? = some i) :
    (s.respond w r).1.registry.rows[n]? = some i ∨
      ∃ id token, r.method = "DELETE" ∧
        Http.Route.ofPath? s.log.isSome r.path = some (.index id) ∧
        Http.Route.parameter? id = some i.publicId ∧ IsFrom lifetime past w r token i.authzId ∧
        i.isLive = true ∧
        (s.respond w r).1.registry.rows[n]? = some { i with deletedAt := some w.moment } := by
  rcases (recordsStep_respond s w r).row_cases hi with
    hkept | ⟨id, caller, hmethod, hroute, hid, hcaller, howner, hlive, hdeleted⟩
  · exact Or.inl hkept
  · rw [htenancy] at hcaller
    obtain ⟨token, -, hfrom⟩ := hgiven.isFrom hcaller
    rw [← howner] at hfrom
    exact Or.inr ⟨id, token, hmethod, hroute, hid, hfrom, hlive, hdeleted⟩

/-- An index is shown to its owner only. -/
theorem shown_to_owner (hmethod : r.method = "GET")
    (hroute : Http.Route.ofPath? s.log.isSome r.path = some (.index id))
    (hstatus : (s.respond w r).2.status = 200) :
    ∃ index size token, (s.respond w r).2 = Http.shownAnswer index size ∧
      Http.Route.parameter? id = some index.publicId ∧
      s.registry.findLive index.publicId = some index ∧
      IsFrom lifetime past w r token index.authzId := by
  have ha : action? w r "GET" (.index id) = some (Management.show? w r id) := rfl
  rw [respond_of_action? hmethod (by decide) hroute ha] at hstatus ⊢
  obtain ⟨response, hrun⟩ := (Management.refusesOpenly_show? w r id).eq_ok_of_status hstatus
  obtain ⟨caller, index, size, hcaller, hid, hlive, howner, rfl⟩ :=
    Management.run_show?_eq_ok hrun
  rw [htenancy] at hcaller
  obtain ⟨token, -, hfrom⟩ := hgiven.isFrom hcaller
  rw [← howner] at hfrom
  refine ⟨index, size, token, ?_, hid, hlive, hfrom⟩
  rw [hrun]
  rfl

/-- A listing needs a project that the backend lists for the caller. -/
theorem listed_to_member (hmethod : r.method = "GET")
    (hroute : Http.Route.ofPath? s.log.isSome r.path = some .indexes)
    (hstatus : (s.respond w r).2.status = 200) :
    ∃ listed token subject project, (s.respond w r).2 = Http.listingAnswer listed ∧
      IsFrom lifetime past w r token subject ∧ project ≠ "" ∧ Lists w token project ∧
      ∀ x ∈ listed, x.1 ∈ s.registry.rows ∧ x.1.projectUuid = project ∧ x.1.isLive = true := by
  have ha : action? w r "GET" .indexes = some (Management.list w r) := rfl
  rw [respond_of_action? hmethod (by decide) hroute ha] at hstatus ⊢
  obtain ⟨response, hrun⟩ := (Management.refusesOpenly_list w r).eq_ok_of_status hstatus
  obtain ⟨caller, requested, project, hcaller, hproject, listed, rfl, hlisted⟩ :=
    Management.run_list_eq_ok hrun
  rw [htenancy] at hcaller hproject
  obtain ⟨token, hbearer, hfrom⟩ := hgiven.isFrom hcaller
  obtain ⟨-, hnonempty, hlists⟩ := Tenancy.lists_of_resolveProject hbearer hproject
  refine ⟨listed, token, caller.authzId, project, ?_, hfrom, hnonempty, hlists, hlisted⟩
  rw [hrun]
  rfl

/-- No index is created in a project that the backend does not list. -/
theorem registry_of_unlisted {token : String} {request : CreateRequest}
    (hmethod : r.method = "POST") (hbearer : Bearer.token (r.header "authorization") = .ok token)
    (hasked : ((Management.createRequest r).run s).1 = .ok request)
    (hunlisted : ∀ project, request.projectUuid = some project → ¬ Lists w token project) :
    (s.respond w r).1.registry = s.registry := by
  have hstep := recordsStep_respond s w r
  change (s.respond w r).1.records.registry = _
  cases hx : (s.respond w r).1.records
  rw [hx] at hstep
  cases hstep with
  | kept => rfl
  | identified => rfl
  | created _ _ hcreates =>
    -- a creation needs a project that the provider lists for the caller
    have hcaller := hcreates.identified
    have hproject := hcreates.resolved
    rw [htenancy] at hcaller hproject
    obtain ⟨token', hbearer', hfrom⟩ := hgiven.isFrom hcaller
    obtain ⟨hrequested, -, hlists⟩ := Tenancy.lists_of_resolveProject hbearer' hproject
    cases hasked.symm.trans hcreates.asked
    cases hbearer.symm.trans hfrom.bearer
    exact absurd hlists (hunlisted _ hrequested)
  | deleted hdelete => exact absurd (hmethod.symm.trans hdelete) (by decide)

end Step

/-- Take any service that starts with a tenancy and no cached token, any run of requests and one request
more, with whatever the two remote services answer: access is controlled throughout. -/
theorem tenants_kept_apart (hstart : start.tenancy = some t) (htokens : t.identity.tokens = ∅)
    (past : List (Surroundings × Http.Request)) (w : Surroundings) (r : Http.Request) :
    AccessControlled start t.identity.lifetime past w r (start.respondAll past).1
      ((start.respondAll past).1.respond w r).1 ((start.respondAll past).1.respond w r).2 := by
  obtain ⟨t', htenancy, hgiven⟩ := keepsGiven_respondAll hstart htokens past
  have hcreated := fun i hi => createdIn_respondAll hstart htokens past (i := i) hi
  have hlogged := isLogged_respondAll start past
  -- only what the past has left is looked at from here on
  generalize (start.respondAll past).1 = s at htenancy hcreated hlogged ⊢
  have hstep := recordsStep_respond s w r
  refine ⟨hcreated, ?deleted, ?shown, ?listed, hstep.registry_of_method, ?withoutBearer, ?unvouched,
    ?unlisted⟩
  case deleted =>
    intro n i hi
    rw [← hlogged]
    exact row_deleted_by_owner htenancy hgiven hi
  case shown =>
    intro id hmethod hroute hstatus
    rw [← hlogged] at hroute
    exact shown_to_owner htenancy hgiven hmethod hroute hstatus
  case listed =>
    intro hmethod hroute hstatus
    rw [← hlogged] at hroute
    exact listed_to_member htenancy hgiven hmethod hroute hstatus
  case withoutBearer =>
    intro e hbearer
    have hcaller : Management.callerOf s.tenancy w r = .error e := by
      rw [htenancy, Management.callerOf, hbearer]
    exact hstep.registry_of_unidentified hcaller
  case unvouched =>
    intro token t'' e hbearer htenancy' hcached hsubject
    have hcaller : Management.callerOf s.tenancy w r = .error e := by
      rw [htenancy', Management.callerOf, hbearer]
      simp only [IdentityProvider.validate, hcached, IdentityProvider.receive, hsubject]
    exact hstep.registry_of_unidentified hcaller
  case unlisted =>
    intro token request hmethod hbearer hasked hunlisted
    exact registry_of_unlisted htenancy hgiven hmethod hbearer hasked hunlisted

/-- A service with many tenants, where accepted tokens count for a minute. -/
def manyTenants : Service where
  tenancy := some
    { identity := { lifetime := 60000 }
      identityUrl := "https://tenant.eu.auth0.com"
      backendUrl := "https://backend.example.com" }

/-- Surroundings in which every token is the one of a subject with one project. -/
def oneSubject : Surroundings :=
  { atEpoch with
    userInfo := fun _ => .answered 200 (Bytes.ofText "\x7b\"sub\":\"alice\"\x7d")
    projects := fun _ => .answered 200 (Bytes.ofText "[\x7b\"uuid\":\"docs\"\x7d]") }

/-- A request of that subject for a new index in that project. -/
def tenantCreation : Http.Request where
  method := "POST"
  target := "/indexes"
  headers := [("authorization", Bytes.ofText "Bearer t0"),
    ("content-type", Bytes.ofText "application/json")]
  body := Bytes.ofText "\x7b\"name\":\"a\",\"project_uuid\":\"docs\"\x7d"

def tenantDeletion : Http.Request where
  method := "DELETE"
  target := "/indexes/AAAAA"
  headers := [("authorization", Bytes.ofText "Bearer t0")]

theorem tenants_kept_apart_manyTenants :
    ∃ t, manyTenants.tenancy = some t ∧ t.identity.tokens = ∅ ∧
      ((manyTenants.respondAll [(oneSubject, tenantCreation)]).1.registry.rows.map fun i =>
        (i.authzId, i.projectUuid, i.isLive)) = [("alice", "docs", true)] ∧
      ((manyTenants.respondAll [(oneSubject, tenantCreation),
        (atEpoch, tenantDeletion)]).1.registry.rows.map Index.isLive) = [false] ∧
      AccessControlled manyTenants t.identity.lifetime [(oneSubject, tenantCreation)] atEpoch
        tenantDeletion (manyTenants.respondAll [(oneSubject, tenantCreation)]).1
        ((manyTenants.respondAll [(oneSubject, tenantCreation)]).1.respond atEpoch tenantDeletion).1
        ((manyTenants.respondAll [(oneSubject, tenantCreation)]).1.respond atEpoch
          tenantDeletion).2 := by
  refine ⟨_, rfl, rfl, ?_, ?_, tenants_kept_apart rfl rfl _ _ _⟩
  · decide +kernel
  · decide +kernel

end Service
end IndexVault
