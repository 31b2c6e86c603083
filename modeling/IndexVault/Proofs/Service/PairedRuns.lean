import IndexVault.Proofs.Service.Isolation

/-! Two services side by side. An action runs alike in two states if it answers the same and leaves
states that are related again; this holds of a sequence if it holds of its parts. Services are paired that
have the same rows and lines and find the same indexes, while their caches differ, and their tenancies and
logs may; all actions run alike in them, once the same caller is resolved (`Paired.runsAlike_action?`), and
those on other routes than the log's whatever the two logs are (`Paired.runsAlike_action?_of_offLog`). -/
namespace IndexVault

open IndexVault.Action

namespace Action

variable {α β : Type} {R : Service → Service → Prop} {s t : Service}

/-- An action answers the same in two states, and leaves states that are related. -/
def RunsAlike (R : Service → Service → Prop) (s t : Service) (a : Action α) : Prop :=
  (a.run s).1 = (a.run t).1 ∧ R (a.run s).2 (a.run t).2

theorem runsAlike_pure (h : R s t) (a : α) : RunsAlike R s t (pure a : Action α) := ⟨rfl, h⟩

theorem runsAlike_fail (h : R s t) (e : Http.Refusal) :
    RunsAlike R s t (Attempt.fail e : Action α) := ⟨rfl, h⟩

theorem runsAlike_ofResult (h : R s t) (x : Except Failure α) : RunsAlike R s t (ofResult x) := by
  cases x with
  | ok a => exact runsAlike_pure h a
  | error f => exact runsAlike_fail h _

theorem runsAlike_modify {f : Service → Service} (h : R (f s) (f t)) :
    RunsAlike R s t (Attempt.modify f : Action Unit) := ⟨rfl, h⟩

/-- A sequence runs alike if each of its parts does. -/
theorem RunsAlike.bind {a : Action α} {f : α → Action β} (ha : RunsAlike R s t a)
    (hf : ∀ x s' t', R s' t' → RunsAlike R s' t' (f x)) : RunsAlike R s t (a >>= f) := by
  obtain ⟨hanswer, hafter⟩ := ha
  rcases hs : a.run s with ⟨x, s'⟩
  rcases ht : a.run t with ⟨y, t'⟩
  rw [hs, ht] at hanswer hafter
  dsimp only at hanswer hafter
  subst hanswer
  cases x with
  | error e =>
    rw [RunsAlike, Attempt.run_bind_of_error hs, Attempt.run_bind_of_error ht]
    exact ⟨rfl, hafter⟩
  | ok x =>
    rw [RunsAlike, Attempt.run_bind_of_ok hs, Attempt.run_bind_of_ok ht]
    exact hf x s' t' hafter

/-- What is read of the state has to be the same in both. -/
theorem runsAlike_state_bind {f : Service → Action β} (hsame : f s = f t)
    (hf : RunsAlike R s t (f s)) : RunsAlike R s t (Attempt.state >>= f) := by
  change ((f s).run s).1 = ((f t).run t).1 ∧ R ((f s).run s).2 ((f t).run t).2
  rw [← hsame]
  exact hf

/-- Behind a result the rest has to run alike only where there is one. -/
theorem runsAlike_ofResult_bind {x : Except Failure α} {f : α → Action β} (h : R s t)
    (hf : ∀ a, x = .ok a → RunsAlike R s t (f a)) : RunsAlike R s t (ofResult x >>= f) := by
  cases x with
  | error e => exact runsAlike_fail h _
  | ok a => exact hf a rfl

theorem runsAlike_parameter (h : R s t) (id : Bytes) : RunsAlike R s t (parameter id) := by
  unfold parameter
  split
  · exact runsAlike_pure h _
  · exact runsAlike_fail h _

end Action

namespace Service

/-- Two services that requests are answered from alike, by relations between their tenancies and between
their logs. -/
structure Paired (P : Option Tenancy → Option Tenancy → Prop)
    (L : Option RequestLog → Option RequestLog → Prop) (s t : Service) : Prop where
  registry : s.registry = t.registry
  found : ∀ publicId, s.found publicId = t.found publicId
  coherent : s.Coherent ∧ t.Coherent
  storage : s.storage = t.storage
  bodyLimit : s.bodyLimit = t.bodyLimit
  files : s.files = t.files
  isTenanted : s.tenancy.isSome = t.tenancy.isSome
  tenancy : P s.tenancy t.tenancy
  log : L s.log t.log

/-- A run of requests is answered as by another service, and leaves the same rows and lines. -/
def AnswersAs (s t : Service) (calls : List (Surroundings × Http.Request)) : Prop :=
  (s.respondAll calls).2 = (t.respondAll calls).2 ∧
    (s.respondAll calls).1.registry = (t.respondAll calls).1.registry ∧
    (s.respondAll calls).1.storage = (t.respondAll calls).1.storage

/-- A request is answered alike, and leaves related services, if its path leads to the same route in both
and what the route does runs alike. -/
theorem respond_alike {R : Service → Service → Prop} {s t : Service} {w : Surroundings}
    {r : Http.Request} (h : R s t) (hfiles : s.files = t.files)
    (hsame : Http.Route.ofPath? s.log.isSome r.path = Http.Route.ofPath? t.log.isSome r.path)
    (hruns : ∀ route, Http.Route.ofPath? s.log.isSome r.path = some route →
      ∀ method a, action? w r method route = some a → RunsAlike R s t a) :
    (s.respond w r).2 = (t.respond w r).2 ∧ R (s.respond w r).1 (t.respond w r).1 := by
  unfold respond
  -- a request for options is answered before anything of the state is looked at
  split
  · exact ⟨rfl, h⟩
  unfold Service.route
  rw [← hsame]
  cases hroute : Http.Route.ofPath? s.log.isSome r.path with
  | none =>
    dsimp only
    rw [hfiles]
    exact ⟨rfl, h⟩
  | some route =>
    dsimp only
    cases haction : action? w r (if r.method = "HEAD" then "GET" else r.method) route with
    | none => exact ⟨rfl, h⟩
    | some a =>
      obtain ⟨hanswer, hafter⟩ := hruns route hroute _ a haction
      dsimp only
      rw [carryOut_eq, carryOut_eq, hanswer]
      exact ⟨rfl, hafter⟩

/-- A relation between logs that lasts when a fetch is recorded in both. -/
def KeepsRecording (L : Option RequestLog → Option RequestLog → Prop) : Prop :=
  ∀ (w : Surroundings) (kind : TableKind) (uids : UidSet) (found : EncryptedTable) {s t : Service},
    L s.log t.log → L (Http.Callback.recorded w kind uids found s).log
      (Http.Callback.recorded w kind uids found t).log

namespace Paired

variable {P : Option Tenancy → Option Tenancy → Prop} {L : Option RequestLog → Option RequestLog → Prop}
  {s t : Service} {w : Surroundings} {r : Http.Request}

theorem withTenancies {Q : Option Tenancy → Option Tenancy → Prop} (h : Paired P L s t)
    (hkept : Q s.tenancy t.tenancy) : Paired Q L s t :=
  ⟨h.registry, h.found, h.coherent, h.storage, h.bodyLimit, h.files, h.isTenanted, hkept, h.log⟩

/-- A lookup leaves paired services paired, though their caches differ. -/
theorem looked (h : Paired P L s t) (publicId : String) :
    Paired P L (s.looked publicId) (t.looked publicId) := by
  refine ⟨h.registry, fun other => ?_, ⟨?_, ?_⟩, h.storage, h.bodyLimit, h.files, h.isTenanted,
    h.tenancy, h.log⟩
  · rw [found_looked, found_looked, h.found]
  · exact IndexCache.Coherent.lookup h.coherent.1 publicId
  · exact IndexCache.Coherent.lookup h.coherent.2 publicId

/-- The same change of the storage leaves them paired. -/
theorem withStorage (h : Paired P L s t) (storage : Storage) :
    Paired P L { s with storage := storage } { t with storage := storage } :=
  ⟨h.registry, h.found, h.coherent, rfl, h.bodyLimit, h.files, h.isTenanted, h.tenancy, h.log⟩

/-- A registry that answers is found through either cache, as long as both are coherent with it. -/
theorem withRegistry (h : Paired P L s t) {registry : Registry} (hready : registry.ready = .ok ())
    {c d : IndexCache} (hc : c.Coherent registry) (hd : d.Coherent registry) :
    Paired P L { s with registry := registry, cache := c }
      { t with registry := registry, cache := d } := by
  refine ⟨rfl, fun publicId => ?_, ⟨hc, hd⟩, h.storage, h.bodyLimit, h.files, h.isTenanted, h.tenancy,
    h.log⟩
  rw [Service.found, Service.found, hc.lookup_of_ready hready, hd.lookup_of_ready hready]

/-- The caller is resolved alike if the two tenancies agree on it. -/
theorem caller (h : Paired P L s t)
    (hcaller : Management.callerOf s.tenancy w r = Management.callerOf t.tenancy w r)
    (hafter : P (Management.tenancyAfter s.tenancy w r) (Management.tenancyAfter t.tenancy w r)) :
    RunsAlike (Paired P L) s t (Management.caller w r) := by
  rw [RunsAlike, Management.run_caller, Management.run_caller, hcaller]
  refine ⟨rfl, h.registry, h.found, h.coherent, h.storage, h.bodyLimit, h.files, ?_, hafter, h.log⟩
  change (Management.tenancyAfter s.tenancy w r).isSome = (Management.tenancyAfter t.tenancy w r).isSome
  rw [Management.isSome_tenancyAfter, Management.isSome_tenancyAfter, h.isTenanted]

theorem project (h : Paired P L s t) (w : Surroundings) (caller : Caller)
    (requested : Option String) :
    RunsAlike (Paired P L) s t (Management.project w caller requested) := by
  apply runsAlike_state_bind
  · rw [Management.resolveProject_congr h.isTenanted]
  · exact runsAlike_ofResult h _

theorem queriedProject (h : Paired P L s t) (r : Http.Request) :
    RunsAlike (Paired P L) s t (Management.queriedProject r) := by
  unfold Management.queriedProject
  split
  · exact runsAlike_pure h _
  · exact runsAlike_pure h _
  · exact runsAlike_fail h _

theorem bodyWithin (h : Paired P L s t) (r : Http.Request) :
    RunsAlike (Paired P L) s t (bodyWithin r) := by
  apply runsAlike_state_bind
  · rw [h.bodyLimit]
  · split
    · exact runsAlike_fail h _
    · exact runsAlike_pure h _

theorem createRequest (h : Paired P L s t) (r : Http.Request) :
    RunsAlike (Paired P L) s t (Management.createRequest r) := by
  unfold Management.createRequest
  split
  · apply (h.bodyWithin r).bind
    intro body s' t' h'
    split
    · exact runsAlike_pure h' _
    · exact runsAlike_fail h' _
    · exact runsAlike_fail h' _
  · exact runsAlike_fail h _

theorem list (hcaller : RunsAlike (Paired P L) s t (Management.caller w r)) :
    RunsAlike (Paired P L) s t (Management.list w r) := by
  rw [Management.list]
  apply hcaller.bind
  intro caller s t h
  apply (h.queriedProject r).bind
  intro requested s t h
  apply (h.project w caller requested).bind
  intro project s t h
  apply runsAlike_state_bind
  · rw [h.registry, h.storage]
  apply (runsAlike_ofResult h _).bind
  intro indexes s' t' h
  apply (runsAlike_ofResult h _).bind
  intro sizes s' t' h
  exact runsAlike_pure h _

theorem show? (hcaller : RunsAlike (Paired P L) s t (Management.caller w r)) (id : Bytes) :
    RunsAlike (Paired P L) s t (Management.show? w r id) := by
  rw [Management.show?]
  apply hcaller.bind
  intro caller s t h
  apply (runsAlike_parameter h id).bind
  intro publicId s t h
  apply runsAlike_state_bind
  · rw [h.registry, h.storage]
  apply (runsAlike_ofResult h _).bind
  intro row s' t' h
  split
  · exact runsAlike_fail h _
  · apply (runsAlike_ofResult h _).bind
    intro size s' t' h
    exact runsAlike_pure h _

theorem create (hcaller : RunsAlike (Paired P L) s t (Management.caller w r)) :
    RunsAlike (Paired P L) s t (Management.create w r) := by
  rw [Management.create]
  apply hcaller.bind
  intro caller s t h
  apply (h.createRequest r).bind
  intro request s t h
  dsimp only
  split
  · exact runsAlike_fail h _
  apply (h.project w caller request.projectUuid).bind
  intro project s t h
  apply runsAlike_state_bind
  · rw [h.registry]
  apply runsAlike_ofResult_bind h
  rintro ⟨registry, index⟩ hplaced
  obtain ⟨hready, -, hlive⟩ := Registry.create_eq_ok hplaced
  rw [Registry.ready_of_create hplaced] at hready
  -- The live rows that the caches know are found as before, so no cache has to change.
  have hafter : Paired P L { s with registry := registry } { t with registry := registry } :=
    h.withRegistry hready (h.coherent.1.of_findLive hlive)
      (h.coherent.2.of_findLive (h.registry ▸ hlive))
  apply (runsAlike_modify hafter).bind
  intro _ s' t' h
  exact runsAlike_pure h _

theorem delete (hcaller : RunsAlike (Paired P L) s t (Management.caller w r)) (id : Bytes) :
    RunsAlike (Paired P L) s t (Management.delete w r id) := by
  rw [Management.delete]
  apply hcaller.bind
  intro caller s t h
  apply (runsAlike_parameter h id).bind
  intro publicId s t h
  apply runsAlike_state_bind
  · rw [h.registry]
  apply runsAlike_ofResult_bind h
  rintro ⟨registry, done⟩ hmarked
  obtain ⟨hready, -, hother⟩ := Registry.delete_eq_ok hmarked
  rw [Registry.ready_of_delete hmarked] at hready
  -- The caches are coherent again only after the eviction, so the two changes are taken together.
  exact ⟨rfl, h.withRegistry hready (IndexCache.Coherent.evict h.coherent.1 hother)
    (IndexCache.Coherent.evict h.coherent.2 (h.registry ▸ hother))⟩

/-- A record in both logs, or in the one that there is, leaves the services paired. -/
theorem recorded (h : Paired P L s t) (hlog : KeepsRecording L) (w : Surroundings)
    (kind : TableKind) (uids : UidSet) (found : EncryptedTable) :
    Paired P L (Http.Callback.recorded w kind uids found s)
      (Http.Callback.recorded w kind uids found t) := by
  have hafter := hlog w kind uids found h.log
  obtain ⟨log, hs⟩ := Http.Callback.recorded_eq w kind uids found s
  obtain ⟨log', ht⟩ := Http.Callback.recorded_eq w kind uids found t
  rw [hs, ht] at hafter ⊢
  exact ⟨h.registry, h.found, h.coherent, h.storage, h.bodyLimit, h.files, h.isTenanted, h.tenancy,
    hafter⟩

/-- A fetch runs alike in paired services, and so do the other callbacks. -/
theorem fetch (h : Paired P L s t) (hlog : KeepsRecording L) (w : Surroundings) (kind : TableKind)
    (publicId : String) (body : Bytes) :
    RunsAlike (Paired P L) s t (Http.Callback.fetch w kind publicId body) := by
  have hlooked := h.looked publicId
  rw [RunsAlike, Http.Callback.run_fetch, Http.Callback.run_fetch, h.found, h.storage]
  split
  · exact ⟨rfl, hlooked⟩
  · split
    · exact ⟨rfl, hlooked⟩
    · exact ⟨rfl, hlooked.recorded hlog w kind _ _⟩

theorem upsert (h : Paired P L s t) (w : Surroundings) (publicId : String) (body : Bytes) :
    RunsAlike (Paired P L) s t (Http.Callback.upsert w publicId body) := by
  have hlooked := h.looked publicId
  rw [RunsAlike, Http.Callback.run_upsert, Http.Callback.run_upsert, h.found, h.storage]
  split
  · exact ⟨rfl, hlooked⟩
  · split
    · exact ⟨rfl, hlooked⟩
    · exact ⟨rfl, hlooked.withStorage _⟩

theorem insert (h : Paired P L s t) (w : Surroundings) (publicId : String) (body : Bytes) :
    RunsAlike (Paired P L) s t (Http.Callback.insert w publicId body) := by
  have hlooked := h.looked publicId
  rw [RunsAlike, Http.Callback.run_insert, Http.Callback.run_insert, h.found, h.storage]
  split
  · exact ⟨rfl, hlooked⟩
  · split
    · exact ⟨rfl, hlooked⟩
    · exact ⟨rfl, hlooked.withStorage _⟩

/-- A callback runs alike in paired services. -/
theorem answer (h : Paired P L s t) (hlog : KeepsRecording L) (c : Http.Callback)
    (w : Surroundings) (r : Http.Request) (id : Bytes) :
    RunsAlike (Paired P L) s t (c.answer w r id) := by
  rw [Http.Callback.answer]
  apply (runsAlike_parameter h id).bind
  intro publicId s t h
  apply (h.bodyWithin r).bind
  intro body s t h
  cases c with
  | fetchEntries => exact h.fetch hlog w .entries publicId body
  | fetchChains => exact h.fetch hlog w .chains publicId body
  | upsertEntries => exact h.upsert w publicId body
  | insertChains => exact h.insert w publicId body

section Logs

variable (h : Paired P Eq s t)

include h

theorem withLog (log : Option RequestLog) :
    Paired P Eq { s with log := log } { t with log := log } :=
  ⟨h.registry, h.found, h.coherent, h.storage, h.bodyLimit, h.files, h.isTenanted, h.tenancy, rfl⟩

theorem requestLog : RunsAlike (Paired P Eq) s t LogAccess.requestLog := by
  apply runsAlike_state_bind
  · rw [h.log]
  · split
    · exact runsAlike_pure h _
    · exact runsAlike_fail h _

theorem setTimeDiff (w : Surroundings) (time : String) :
    RunsAlike (Paired P Eq) s t (LogAccess.setTimeDiff w time) := by
  unfold LogAccess.setTimeDiff
  split
  · exact runsAlike_fail h _
  · apply h.requestLog.bind
    intro log s t h
    apply (runsAlike_ofResult h _).bind
    intro log s t h
    apply (runsAlike_modify (h.withLog (some log))).bind
    intro _ s t h
    exact runsAlike_pure h _

theorem read : RunsAlike (Paired P Eq) s t LogAccess.read := by
  apply h.requestLog.bind
  intro log s t h
  apply (runsAlike_ofResult h _).bind
  intro lines s t h
  exact runsAlike_pure h _

theorem reset : RunsAlike (Paired P Eq) s t LogAccess.reset := by
  apply h.requestLog.bind
  intro log s t h
  apply (runsAlike_ofResult h _).bind
  intro log s t h
  apply (runsAlike_modify (h.withLog (some log))).bind
  intro _ s t h
  exact runsAlike_pure h _

theorem exportTable (kind : TableKind) (publicId : String) :
    RunsAlike (Paired P Eq) s t (LogAccess.exportTable kind publicId) := by
  have hindex : RunsAlike (Paired P Eq) s t (cachedIndex publicId) := by
    rw [RunsAlike, run_cachedIndex, run_cachedIndex]
    have hfound := h.found publicId
    rw [Service.found, Service.found] at hfound
    rw [hfound]
    exact ⟨rfl, h.looked publicId⟩
  apply hindex.bind
  intro index s t h
  apply runsAlike_state_bind
  · rw [h.storage]
  apply (runsAlike_ofResult h _).bind
  intro table s' t' h
  exact runsAlike_pure h _

end Logs

theorem keepsRecording_eq : KeepsRecording Eq := by
  intro w kind uids found s t h
  unfold Http.Callback.recorded
  rw [h]
  split
  · exact h
  · rfl

/-- Every action on another route than those of the log runs alike in paired services, if the caller that
it resolves is the same in both. -/
theorem runsAlike_action?_of_offLog (h : Paired P L s t) (hlog : KeepsRecording L) {method : String}
    {route : Http.Route} {a : Action Http.Response} (ha : action? w r method route = some a)
    (hoff : route.isOnLog = false)
    (hcaller : (∀ c id, route ≠ .callback c id) →
      RunsAlike (Paired P L) s t (Management.caller w r)) :
    RunsAlike (Paired P L) s t a := by
  unfold action? at ha
  split at ha <;> cases ha
  case h_1 => exact runsAlike_pure h _
  case h_2 => exact list (hcaller fun _ _ => by simp)
  case h_3 => exact create (hcaller fun _ _ => by simp)
  case h_4 => exact show? (hcaller fun _ _ => by simp) _
  case h_5 => exact delete (hcaller fun _ _ => by simp) _
  case h_6 => exact h.answer hlog _ w r _
  case h_7 | h_8 | h_9 | h_10 => cases hoff

/-- Every action runs alike in services that are paired with the same log. -/
theorem runsAlike_action? (h : Paired P Eq s t) {method : String} {route : Http.Route}
    {a : Action Http.Response} (ha : action? w r method route = some a)
    (hcaller : (∀ c id, route ≠ .callback c id) →
      RunsAlike (Paired P Eq) s t (Management.caller w r)) :
    RunsAlike (Paired P Eq) s t a := by
  cases hon : route.isOnLog with
  | false => exact h.runsAlike_action?_of_offLog keepsRecording_eq ha hon hcaller
  | true =>
    -- the four routes of the log, each of which does the same to both
    unfold action? at ha
    split at ha <;> cases ha
    case h_1 | h_2 | h_3 | h_4 | h_5 | h_6 => cases hon
    case h_7 =>
      apply (runsAlike_parameter h _).bind
      intro time s t h
      exact h.setTimeDiff w time
    case h_8 => exact h.read
    case h_9 => exact h.reset
    case h_10 =>
      apply (runsAlike_parameter h _).bind
      intro publicId s t h
      exact h.exportTable _ publicId

/-- The caller of a request that is no callback is all that has to be resolved alike. -/
theorem caller_of_route (h : Paired P L s t) {logged : Bool} {route : Http.Route}
    (hroute : Http.Route.ofPath? logged r.path = some route)
    (hcaller : ¬ r.IsCallback →
      Management.callerOf s.tenancy w r = Management.callerOf t.tenancy w r ∧
        P (Management.tenancyAfter s.tenancy w r) (Management.tenancyAfter t.tenancy w r))
    (hother : ∀ c id, route ≠ .callback c id) :
    RunsAlike (Paired P L) s t (Management.caller w r) := by
  -- The route is not the one of a callback, so neither is the path.
  have hrequest : ¬ r.IsCallback := by
    rintro ⟨-, c, id, hpath⟩
    rw [Http.Route.ofPath?_eq_callback_iff.2 hpath] at hroute
    exact hother c id (Option.some.inj hroute).symm
  obtain ⟨hsame, hkept⟩ := hcaller hrequest
  exact h.caller hsame hkept

/-- Paired services answer a request the same and stay paired, if its caller, should it not be a callback,
is resolved alike. -/
theorem respond (h : Paired P Eq s t)
    (hcaller : ¬ r.IsCallback →
      Management.callerOf s.tenancy w r = Management.callerOf t.tenancy w r ∧
        P (Management.tenancyAfter s.tenancy w r) (Management.tenancyAfter t.tenancy w r)) :
    (s.respond w r).2 = (t.respond w r).2 ∧
      Paired P Eq (s.respond w r).1 (t.respond w r).1 := by
  apply respond_alike h h.files
  · rw [h.log]
  · intro route hroute method a haction
    exact h.runsAlike_action? haction (h.caller_of_route hroute hcaller)

/-- Paired services stay paired through a run of requests, by a relation between their tenancies that may
weaken as time passes. -/
theorem respondAll {T : Nat → Option Tenancy → Option Tenancy → Prop} {since : Nat}
    {calls : List (Surroundings × Http.Request)} (h : Paired (T since) Eq s t)
    (hweakens : ∀ {since now : Nat} {a b}, T since a b → since ≤ now → T now a b)
    (hsince : ∀ call ∈ calls, since ≤ call.1.uptime)
    (hordered : calls.Pairwise fun a b => a.1.uptime ≤ b.1.uptime)
    (hcallers : ∀ call ∈ calls, ¬ call.2.IsCallback → ∀ a b, T call.1.uptime a b →
      Management.callerOf a call.1 call.2 = Management.callerOf b call.1 call.2 ∧
        T call.1.uptime (Management.tenancyAfter a call.1 call.2)
          (Management.tenancyAfter b call.1 call.2)) :
    s.AnswersAs t calls := by
  -- By induction on the calls: the tenancies are related at the time of the next one.
  induction calls generalizing s t since with
  | nil => exact ⟨rfl, h.registry, h.storage⟩
  | cons call later ih =>
    obtain ⟨w, r⟩ := call
    obtain ⟨hfirst, hrest⟩ := List.pairwise_cons.1 hordered
    have hnow := hweakens h.tenancy (hsince (w, r) List.mem_cons_self)
    obtain ⟨hanswer, hafter⟩ := (h.withTenancies hnow).respond fun hother =>
      hcallers (w, r) List.mem_cons_self hother _ _ hnow
    obtain ⟨hanswers, hend⟩ := ih hafter hfirst hrest
      fun call hmem => hcallers call (List.mem_cons_of_mem _ hmem)
    exact ⟨congrArg₂ List.cons hanswer hanswers, hend⟩

end Paired
end Service
end IndexVault
