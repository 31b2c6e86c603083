import IndexVault.Proofs.Service.FinalDeletion
import IndexVault.Proofs.Service.PairedRuns
import IndexVault.Proofs.Service.TenantAccess
import IndexVault.Proofs.Tenancy.AgreeingTokens

namespace IndexVault

open IndexVault.Action
open IdentityProvider (AgreeSince subjectOf)

/-- Nobody's index goes by a public id, or only those of other owners do. -/
def Registry.Withholds (r : Registry) (publicId subject : String) : Prop :=
  ∀ i ∈ r.rows, i.publicId = publicId → i.authzId ≠ subject

namespace Registry.Withholds

variable {r : Registry} {publicId subject : String}

/-- A public id that is withheld from a subject leads to no index of that subject. -/
theorem filter_findLive (h : r.Withholds publicId subject) :
    (r.findLive publicId).filter (fun i => i.authzId == subject) = none := by
  cases hfound : r.findLive publicId with
  | none => rfl
  | some i =>
    obtain ⟨hi, hid, -⟩ := Registry.findLive_spec hfound
    rw [Option.filter_some, if_neg]
    intro howner
    exact h i hi hid (eq_of_beq howner)

/-- A deletion by someone else marks no row. -/
theorem delete_eq (h : r.Withholds publicId subject) (now : Moment) :
    r.delete publicId subject now = r.ready.map fun _ => (r, false) := by
  have hkept : ∀ i ∈ r.rows, isDeletable publicId subject i = false := by
    intro i hi
    rw [isDeletable, Bool.and_eq_false_iff, Bool.and_eq_false_iff, beq_eq_false_iff_ne,
      beq_eq_false_iff_ne]
    by_cases hid : i.publicId = publicId
    · exact Or.inl (Or.inr (h i hi hid))
    · exact Or.inl (Or.inl hid)
  -- The update passes over every row, and says that it changed none.
  have hrows : (r.rows.map fun i =>
      if isDeletable publicId subject i then { i with deletedAt := some now } else i) = r.rows := by
    conv_rhs => rw [← List.map_id r.rows]
    apply List.map_congr_left
    intro i hi
    rw [hkept i hi]
    rfl
  have hnone : r.rows.any (isDeletable publicId subject) = false := by
    rw [List.any_eq_false]
    intro i hi
    rw [hkept i hi]
    exact Bool.false_ne_true
  rw [delete, hrows, hnone]
  cases r.ready <;> rfl

end Registry.Withholds

namespace Management

/-- A caller is resolved by a bearer token that the provider vouches for. -/
theorem callerOf_eq_ok {tenancy : Tenancy} {w : Surroundings} {r : Http.Request} {caller : Caller}
    (h : callerOf (some tenancy) w r = .ok caller) :
    ∃ token, Bearer.token (r.header "authorization") = .ok token ∧ caller.bearer = some token ∧
      (tenancy.identity.validate w.userInfo token w.uptime).2 =
        .ok ⟨caller.authzId, some token⟩ := by
  rw [callerOf] at h
  cases hbearer : Bearer.token (r.header "authorization") with
  | error e =>
    rw [hbearer] at h
    cases h
  | ok token =>
    rw [hbearer] at h
    have hsame := IdentityProvider.bearer_of_validate h
    refine ⟨token, rfl, hsame, ?_⟩
    rw [← hsame]
    exact h

section Withheld

variable {s : Service} {w : Surroundings} {r : Http.Request} {id : Bytes} {publicId : String}
  {caller : Caller} (hcaller : callerOf s.tenancy w r = .ok caller)
  (hid : Http.Route.parameter? id = some publicId)
  (hwithheld : s.registry.Withholds publicId caller.authzId)

include hcaller hid hwithheld

/-- An index of another owner is answered as one that does not exist. -/
theorem run_show?_of_withheld :
    (show? w r id).run s =
      ((match s.registry.ready with
        | .ok _ => .error (.failure (.unknownIndex publicId))
        | .error e => .error (.failure e)), s.identified w r) := by
  have hcalled := run_caller w r s
  rw [hcaller] at hcalled
  rw [show?, Attempt.run_bind_of_ok hcalled, Attempt.run_bind_of_ok (run_parameter hid _)]
  change (ofResult (s.registry.get? publicId) >>= _).run (s.identified w r) = _
  cases hready : s.registry.ready with
  | error e =>
    have hget : s.registry.get? publicId = .error e := by
      rw [Registry.get?, hready]
      rfl
    rw [hget]
    rfl
  | ok _ =>
    have hget : s.registry.get? publicId = .ok (s.registry.findLive publicId) :=
      Registry.get?_eq_ok_iff.2 ⟨hready, rfl⟩
    rw [hget, Attempt.run_bind_of_ok (run_ofResult _ _), hwithheld.filter_findLive]
    rfl

/-- A deletion that applies to no row evicts the public id, and nothing more. -/
theorem run_delete_of_withheld :
    (delete w r id).run s =
      match s.registry.ready with
      | .ok _ => (.ok (.ok .null), { s.identified w r with cache := s.cache.evict publicId })
      | .error e => (.error (.failure e), s.identified w r) := by
  have hcalled := run_caller w r s
  rw [hcaller] at hcalled
  rw [delete, Attempt.run_bind_of_ok hcalled, Attempt.run_bind_of_ok (run_parameter hid _)]
  change (ofResult (s.registry.delete publicId caller.authzId w.moment) >>= _).run
    (s.identified w r) = _
  rw [hwithheld.delete_eq]
  cases s.registry.ready <;> rfl

end Withheld

end Management

namespace Service

/-- The answer to a request for which the registry is needed but does not answer. -/
def failedAnswer (e : Failure) : Http.Response :=
  { Http.answered (.error (.failure e)) with allowOrigin := some "*" }

section Withheld

variable {s t : Service} {w : Surroundings} {r : Http.Request} {id : Bytes} {publicId : String}
  {caller : Caller} (hcaller : Management.callerOf s.tenancy w r = .ok caller)
  (hroute : Http.Route.ofPath? s.log.isSome r.path = some (.index id))
  (hid : Http.Route.parameter? id = some publicId)
  (hwithheld : s.registry.Withholds publicId caller.authzId)

include hcaller hroute hid hwithheld

/-- Showing an index of another owner is answered by whether the database answers, and by nothing else. -/
theorem show_of_withheld (hmethod : r.method = "GET") :
    (s.respond w r).2 = match s.registry.ready with
      | .ok _ => unknownIndexAnswer publicId
      | .error e => failedAnswer e := by
  have ha : action? w r "GET" (.index id) = some (Management.show? w r id) := rfl
  rw [respond_of_action? hmethod (by decide) hroute ha,
    Management.run_show?_of_withheld hcaller hid hwithheld]
  cases s.registry.ready with
  | error e => rfl
  | ok _ => exact answered_unknownIndex publicId

/-- So is deleting it. -/
theorem delete_of_withheld (hmethod : r.method = "DELETE") :
    s.respond w r = match s.registry.ready with
      | .ok _ => ({ s.identified w r with cache := s.cache.evict publicId }, deletedAnswer)
      | .error e => (s.identified w r, failedAnswer e) := by
  have ha : action? w r "DELETE" (.index id) = some (Management.delete w r id) := rfl
  rw [respond_of_action? hmethod (by decide) hroute ha,
    Management.run_delete_of_withheld hcaller hid hwithheld]
  cases s.registry.ready <;> rfl

end Withheld

/-- Two tenancies resolve callers alike from some time on, as long as one token is one of a subject. -/
def TokensAgree (token subject : String) (since : Nat) (a b : Option Tenancy) : Prop :=
  ∃ x y, a = some x ∧ b = some y ∧ AgreeSince token subject since x.identity y.identity

variable {s : Service} {w : Surroundings} {r : Http.Request} {id : Bytes} {publicId : String}
  {caller : Caller} {token subject : String}

/-- Tokens that agree go on agreeing while time passes. -/
theorem TokensAgree.mono {a b : Option Tenancy} {since now : Nat}
    (h : TokensAgree token subject since a b) (hle : since ≤ now) :
    TokensAgree token subject now a b := by
  obtain ⟨x, y, ha, hb, hagree⟩ := h
  exact ⟨x, y, ha, hb, hagree.mono hle⟩

/-- Where tokens agree the same caller is resolved. -/
theorem TokensAgree.callerOf_eq {a b : Option Tenancy} (h : TokensAgree token subject w.uptime a b)
    (hsubject : Bearer.token (r.header "authorization") = .ok token →
      subjectOf (w.userInfo.ask token) = .ok subject) :
    Management.callerOf a w r = Management.callerOf b w r ∧
      TokensAgree token subject w.uptime (Management.tenancyAfter a w r)
        (Management.tenancyAfter b w r) := by
  obtain ⟨x, y, rfl, rfl, hagree⟩ := h
  rw [Management.callerOf, Management.callerOf, Management.tenancyAfter, Management.tenancyAfter]
  cases hbearer : Bearer.token (r.header "authorization") with
  | error e => exact ⟨rfl, x, y, rfl, rfl, hagree⟩
  | ok other =>
    have hown : other = token → subjectOf (w.userInfo.ask token) = .ok subject := by
      rintro rfl
      exact hsubject hbearer
    obtain ⟨hanswer, hafter⟩ := hagree.validate (Nat.le_refl _) hown
    exact ⟨hanswer, _, _, rfl, rfl, hafter⟩

section Withheld

variable (hcaller : Management.callerOf s.tenancy w r = .ok caller)
  (hroute : Http.Route.ofPath? s.log.isSome r.path = some (.index id))
  (hid : Http.Route.parameter? id = some publicId)
  (hwithheld : s.registry.Withholds publicId caller.authzId) (hmethod : r.method = "DELETE")

include hcaller hroute hid hwithheld hmethod

/-- The rows and the lines stay as they were. -/
theorem stores_of_withheld :
    (s.respond w r).1.registry = s.registry ∧ (s.respond w r).1.storage = s.storage := by
  rw [delete_of_withheld hcaller hroute hid hwithheld hmethod]
  cases s.registry.ready <;> exact ⟨rfl, rfl⟩

/-- A deletion that finds nothing to delete does no more than resolve its caller. -/
theorem paired_identified_of_withheld (hcoherent : s.Coherent) :
    Paired Eq Eq (s.respond w r).1 (s.identified w r) := by
  have hsame : Paired Eq Eq (s.identified w r) (s.identified w r) :=
    ⟨rfl, fun _ => rfl, ⟨hcoherent, hcoherent⟩, rfl, rfl, rfl, rfl, rfl, rfl⟩
  rw [delete_of_withheld hcaller hroute hid hwithheld hmethod]
  cases hready : s.registry.ready with
  | error e => exact hsame
  | ok _ =>
    -- What was evicted is found again in the registry.
    exact hsame.withRegistry hready (IndexCache.Coherent.evict hcoherent fun _ _ => rfl) hcoherent

/-- After such a deletion the service is paired with the one before it. -/
theorem paired_of_withheld {tenancy : Tenancy} (htenancy : s.tenancy = some tenancy)
    (hcoherent : s.Coherent) : ∃ token, caller.bearer = some token ∧
      Paired (TokensAgree token caller.authzId w.uptime) Eq (s.respond w r).1 s := by
  have h := paired_identified_of_withheld hcaller hroute hid hwithheld hmethod hcoherent
  have hresolved := hcaller
  rw [htenancy] at hresolved
  obtain ⟨token, hbearer, hsame, hvalid⟩ := Management.callerOf_eq_ok hresolved
  -- The token may be kept now that was not before, and that is all that differs.
  have htokens : TokensAgree token caller.authzId w.uptime
      (Management.tenancyAfter s.tenancy w r) s.tenancy := by
    rw [htenancy, Management.tenancyAfter, hbearer]
    exact ⟨_, _, rfl, rfl, (IdentityProvider.agreeSince_validate hvalid).symm⟩
  have htenanted := h.isTenanted.trans (Management.isSome_tenancyAfter s.tenancy w r)
  exact ⟨token, hsame, h.registry, h.found, h.coherent, h.storage, h.bodyLimit, h.files, htenanted,
    h.tenancy ▸ htokens, h.log⟩

end Withheld

/-- In a service with many tenants, take a caller and a public id under which the caller owns no index.
Whether there is one of another owner, live or deleted and with any lines, or none at all, showing and
deleting it are answered the same. And the deletion leaves the rows and the lines as they were, and every
later run of requests, of owners or callbacks, is answered as if the deletion had only resolved its
caller, and as if it had not been sent at all, as long as the provider gives the same subject for the
token that it came with. -/
theorem foreign_indexes_hidden {tenancy : Tenancy} (htenancy : s.tenancy = some tenancy)
    (hcaller : Management.callerOf s.tenancy w r = .ok caller)
    (hroute : Http.Route.ofPath? s.log.isSome r.path = some (.index id))
    (hid : Http.Route.parameter? id = some publicId)
    (hforeign : ∀ i ∈ s.registry.rows, i.publicId = publicId → i.authzId ≠ caller.authzId) :
    (∀ t : Service, t.tenancy = s.tenancy → t.log = s.log →
      t.registry.ready = s.registry.ready → (∀ i ∈ t.registry.rows, i.publicId ≠ publicId) →
      r.method = "GET" ∨ r.method = "DELETE" → (t.respond w r).2 = (s.respond w r).2) ∧
    (r.method = "DELETE" →
      (s.respond w r).1.registry = s.registry ∧ (s.respond w r).1.storage = s.storage ∧
      (s.Coherent → ∀ calls : List (Surroundings × Http.Request),
        (((w, r) :: calls).Pairwise fun a b => a.1.uptime ≤ b.1.uptime) →
        (s.respond w r).1.AnswersAs (s.identified w r) calls ∧
        ((∀ call ∈ calls, ¬ call.2.IsCallback → ∀ token, caller.bearer = some token →
          Bearer.token (call.2.header "authorization") = .ok token →
            subjectOf (call.1.userInfo.ask token) = .ok caller.authzId) →
          (s.respond w r).1.AnswersAs s calls))) := by
  have hwithheld : s.registry.Withholds publicId caller.authzId := hforeign
  refine ⟨?hidden, fun hmethod => ?undisturbed⟩
  case hidden =>
    intro t htenancy' hlog hready habsent hmethod
    have hwithheld' : t.registry.Withholds publicId caller.authzId :=
      fun i hi hpublic => absurd hpublic (habsent i hi)
    have hcaller' : Management.callerOf t.tenancy w r = .ok caller := htenancy' ▸ hcaller
    have hroute' : Http.Route.ofPath? t.log.isSome r.path = some (.index id) := hlog ▸ hroute
    -- Neither answer tells more than whether the registry answers at all.
    rcases hmethod with hget | hdelete
    · rw [show_of_withheld hcaller hroute hid hwithheld hget,
        show_of_withheld hcaller' hroute' hid hwithheld' hget, hready]
    · rw [delete_of_withheld hcaller hroute hid hwithheld hdelete,
        delete_of_withheld hcaller' hroute' hid hwithheld' hdelete, hready]
      cases s.registry.ready <;> rfl
  case undisturbed =>
    obtain ⟨hregistry, hstorage⟩ := stores_of_withheld hcaller hroute hid hwithheld hmethod
    refine ⟨hregistry, hstorage, fun hcoherent calls hordered => ?_⟩
    obtain ⟨hsince, hlater⟩ := List.pairwise_cons.1 hordered
    refine ⟨?identified, fun hsubject => ?unsent⟩
    case identified =>
      have hpaired := paired_identified_of_withheld hcaller hroute hid hwithheld hmethod hcoherent
      apply hpaired.respondAll (T := fun _ => Eq) (fun h _ => h) hsince hlater
      rintro call - - a _ rfl
      exact ⟨rfl, rfl⟩
    case unsent =>
      obtain ⟨token, hbearer, hpaired⟩ :=
        paired_of_withheld hcaller hroute hid hwithheld hmethod htenancy hcoherent
      apply hpaired.respondAll TokensAgree.mono hsince hlater
      intro call hmem hother a b hagree
      exact hagree.callerOf_eq (hsubject call hmem hother token hbearer)

/-- A service with many tenants and one index, which is not of the subject of `oneSubject`. -/
def withOthersIndex : Service := { manyTenants with registry.rows := [onlyIndex] }

/-- A request that this subject sends about the index. -/
def foreignDeletion : Http.Request := { tenantDeletion with target := "/indexes/abcde" }

/-- A request of the owner of the index, who comes with another token. -/
def ownersRequest : Http.Request where
  method := "GET"
  target := "/indexes/abcde"
  headers := [("authorization", Bytes.ofText "Bearer t1")]

def ofOwner : Surroundings :=
  { atEpoch with userInfo := fun _ => .answered 200 (Bytes.ofText "\x7b\"sub\":\"owner\"\x7d") }

theorem foreign_indexes_hidden_withOthersIndex :
    withOthersIndex.registry.rows = [onlyIndex] ∧ manyTenants.registry.rows = [] ∧
      Management.callerOf withOthersIndex.tenancy oneSubject foreignDeletion =
        .ok ⟨"alice", some "t0"⟩ ∧
      (manyTenants.respond oneSubject foreignDeletion).2 =
        (withOthersIndex.respond oneSubject foreignDeletion).2 ∧
      (withOthersIndex.respond oneSubject foreignDeletion).1.registry = withOthersIndex.registry ∧
      (withOthersIndex.respond ofOwner ownersRequest).2.status = 200 ∧
      (withOthersIndex.respond oneSubject foreignDeletion).1.AnswersAs withOthersIndex
        [(ofOwner, ownersRequest)] := by
  have hcaller : Management.callerOf withOthersIndex.tenancy oneSubject foreignDeletion =
      .ok ⟨"alice", some "t0"⟩ := by
    rfl
  have hroute : Http.Route.ofPath? withOthersIndex.log.isSome foreignDeletion.path =
      some (.index (Bytes.ofText "abcde")) := by
    decide +kernel
  have hforeign : ∀ i ∈ withOthersIndex.registry.rows, i.publicId = "abcde" → i.authzId ≠ "alice" := by
    decide
  obtain ⟨hhidden, hdeleting⟩ :=
    foreign_indexes_hidden rfl hcaller hroute (by decide +kernel) hforeign
  obtain ⟨hregistry, -, hlater⟩ := hdeleting rfl
  have hcoherent : withOthersIndex.Coherent := IndexCache.coherent_of_empty rfl _
  have hordered : [(oneSubject, foreignDeletion), (ofOwner, ownersRequest)].Pairwise
      fun a b => a.1.uptime ≤ b.1.uptime := by
    decide
  refine ⟨rfl, rfl, hcaller, hhidden manyTenants rfl rfl rfl ?_ (Or.inr rfl), hregistry, ?_,
    (hlater hcoherent _ hordered).2 ?_⟩
  · intro i hi
    cases hi
  · decide +kernel
  · rintro call hmem - token hbearer htoken
    cases List.mem_singleton.1 hmem
    cases hbearer
    exact absurd htoken (by decide +kernel)

end Service
end IndexVault
