import IndexVault.Tenancy.Identity

namespace IndexVault.IdentityProvider

variable {p : IdentityProvider} {token subject : String} {now : Nat}

/-- A token for which the reply gives a subject is kept. -/
theorem receive_of_ok {reply : Reply} (h : subjectOf reply = .ok subject) :
    p.receive token reply now = (p.remember token subject now, .ok ⟨subject, some token⟩) := by
  rw [receive, h]

/-- Nothing is kept of a reply that gives no subject. -/
theorem receive_of_error {reply : Reply} {e : Failure} (h : subjectOf reply = .error e) :
    p.receive token reply now = (p, .error e) := by
  rw [receive, h]

/-- A token is resolved from the cache, or by the provider, or not at all. -/
theorem validate_cases (p : IdentityProvider) (service : RemoteService) (token : String)
    (now : Nat) :
    (∃ subject, p.cached? token now = some subject ∧
        p.validate service token now = (p, .ok ⟨subject, some token⟩)) ∨
      (∃ subject, p.cached? token now = none ∧ subjectOf (service.ask token) = .ok subject ∧
        p.validate service token now =
          (p.remember token subject now, .ok ⟨subject, some token⟩)) ∨
      ∃ e, p.cached? token now = none ∧ subjectOf (service.ask token) = .error e ∧
        p.validate service token now = (p, .error e) := by
  cases hcached : p.cached? token now with
  | some subject =>
    refine Or.inl ⟨subject, rfl, ?_⟩
    simp only [validate, hcached]
  | none =>
    cases hsubject : subjectOf (service.ask token) with
    | ok subject =>
      refine Or.inr (Or.inl ⟨subject, rfl, rfl, ?_⟩)
      simp only [validate, hcached, receive_of_ok hsubject]
    | error e =>
      refine Or.inr (Or.inr ⟨e, rfl, rfl, ?_⟩)
      simp only [validate, hcached, receive_of_error hsubject]

/-- A caller carries the token that was validated. -/
theorem bearer_of_validate {service : RemoteService} {caller : Caller}
    (h : (p.validate service token now).2 = .ok caller) : caller.bearer = some token := by
  rcases p.validate_cases service token now with
    ⟨subject, -, hrun⟩ | ⟨subject, -, -, hrun⟩ | ⟨e, -, -, hrun⟩ <;> rw [hrun] at h <;> cases h <;> rfl

/-- Whatever is kept was kept before or has just been received. -/
theorem get?_remember {other : String} {c : CachedToken}
    (h : (p.remember token subject now).tokens.get? other = some c) :
    other = token ∧ c = ⟨subject, now + p.lifetime⟩ ∨ p.tokens.get? other = some c := by
  by_cases hother : other = token
  · subst hother
    rw [remember, SortedMap.get?_insert_self] at h
    exact Or.inl ⟨rfl, (Option.some.inj h).symm⟩
  · rw [remember, SortedMap.get?_insert_of_ne _ hother, SortedMap.get?_filter] at h
    exact Or.inr (Option.filter_eq_some_iff.1 h).1

theorem cached?_eq_some (h : p.cached? token now = some subject) :
    ∃ c, p.tokens.get? token = some c ∧ c.subject = subject ∧ now < c.expiresAt := by
  unfold cached? at h
  split at h
  · rename_i c hc
    split at h
    · rename_i hnow
      exact ⟨c, hc, Option.some.inj h, hnow⟩
    · cases h
  · cases h

theorem cached?_eq_none (h : ∀ c, p.tokens.get? token = some c → c.expiresAt ≤ now) :
    p.cached? token now = none := by
  apply Option.eq_none_iff_forall_ne_some.2
  intro subject hcached
  obtain ⟨c, hc, -, halive⟩ := cached?_eq_some hcached
  have hexpired := h c hc
  omega

/-- No reply gives the empty subject. -/
theorem ne_empty_of_subjectOf {reply : Reply} (h : subjectOf reply = .ok subject) :
    subject ≠ "" := by
  -- a reply is refused for its status, its text, or its members; then the subject is looked at
  unfold subjectOf at h
  split at h
  · cases h
  split at h
  · cases h
  split at h
  · cases h
  split at h
  · cases h
  · cases h
  · split at h
    · cases h
    · rename_i hnonempty
      cases h
      rintro rfl
      exact hnonempty rfl

end IndexVault.IdentityProvider
