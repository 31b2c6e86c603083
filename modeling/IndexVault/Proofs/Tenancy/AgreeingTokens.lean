import IndexVault.Proofs.Tenancy.KeptTokens

namespace IndexVault.IdentityProvider

variable {p q : IdentityProvider} {token other subject : String} {since now : Nat}
  {service : RemoteService} {c : CachedToken}

/-- A token is found until the moment at which it expires. -/
theorem cached?_eq_some_iff : p.cached? token now = some subject ↔
    ∃ c, p.tokens.get? token = some c ∧ c.subject = subject ∧ now < c.expiresAt := by
  constructor
  · exact cached?_eq_some
  · rintro ⟨c, hc, rfl, hnow⟩
    rw [cached?, hc]
    exact if_pos hnow

theorem get?_remember_of_ne (hother : other ≠ token) (halive : now < c.expiresAt) :
    (p.remember token subject now).tokens.get? other = some c ↔ p.tokens.get? other = some c := by
  rw [remember, SortedMap.get?_insert_of_ne _ hother, SortedMap.get?_filter,
    Option.filter_eq_some_iff]
  simp [halive]

/-- Resolving a token touches no other token that has not expired. -/
theorem get?_validate_of_ne (hother : other ≠ token) (halive : now < c.expiresAt) :
    (p.validate service token now).1.tokens.get? other = some c ↔
      p.tokens.get? other = some c := by
  rcases p.validate_cases service token now with
    ⟨subject, -, hrun⟩ | ⟨subject, -, -, hrun⟩ | ⟨e, -, -, hrun⟩
  · rw [hrun]
  · rw [hrun]
    exact get?_remember_of_ne hother halive
  · rw [hrun]

/-- What is kept of a token once it was resolved, and has not expired, was answered. -/
theorem validate_of_kept (hc : (p.validate service token now).1.tokens.get? token = some c)
    (halive : now < c.expiresAt) :
    (p.validate service token now).2 = .ok ⟨c.subject, some token⟩ := by
  rcases p.validate_cases service token now with
    ⟨subject, hcached, hrun⟩ | ⟨subject, -, -, hrun⟩ | ⟨e, hcached, -, hrun⟩
  · rw [hrun] at hc ⊢
    obtain ⟨c', hc', rfl, -⟩ := cached?_eq_some hcached
    cases hc'.symm.trans hc
    rfl
  · rw [hrun] at hc ⊢
    rw [remember, SortedMap.get?_insert_self] at hc
    cases hc
    rfl
  · -- A token that was asked for was not kept, or had expired.
    rw [hrun] at hc
    have hkept : p.cached? token now = some c.subject :=
      cached?_eq_some_iff.2 ⟨c, hc, rfl, halive⟩
    cases hcached.symm.trans hkept

/-- Of all that has not expired by some time, two providers keep the same for every token but one, and for
that one nothing but its subject. -/
structure AgreeSince (token subject : String) (since : Nat) (p q : IdentityProvider) : Prop where
  lifetime : p.lifetime = q.lifetime
  others : ∀ other, other ≠ token → ∀ c : CachedToken, since < c.expiresAt →
    (p.tokens.get? other = some c ↔ q.tokens.get? other = some c)
  own : ∀ c : CachedToken, since < c.expiresAt →
    p.tokens.get? token = some c ∨ q.tokens.get? token = some c → c.subject = subject

/-- A provider agrees with what it is once the token was resolved. -/
theorem agreeSince_validate (h : (p.validate service token now).2 = .ok ⟨subject, some token⟩) :
    AgreeSince token subject now p (p.validate service token now).1 := by
  refine ⟨?_, fun other hother c halive => (get?_validate_of_ne hother halive).symm, ?_⟩
  · rcases p.validate_cases service token now with
      ⟨_, -, hrun⟩ | ⟨_, -, -, hrun⟩ | ⟨_, -, -, hrun⟩ <;> rw [hrun]
    rfl
  · rintro c halive (hbefore | hafter)
    · have hkept : p.cached? token now = some c.subject :=
        cached?_eq_some_iff.2 ⟨c, hbefore, rfl, halive⟩
      rw [validate, hkept] at h
      cases h
      rfl
    · rw [validate_of_kept hafter halive] at h
      cases h
      rfl

namespace AgreeSince

/-- Providers that agree go on agreeing, for what they keep can only expire. -/
theorem mono (h : AgreeSince token subject since p q) (hle : since ≤ now) :
    AgreeSince token subject now p q :=
  ⟨h.lifetime, fun other hother c halive => h.others other hother c (Nat.lt_of_le_of_lt hle halive),
    fun c halive => h.own c (Nat.lt_of_le_of_lt hle halive)⟩

theorem cached?_eq (h : AgreeSince token subject since p q) (hle : since ≤ now)
    (hother : other ≠ token) : p.cached? other now = q.cached? other now := by
  apply Option.ext
  intro found
  rw [cached?_eq_some_iff, cached?_eq_some_iff]
  constructor
  · rintro ⟨c, hc, hfound, halive⟩
    have hq := (h.others other hother c (Nat.lt_of_le_of_lt hle halive)).1 hc
    exact ⟨c, hq, hfound, halive⟩
  · rintro ⟨c, hc, hfound, halive⟩
    have hp := (h.others other hother c (Nat.lt_of_le_of_lt hle halive)).2 hc
    exact ⟨c, hp, hfound, halive⟩

/-- A validation of another token comes to the same with both, and they agree afterwards. -/
theorem validate_other (h : AgreeSince token subject since p q) (hle : since ≤ now)
    (hother : other ≠ token) :
    (p.validate service other now).2 = (q.validate service other now).2 ∧
      AgreeSince token subject now (p.validate service other now).1
        (q.validate service other now).1 := by
  have hnow := h.mono hle
  have hcached := h.cached?_eq hle hother
  rw [validate, validate, ← hcached]
  cases p.cached? other now with
  | some found => exact ⟨rfl, hnow⟩
  | none =>
    dsimp only
    cases hsubject : subjectOf (service.ask other) with
    | error e =>
      rw [receive_of_error hsubject, receive_of_error hsubject]
      exact ⟨rfl, hnow⟩
    | ok found =>
      rw [receive_of_ok hsubject, receive_of_ok hsubject]
      -- Both providers keep the same new token, and drop only what has expired by now.
      refine ⟨rfl, h.lifetime, fun third hthird c halive => ?_, fun c halive hkept => ?_⟩
      · by_cases hsame : third = other
        · rw [hsame, remember, remember, SortedMap.get?_insert_self, SortedMap.get?_insert_self,
            h.lifetime]
        · rw [get?_remember_of_ne hsame halive, get?_remember_of_ne hsame halive]
          exact hnow.others third hthird c halive
      · rw [get?_remember_of_ne hother.symm halive, get?_remember_of_ne hother.symm halive] at hkept
        exact hnow.own c halive hkept

theorem symm (h : AgreeSince token subject since p q) : AgreeSince token subject since q p :=
  ⟨h.lifetime.symm, fun other hother c halive => (h.others other hother c halive).symm,
    fun c halive hkept => h.own c halive hkept.symm⟩

theorem validate_own_snd (h : AgreeSince token subject since p q) (hle : since ≤ now)
    (hsubject : subjectOf (service.ask token) = .ok subject) :
    (p.validate service token now).2 = .ok ⟨subject, some token⟩ := by
  cases hcached : p.cached? token now with
  | some found =>
    obtain ⟨c, hc, rfl, halive⟩ := cached?_eq_some hcached
    rw [validate, hcached, h.own c (Nat.lt_of_le_of_lt hle halive) (Or.inl hc)]
  | none =>
    rw [validate, hcached]
    exact congrArg Prod.snd (receive_of_ok hsubject)

/-- The token itself is resolved to its subject with both, whether it was kept or is asked for. -/
theorem validate_own (h : AgreeSince token subject since p q) (hle : since ≤ now)
    (hsubject : subjectOf (service.ask token) = .ok subject) :
    (p.validate service token now).2 = (q.validate service token now).2 ∧
      AgreeSince token subject now (p.validate service token now).1
        (q.validate service token now).1 := by
  have hp := h.validate_own_snd hle hsubject
  have hq := h.symm.validate_own_snd hle hsubject
  -- Each provider agrees with what it was before, and these two agree with each other.
  have hfirst := agreeSince_validate hp
  have hlast := agreeSince_validate hq
  have hnow := h.mono hle
  refine ⟨hp.trans hq.symm, ?_, fun other hother c halive => ?_, fun c halive hkept => ?_⟩
  · exact hfirst.lifetime.symm.trans (hnow.lifetime.trans hlast.lifetime)
  · exact ((hfirst.others other hother c halive).symm.trans (hnow.others other hother c halive)).trans
      (hlast.others other hother c halive)
  · rcases hkept with hkept | hkept
    · exact hfirst.own c halive (Or.inr hkept)
    · exact hlast.own c halive (Or.inr hkept)

/-- A token is resolved alike, if the provider still gives its subject for the one token in which they
differ. -/
theorem validate (h : AgreeSince token subject since p q) (hle : since ≤ now)
    (hsubject : other = token → subjectOf (service.ask token) = .ok subject) :
    (p.validate service other now).2 = (q.validate service other now).2 ∧
      AgreeSince token subject now (p.validate service other now).1
        (q.validate service other now).1 := by
  by_cases hother : other = token
  · subst hother
    exact h.validate_own hle (hsubject rfl)
  · exact h.validate_other hle hother

end AgreeSince
end IndexVault.IdentityProvider
