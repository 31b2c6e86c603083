import IndexVault.Service.State

namespace IndexVault

namespace Service

/-- What a look-up of a public id answers. -/
def found (s : Service) (publicId : String) : Except Failure (Option Index) :=
  (s.cache.lookup s.registry publicId).2

/-- The service after a look-up of a public id. -/
def looked (s : Service) (publicId : String) : Service :=
  { s with cache := (s.cache.lookup s.registry publicId).1 }

end Service

/-- The response to what an action came to. -/
def Http.answered : Except Http.Refusal Http.Response → Http.Response
  | .ok response => response
  | .error refusal => refusal.response

/-- Every failure shows in the status of the answer. -/
theorem Failure.status_ge (f : Failure) : 400 ≤ f.status := by
  cases f <;> simp [status]

namespace Action

variable {α β : Type}

/-- An action that leaves the whole service as it was. -/
def Inert (a : Action α) : Prop := ∀ s, (a.run s).2 = s

theorem inert_pure (a : α) : Inert (pure a : Action α) := fun _ => rfl

theorem inert_fail (e : Http.Refusal) : Inert (Attempt.fail e : Action α) := fun _ => rfl

theorem inert_state : Inert (Attempt.state : Action Service) := fun _ => rfl

/-- A result leaves the service alone. -/
theorem run_ofResult (x : Except Failure α) (s : Service) :
    (ofResult x).run s = (x.mapError .failure, s) := by
  cases x <;> rfl

theorem inert_ofResult (x : Except Failure α) : Inert (ofResult x) := by
  intro s
  rw [run_ofResult]

/-- What comes before inert actions has all the effect there is. -/
theorem run_bind_snd {a : Action α} {f : α → Action β} (hf : ∀ x, Inert (f x)) (s : Service) :
    ((a >>= f).run s).2 = (a.run s).2 := by
  rcases hrun : a.run s with ⟨e | x, s'⟩
  · rw [Attempt.run_bind_of_error hrun]
  · rw [Attempt.run_bind_of_ok hrun]
    exact hf x s'

/-- A sequence ends at its first part or goes on from there. -/
theorem run_bind_cases {a : Action α} {s s' : Service} (h : (a.run s).2 = s')
    (f : α → Action β) :
    (∃ e, a.run s = (.error e, s') ∧ (a >>= f).run s = (.error e, s')) ∨
      ∃ x, a.run s = (.ok x, s') ∧ (a >>= f).run s = (f x).run s' := by
  rcases hrun : a.run s with ⟨e | x, t⟩
  · rw [hrun] at h
    cases h
    exact Or.inl ⟨e, rfl, Attempt.run_bind_of_error hrun⟩
  · rw [hrun] at h
    cases h
    exact Or.inr ⟨x, rfl, Attempt.run_bind_of_ok hrun⟩

/-- Behind a result the rest runs from the same state, or does not run. -/
theorem run_ofResult_bind_cases (x : Except Failure α) (f : α → Action β) (s : Service) :
    (∃ e, x = .error e ∧ (ofResult x >>= f).run s = (.error (.failure e), s)) ∨
      ∃ a, x = .ok a ∧ (ofResult x >>= f).run s = (f a).run s := by
  cases x with
  | error e => exact Or.inl ⟨e, rfl, rfl⟩
  | ok a => exact Or.inr ⟨a, rfl, rfl⟩

/-- A parameter of a path is text, or the request is refused at once. -/
theorem run_parameter_bind_cases (id : Bytes) (f : String → Action β) (s : Service) :
    (Http.Route.parameter? id = none ∧ (parameter id >>= f).run s =
        (.error (.rejection 400 "Invalid UTF-8 in path parameter"), s)) ∨
      ∃ publicId, Http.Route.parameter? id = some publicId ∧
        (parameter id >>= f).run s = (f publicId).run s := by
  rw [parameter]
  cases Http.Route.parameter? id with
  | none => exact Or.inl ⟨rfl, rfl⟩
  | some publicId => exact Or.inr ⟨publicId, rfl, rfl⟩

variable {x : Except Failure α} {f : α → Action β} {s t : Service} {y : β}

/-- A sequence that is answered went past its first part. -/
theorem run_bind_eq_ok {a : Action α} {s' : Service} (ha : (a.run s).2 = s')
    (h : (a >>= f).run s = (.ok y, t)) :
    ∃ x, a.run s = (.ok x, s') ∧ (f x).run s' = (.ok y, t) := by
  rcases run_bind_cases ha f with ⟨e, -, hrun⟩ | ⟨x, hx, hrun⟩
  · cases hrun.symm.trans h
  · exact ⟨x, hx, hrun.symm.trans h⟩

theorem run_ofResult_bind_eq_ok (h : (ofResult x >>= f).run s = (.ok y, t)) :
    ∃ a, x = .ok a ∧ (f a).run s = (.ok y, t) := by
  rcases run_ofResult_bind_cases x f s with ⟨e, -, hrun⟩ | ⟨a, ha, hrun⟩
  · cases hrun.symm.trans h
  · exact ⟨a, ha, hrun.symm.trans h⟩

theorem run_parameter_bind_eq_ok {id : Bytes} {f : String → Action β}
    (h : (parameter id >>= f).run s = (.ok y, t)) :
    ∃ publicId, Http.Route.parameter? id = some publicId ∧ (f publicId).run s = (.ok y, t) := by
  rcases run_parameter_bind_cases id f s with ⟨-, hrun⟩ | ⟨publicId, hid, hrun⟩
  · cases hrun.symm.trans h
  · exact ⟨publicId, hid, hrun.symm.trans h⟩

/-- A sequence of inert parts is inert. -/
theorem Inert.bind {a : Action α} {f : α → Action β} (ha : Inert a) (hf : ∀ x, Inert (f x)) :
    Inert (a >>= f) := by
  intro s
  rw [run_bind_snd hf]
  exact ha s

theorem inert_parameter (spelled : Bytes) : Inert (parameter spelled) := by
  unfold parameter
  split
  · exact inert_pure _
  · exact inert_fail _

theorem inert_bodyWithin (r : Http.Request) : Inert (bodyWithin r) := by
  apply inert_state.bind
  intro s
  split
  · exact inert_fail _
  · exact inert_pure _

theorem run_parameter {id : Bytes} {publicId : String}
    (hid : Http.Route.parameter? id = some publicId) (s : Service) :
    (parameter id).run s = (.ok publicId, s) := by
  rw [parameter, hid]
  rfl

/-- A lookup through the cache: what it finds, and the cache it leaves. -/
theorem run_cachedIndex (s : Service) (publicId : String) :
    (cachedIndex publicId).run s =
      ((match (s.cache.lookup s.registry publicId).2 with
        | .error e => .error (.failure e)
        | .ok none => .error (.failure (.unknownIndex publicId))
        | .ok (some index) => .ok index), s.looked publicId) := by
  change (ofResult (s.cache.lookup s.registry publicId).2 >>= _).run (s.looked publicId) = _
  cases (s.cache.lookup s.registry publicId).2 with
  | error e => rfl
  | ok row => cases row <;> rfl

/-- Whenever the action refuses, the status of the answer says so. -/
def RefusesOpenly (a : Action α) : Prop :=
  ∀ s e s', a.run s = (.error e, s') → 400 ≤ e.response.status

theorem refusesOpenly_pure (a : α) : RefusesOpenly (pure a : Action α) := by
  intro s e s' h
  cases h

theorem refusesOpenly_state : RefusesOpenly (Attempt.state : Action Service) := by
  intro s e s' h
  cases h

theorem refusesOpenly_modify (f : Service → Service) :
    RefusesOpenly (Attempt.modify f : Action Unit) := by
  intro s e s' h
  cases h

theorem refusesOpenly_fail (f : Failure) : RefusesOpenly (fail f : Action α) := by
  intro s e s' h
  cases h
  exact f.status_ge

theorem refusesOpenly_reject {status : Nat} (h : 400 ≤ status) (reason : String) :
    RefusesOpenly (reject status reason : Action α) := by
  intro s e s' he
  cases he
  exact h

theorem refusesOpenly_ofResult (x : Except Failure α) : RefusesOpenly (ofResult x) := by
  cases x with
  | error f => exact refusesOpenly_fail f
  | ok a => exact refusesOpenly_pure a

/-- A sequence refuses openly if its parts do. -/
theorem RefusesOpenly.bind {a : Action α} {f : α → Action β} (ha : RefusesOpenly a)
    (hf : ∀ x, RefusesOpenly (f x)) : RefusesOpenly (a >>= f) := by
  intro s e t h
  rcases Attempt.run_bind_eq_error_iff.1 h with hfirst | ⟨x, s', -, hsecond⟩
  · exact ha s e t hfirst
  · exact hf x s' e t hsecond

theorem refusesOpenly_parameter (id : Bytes) : RefusesOpenly (parameter id) := by
  unfold parameter
  split
  · exact refusesOpenly_pure _
  · exact refusesOpenly_reject (by decide) _

theorem refusesOpenly_bodyWithin (r : Http.Request) : RefusesOpenly (bodyWithin r) := by
  apply refusesOpenly_state.bind
  intro s
  split
  · exact refusesOpenly_reject (by decide) _
  · exact refusesOpenly_pure _

/-- An answer of status 200 is one that the action gave. -/
theorem RefusesOpenly.eq_ok_of_status {a : Action Http.Response} (ha : RefusesOpenly a)
    {s : Service} (h : (Http.answered (a.run s).1).status = 200) :
    ∃ response, a.run s = (.ok response, (a.run s).2) := by
  rcases hrun : a.run s with ⟨e | response, s'⟩
  · have hge := ha s e s' hrun
    rw [hrun] at h
    have hstatus : e.response.status = 200 := h
    omega
  · exact ⟨response, rfl⟩

end Action
end IndexVault
