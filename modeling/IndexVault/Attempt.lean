namespace IndexVault

/-- A computation on a state: its answer or its failure, and the state it leaves. The state that was reached
stays also when the computation fails. -/
structure Attempt (σ ε α : Type) where
  run : σ → Except ε α × σ

namespace Attempt

variable {σ ε α β : Type}

/-- Answers and leaves the state alone. -/
def pure (a : α) : Attempt σ ε α := ⟨fun s => (.ok a, s)⟩

/-- Goes on after a success; a failure ends there. -/
def bind (x : Attempt σ ε α) (f : α → Attempt σ ε β) : Attempt σ ε β := ⟨fun s =>
  match x.run s with
  | (.ok a, s') => (f a).run s'
  | (.error e, s') => (.error e, s')⟩

instance : Monad (Attempt σ ε) where
  pure := Attempt.pure
  bind := Attempt.bind

/-- Fails and leaves the state alone. -/
def fail (e : ε) : Attempt σ ε α := ⟨fun s => (.error e, s)⟩

def state : Attempt σ ε σ := ⟨fun s => (.ok s, s)⟩

def modify (f : σ → σ) : Attempt σ ε Unit := ⟨fun s => (.ok (), f s)⟩

theorem run_pure (a : α) (s : σ) : (Pure.pure a : Attempt σ ε α).run s = (.ok a, s) := rfl

/-- After a success the rest runs from the state that was reached. -/
theorem run_bind_of_ok {x : Attempt σ ε α} {f : α → Attempt σ ε β} {s s' : σ} {a : α}
    (h : x.run s = (.ok a, s')) : (x >>= f).run s = (f a).run s' := by
  change (Attempt.bind x f).run s = (f a).run s'
  simp only [Attempt.bind, h]

/-- After a failure the rest does not run. -/
theorem run_bind_of_error {x : Attempt σ ε α} {f : α → Attempt σ ε β} {s s' : σ} {e : ε}
    (h : x.run s = (.error e, s')) : (x >>= f).run s = (.error e, s') := by
  change (Attempt.bind x f).run s = (.error e, s')
  simp only [Attempt.bind, h]

/-- A sequence succeeds exactly when both of its parts do, one after the other. -/
theorem run_bind_eq_ok_iff {x : Attempt σ ε α} {f : α → Attempt σ ε β} {s t : σ} {b : β} :
    (x >>= f).run s = (.ok b, t) ↔ ∃ a s', x.run s = (.ok a, s') ∧ (f a).run s' = (.ok b, t) := by
  constructor
  · intro h
    rcases hx : x.run s with ⟨e | a, s'⟩
    · rw [run_bind_of_error hx] at h
      cases h
    · rw [run_bind_of_ok hx] at h
      exact ⟨a, s', rfl, h⟩
  · rintro ⟨a, s', hx, hf⟩
    rw [run_bind_of_ok hx, hf]

/-- A sequence fails exactly when its first part does, or when that succeeds and the second part
fails. -/
theorem run_bind_eq_error_iff {x : Attempt σ ε α} {f : α → Attempt σ ε β} {s t : σ} {e : ε} :
    (x >>= f).run s = (.error e, t) ↔
      x.run s = (.error e, t) ∨ ∃ a s', x.run s = (.ok a, s') ∧ (f a).run s' = (.error e, t) := by
  constructor
  · intro h
    rcases hx : x.run s with ⟨e' | a, s'⟩
    · rw [run_bind_of_error hx] at h
      cases h
      exact Or.inl rfl
    · rw [run_bind_of_ok hx] at h
      exact Or.inr ⟨a, s', rfl, h⟩
  · rintro (hx | ⟨a, s', hx, hf⟩)
    · exact run_bind_of_error hx
    · rw [run_bind_of_ok hx, hf]

end Attempt

end IndexVault
