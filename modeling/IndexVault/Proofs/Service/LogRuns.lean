import IndexVault.Proofs.Service.ActionEffects
import IndexVault.Service.LogAccess

namespace IndexVault

namespace Http.Route

/-- Whether a route is one of the log. -/
def isOnLog : Route → Bool
  | setTimeDiff _ | requestsLog | resetRequestsLog | exportTable _ _ => true
  | health | indexes | index _ | callback _ _ => false

/-- Where requests are not logged, the routes of the log are not there, and all others are. -/
theorem ofPath?_false (path : Bytes) :
    ofPath? false path = (ofPath? true path).filter fun route => !route.isOnLog := by
  unfold ofPath?
  simp only [Bool.true_and, Bool.false_and, Bool.false_eq_true, if_false]
  split
  · repeat' split
    all_goals rfl
  · repeat' split
    all_goals rfl
  · split
    · rename_i a id last _ _
      cases Callback.ofName? last <;> rfl
    · rfl
  · rfl

end Http.Route

namespace LogAccess

open IndexVault.Action

/-- The log is changed at most, and it is neither set up nor removed. -/
def ChangesLog (s s' : Service) : Prop :=
  ∃ log, log.isSome = s.log.isSome ∧ s' = { s with log := log }

theorem changesLog_refl (s : Service) : ChangesLog s s := ⟨s.log, rfl, rfl⟩

theorem changesLog_of_some {s : Service} {log : RequestLog} (h : s.log = some log)
    (log' : RequestLog) : ChangesLog s { s with log := some log' } :=
  ⟨some log', by rw [h]; rfl, rfl⟩

/-- Where requests are not logged, the log is not there. -/
theorem run_requestLog_bind_cases {α : Type} (f : RequestLog → Action α) (s : Service) :
    (∃ e, (requestLog >>= f).run s = (.error e, s)) ∨
      ∃ log, s.log = some log ∧ (requestLog >>= f).run s = (f log).run s := by
  have hstate : (Attempt.state : Action Service).run s = (.ok s, s) := rfl
  cases hlog : s.log with
  | none =>
    have hrefused :
        requestLog.run s = (.error (.failure (.internal "request log is disabled")), s) := by
      rw [requestLog, Attempt.run_bind_of_ok hstate, hlog]
      rfl
    exact Or.inl ⟨_, Attempt.run_bind_of_error hrefused⟩
  | some log =>
    have hgiven : requestLog.run s = (.ok log, s) := by
      rw [requestLog, Attempt.run_bind_of_ok hstate, hlog]
      rfl
    exact Or.inr ⟨log, rfl, Attempt.run_bind_of_ok hgiven⟩

/-- Requests on the log change the log at most, and it is there afterwards exactly when it was there before.
-/
theorem run_setTimeDiff_snd (w : Surroundings) (time : String) (s : Service) :
    ChangesLog s ((setTimeDiff w time).run s).2 := by
  unfold setTimeDiff
  split
  · exact changesLog_refl s
  · rename_i fake _
    rcases run_requestLog_bind_cases _ s with ⟨e, hrun⟩ | ⟨log, hlog, hrun⟩
    · rw [hrun]
      exact changesLog_refl s
    · rw [hrun]
      rcases run_ofResult_bind_cases (log.setFakeTime w.millis fake) _ s with
        ⟨e, -, hrun⟩ | ⟨log', -, hrun⟩
      · rw [hrun]
        exact changesLog_refl s
      · rw [hrun]
        exact changesLog_of_some hlog log'

theorem inert_read : Inert read := by
  intro s
  unfold read
  rcases run_requestLog_bind_cases _ s with ⟨e, hrun⟩ | ⟨log, -, hrun⟩
  · rw [hrun]
  · rw [hrun, run_bind_snd (fun _ => inert_pure _), run_ofResult]

theorem run_reset_snd (s : Service) : ChangesLog s (reset.run s).2 := by
  unfold reset
  rcases run_requestLog_bind_cases _ s with ⟨e, hrun⟩ | ⟨log, hlog, hrun⟩
  · rw [hrun]
    exact changesLog_refl s
  · rw [hrun]
    rcases run_ofResult_bind_cases log.reset _ s with ⟨e, -, hrun⟩ | ⟨log', -, hrun⟩
    · rw [hrun]
      exact changesLog_refl s
    · rw [hrun]
      exact changesLog_of_some hlog log'

/-- An export only looks an index up. -/
theorem run_exportTable_snd (kind : TableKind) (publicId : String) (s : Service) :
    ((exportTable kind publicId).run s).2 = s.looked publicId := by
  rw [exportTable, run_bind_snd ?_ s, run_cachedIndex]
  intro index
  apply inert_state.bind
  intro s
  apply (inert_ofResult _).bind
  intro table
  exact inert_pure _

end LogAccess
end IndexVault
