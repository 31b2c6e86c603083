import IndexVault.Proofs.Service.PairedRuns

namespace IndexVault

namespace Http.Request

/-- Whether a request is one on the log, where there is one. -/
def isOnLog (r : Request) : Bool := (Route.ofPath? true r.path).any Route.isOnLog

/-- A request that is not on the log takes no route of the log. -/
theorem isOnLog_of_route {r : Request} (h : r.isOnLog = false) {route : Route}
    (hroute : Route.ofPath? true r.path = some route) : route.isOnLog = false := by
  rw [isOnLog, hroute] at h
  exact h

/-- Such a request has the same route with a log and without. -/
theorem route_of_offLog {r : Request} (h : r.isOnLog = false) (logged : Bool) :
    Route.ofPath? logged r.path = Route.ofPath? true r.path := by
  cases logged with
  | true => rfl
  | false =>
    rw [Route.ofPath?_false]
    cases hroute : Route.ofPath? true r.path with
    | none => rfl
    | some route =>
      have hoff := isOnLog_of_route h hroute
      rw [Option.filter_some, hoff]
      rfl

end Http.Request

namespace Service

variable {s t : Service} {w : Surroundings} {r : Http.Request}
  {L : Option RequestLog → Option RequestLog → Prop}

theorem keepsRecording_any : KeepsRecording fun _ _ => True := by
  intro w kind uids found s t h
  exact h

namespace Paired

/-- One request that is not on the log is answered alike, whatever the two logs are. -/
theorem respond_of_offLog (h : Paired Eq L s t) (hlog : KeepsRecording L)
    (hoff : r.isOnLog = false) :
    (s.respond w r).2 = (t.respond w r).2 ∧ Paired Eq L (s.respond w r).1 (t.respond w r).1 := by
  have hsame (logged : Bool) := Http.Request.route_of_offLog hoff logged
  apply respond_alike h h.files
  · exact (hsame _).trans (hsame _).symm
  · intro route hroute method a haction
    have hother := Http.Request.isOnLog_of_route hoff ((hsame _).symm.trans hroute)
    apply h.runsAlike_action?_of_offLog hlog haction hother
    apply h.caller_of_route hroute
    intro _
    rw [h.tenancy]
    exact ⟨rfl, rfl⟩

/-- So is a run of them. -/
theorem answersAs_of_offLog {calls : List (Surroundings × Http.Request)} (h : Paired Eq L s t)
    (hlog : KeepsRecording L) (hoff : ∀ call ∈ calls, call.2.isOnLog = false) :
    s.AnswersAs t calls := by
  -- By induction on the calls: each leaves the two services paired again.
  induction calls generalizing s t with
  | nil => exact ⟨rfl, h.registry, h.storage⟩
  | cons call later ih =>
    obtain ⟨w, r⟩ := call
    obtain ⟨hanswer, hafter⟩ := h.respond_of_offLog hlog (hoff (w, r) List.mem_cons_self)
    obtain ⟨hanswers, hend⟩ := ih hafter fun call hmem => hoff call (List.mem_cons_of_mem _ hmem)
    exact ⟨congrArg₂ List.cons hanswer hanswers, hend⟩

end Paired

/-- Whatever a service that started with an empty cache was asked before, take any two logs, or a log and
none. Every run of requests that are not on the log is answered the same with the one as with the other, and
ends with the same rows, lines and sizes: in whatever condition the file is, wherever fake time starts, and
whichever records fail or break off. Sizes are taken to stay below `2 ^ 63`. -/
theorem records_unseen {start s : Service} (hstart : start.cache.entries = ∅) (hs : start.Reaches s)
    (log log' : Option RequestLog) {calls : List (Surroundings × Http.Request)}
    (hoff : ∀ call ∈ calls, call.2.isOnLog = false) :
    { s with log := log }.AnswersAs { s with log := log' } calls := by
  have hcoherent : s.Coherent := hs.coherent hstart
  have hpaired : Paired Eq (fun _ _ => True) { s with log := log } { s with log := log' } :=
    ⟨rfl, fun _ => rfl, ⟨hcoherent, hcoherent⟩, rfl, rfl, rfl, rfl, rfl, trivial⟩
  exact hpaired.answersAs_of_offLog keepsRecording_any hoff

/-- A log that no record can be added to: its file is a directory, and every date overflows. -/
def unwritableLog : RequestLog where
  file := .directory
  shift := Int64.minValue.toInt

/-- A chain is inserted and fetched three times; the second record of it breaks off. -/
def chainCalls : List (Surroundings × Http.Request) :=
  let insert := (TableCall.insert (.ofList [(zeroUid, [8])])).signed.sent
  let fetch := (TableCall.fetch .chains (.ofUids [zeroUid])).signed.sent
  [insert, fetch, ({ fetch.1 with brokenRecord := some .missingParent }, fetch.2), fetch]

theorem records_unseen_withOneIndex :
    withOneIndex.cache.entries = ∅ ∧ withOneIndex.Reaches withOneIndex ∧
      (∀ call ∈ chainCalls, call.2.isOnLog = false) ∧
      (∀ kind uids found, unwritableLog.record atEpoch.millis kind uids found =
        .error (.badRequest "fake time overflows the request date")) ∧
      { withOneIndex with log := some unwritableLog }.AnswersAs { withOneIndex with log := none }
        chainCalls ∧
      { withOneIndex with log := some {} }.AnswersAs { withOneIndex with log := none }
        chainCalls := by
  have hoff : ∀ call ∈ chainCalls, call.2.isOnLog = false := by decide +kernel
  refine ⟨rfl, .start, hoff, fun _ _ _ => rfl, ?_, ?_⟩
  · exact records_unseen rfl .start (some unwritableLog) none hoff
  · exact records_unseen rfl .start (some {}) none hoff

end Service
end IndexVault
