import IndexVault.Proofs.RecordedFetches

namespace IndexVault

/-- A time that a client has set, and the real time at which it did. -/
structure TimeSetting where
  real : Int
  fake : Int

namespace TimeSetting

/-- The date of a real time under a setting; under none, time is real. -/
def dateOf : Option TimeSetting → Int → Int
  | none, now => now
  | some s, now => s.fake + (now - s.real)

/-- Between two records under one setting the gap of the dates is that of the times. -/
theorem dateOf_sub_dateOf (setting : Option TimeSetting) (now now' : Int) :
    dateOf setting now' - dateOf setting now = now' - now := by
  cases setting with
  | none => rfl
  | some s =>
    rw [dateOf, dateOf]
    omega

end TimeSetting

/-- The real time at which a call is made. -/
def LogCall.now? : LogCall → Option Int
  | .record now _ _ _ => some now
  | .setFakeTime now _ => some now
  | .reset => none

/-- A call that was made: the log that it found, its answer and the log that it left. -/
structure LogEvent where
  call : LogCall
  before : RequestLog
  answer : Except Failure Unit
  after : RequestLog

namespace LogEvent

/-- The setting that a call has put in force. -/
def setting? (e : LogEvent) : Option TimeSetting :=
  match e.call, e.answer with
  | .setFakeTime now fake, .ok _ => some ⟨now, fake⟩
  | _, _ => none

/-- The setting in force after some calls: the last one that was accepted. -/
def settingIn (events : List LogEvent) : Option TimeSetting :=
  (events.filterMap setting?).getLast?

/-- Whether a call has recorded a fetch, by one more line of the file. -/
structure Records (e : LogEvent) (now : Int) (f : RecordedFetch) : Prop where
  call : e.call = .record now f.kind f.uids f.found
  answer : e.answer = .ok ()
  file : e.before.file.append (f.line ++ [0x0a]) = .ok e.after.file

/-- What a call comes to under a setting. -/
structure KeepsTime (e : LogEvent) (setting : Option TimeSetting) : Prop where
  /-- A record has the exact date and no other. -/
  dated : ∀ now f, e.Records now f → f.date = TimeSetting.dateOf setting now
  /-- A record is made if the exact date fits and the file can be written. -/
  recorded : ∀ now f, e.call = .record now f.kind f.uids f.found →
    f.date = TimeSetting.dateOf setting now → RequestLog.fitsInt64 f.date = true →
      e.Records now f ∨ ∃ fault, e.before.file.append (f.line ++ [0x0a]) = .error fault ∧
        e.answer = .error (.file fault)
  overflow : ∀ now kind uids found, e.call = .record now kind uids found →
    RequestLog.fitsInt64 (TimeSetting.dateOf setting now) = false →
      e.answer = .error (.badRequest "fake time overflows the request date")
  accepted : ∀ now fake, e.call = .setFakeTime now fake →
    RequestLog.fitsInt64 (now - fake) = true → e.answer = .ok ()
  refused : ∀ now fake, e.call = .setFakeTime now fake →
    RequestLog.fitsInt64 (now - fake) = false →
      e.answer = .error (.badRequest s!"fake_time {fake} out of range")
  /-- A call that fails leaves the file and the setting as they were. -/
  unchanged : ∀ failure, e.answer = .error failure → e.after = e.before

/-- The setting in force is the last one that was made. -/
theorem settingIn_append (events more : List LogEvent) :
    settingIn (events ++ more) = (settingIn more).or (settingIn events) := by
  rw [settingIn, List.filterMap_append, List.getLast?_append]
  rfl

theorem settingIn_singleton (e : LogEvent) : settingIn [e] = e.setting? := by
  rw [settingIn, List.filterMap_cons]
  cases e.setting? <;> rfl

theorem Records.setting?_eq {e : LogEvent} {now : Int} {f : RecordedFetch} (h : e.Records now f) :
    e.setting? = none := by
  rw [setting?, h.call]

end LogEvent

namespace RequestLog

def event (log : RequestLog) (call : LogCall) : LogEvent :=
  match log.perform call with
  | .ok log' => ⟨call, log, .ok (), log'⟩
  | .error failure => ⟨call, log, .error failure, log⟩

/-- Calls made one after the other. -/
def history (log : RequestLog) : List LogCall → List LogEvent
  | [] => []
  | call :: rest => log.event call :: history (log.event call).after rest

/-- A call that succeeds is an event that goes on with the log it made. -/
theorem event_of_ok {log log' : RequestLog} {call : LogCall} (h : log.perform call = .ok log') :
    log.event call = ⟨call, log, .ok (), log'⟩ := by
  rw [event, h]

/-- A call that is refused is an event that leaves the log as it was. -/
theorem event_of_error {log : RequestLog} {call : LogCall} {failure : Failure}
    (h : log.perform call = .error failure) : log.event call = ⟨call, log, .error failure, log⟩ := by
  rw [event, h]

theorem before_event (log : RequestLog) (call : LogCall) : (log.event call).before = log := by
  cases h : log.perform call with
  | ok log' => rw [event_of_ok h]
  | error failure => rw [event_of_error h]

theorem call_event (log : RequestLog) (call : LogCall) : (log.event call).call = call := by
  cases h : log.perform call with
  | ok log' => rw [event_of_ok h]
  | error failure => rw [event_of_error h]

/-- A history has one event for every call. -/
theorem calls_history (log : RequestLog) (calls : List LogCall) :
    (log.history calls).map LogEvent.call = calls := by
  induction calls generalizing log with
  | nil => rfl
  | cons call rest ih => rw [history, List.map_cons, call_event, ih]

end RequestLog

theorem Text.digits_ne_sign_cons (n : Nat) (b : Bytes) : digits n ≠ 0x2d :: b := by
  intro h
  have hdigits := all_isDigit_digits n
  rw [h, List.all_cons, Bool.and_eq_true] at hdigits
  exact absurd hdigits.1 (by decide)

/-- Different numbers are written differently. -/
theorem Text.digits_injective {n m : Nat} (h : digits n = digits m) : n = m := by
  rw [← readNat_digits n, h, readNat_digits]

theorem Text.signedDigits_injective {n m : Int} (h : signedDigits n = signedDigits m) : n = m := by
  cases n with
  | ofNat n =>
    cases m with
    | ofNat m => exact congrArg Int.ofNat (digits_injective h)
    | negSucc m => exact absurd h (digits_ne_sign_cons n _)
  | negSucc n =>
    cases m with
    | ofNat m => exact absurd h.symm (digits_ne_sign_cons m _)
    | negSucc m =>
      have hnext := digits_injective (List.cons.inj h).2
      exact congrArg Int.negSucc (Nat.succ.inj hnext)

/-- Lines for one fetch differ if their dates do. -/
theorem RecordedFetch.date_injective {date date' : Int} {kind : TableKind} {uids : UidSet}
    {found : EncryptedTable}
    (h : (⟨date, kind, uids, found⟩ : RecordedFetch).line =
      (⟨date', kind, uids, found⟩ : RecordedFetch).line) : date = date' := by
  apply Text.signedDigits_injective
  simpa [line, json, RequestLog.recordJson, Json.Value.compact, Json.compactMembers, Json.joined,
    Json.Value.int, Json.Number.written] using h

/-- Appending tells different bytes apart by what it leaves. -/
theorem FilePlace.append_injective {place left : FilePlace} {b b' : Bytes}
    (h : place.append b = .ok left) (h' : place.append b' = .ok left) : b = b' := by
  cases place with
  | absent =>
    have heq : FilePlace.present b = FilePlace.present b' := Except.ok.inj (h.trans h'.symm)
    exact FilePlace.present.inj heq
  | present content =>
    have heq : FilePlace.present (content ++ b) = FilePlace.present (content ++ b') :=
      Except.ok.inj (h.trans h'.symm)
    exact List.append_cancel_left (FilePlace.present.inj heq)
  | directory => cases h
  | missingParent => cases h

/-- The date of a record can be told from the file. -/
theorem LogEvent.Records.date_eq {e : LogEvent} {now now' date date' : Int} {kind : TableKind}
    {uids : UidSet} {found : EncryptedTable} (h : e.Records now ⟨date, kind, uids, found⟩)
    (h' : e.Records now' ⟨date', kind, uids, found⟩) : date = date' := by
  have hlines := FilePlace.append_injective h.file h'.file
  exact RecordedFetch.date_injective (List.append_cancel_right hlines)

namespace RequestLog

/-- A log that dates records as a setting says. -/
def InForce (log : RequestLog) (setting : Option TimeSetting) : Prop :=
  ∀ now, now - log.shift = TimeSetting.dateOf setting now

/-- The settings of a log outlast whatever is done to its file. -/
theorem shift_of_withFile {log log' : RequestLog} {file : Except FileFault FilePlace}
    (h : log.withFile file = .ok log') : log'.shift = log.shift := by
  cases file with
  | ok file =>
    cases h
    rfl
  | error fault => cases h

theorem shift_of_setFakeTime {log log' : RequestLog} {now fake : Int}
    (h : log.setFakeTime now fake = .ok log') : log'.shift = now - fake := by
  unfold setFakeTime at h
  split at h
  · cases h
    rfl
  · cases h

/-- A date that does not fit is refused before the file is touched. -/
theorem record_of_overflow {log : RequestLog} {now : Int}
    (h : fitsInt64 (now - log.shift) = false) (kind : TableKind) (uids : UidSet)
    (found : EncryptedTable) :
    log.record now kind uids found = .error (.badRequest "fake time overflows the request date") := by
  rw [record, date, h]
  rfl

/-- A date that fits is the exact difference, and the record is one line. -/
theorem record_of_fits {log : RequestLog} {now : Int} (h : fitsInt64 (now - log.shift) = true)
    (kind : TableKind) (uids : UidSet) (found : EncryptedTable) :
    log.record now kind uids found = log.withFile (log.file.append
      ((⟨now - log.shift, kind, uids, found⟩ : RecordedFetch).line ++ [0x0a])) := by
  rw [record, date, h]
  rfl

theorem shift_of_record {log log' : RequestLog} {now : Int} {kind : TableKind} {uids : UidSet}
    {found : EncryptedTable} (h : log.record now kind uids found = .ok log') :
    log'.shift = log.shift := by
  rw [record_of_fits (record_eq_ok h).1] at h
  exact shift_of_withFile h

/-- The difference that a setting is kept as is the exact one. -/
theorem setFakeTime_of_fits (log : RequestLog) {now fake : Int} (h : fitsInt64 (now - fake) = true) :
    log.setFakeTime now fake = .ok { log with shift := now - fake } := by
  rw [setFakeTime, if_pos h]

/-- A setting whose difference does not fit is refused. -/
theorem setFakeTime_of_overflow (log : RequestLog) {now fake : Int}
    (h : fitsInt64 (now - fake) = false) :
    log.setFakeTime now fake = .error (.badRequest s!"fake_time {fake} out of range") := by
  rw [setFakeTime, if_neg (Bool.eq_false_iff.1 h)]

/-- A record that succeeds has the date of the shift that it finds. -/
theorem records_event {log log' : RequestLog} {now : Int} {kind : TableKind} {uids : UidSet}
    {found : EncryptedTable} (h : log.record now kind uids found = .ok log') :
    (log.event (.record now kind uids found)).Records now ⟨now - log.shift, kind, uids, found⟩ := by
  have hperform : log.perform (.record now kind uids found) = .ok log' := h
  rw [event_of_ok hperform]
  exact ⟨rfl, rfl, (record_eq_ok h).2⟩

namespace InForce

variable {log : RequestLog} {setting : Option TimeSetting} (h : log.InForce setting)

include h

/-- What is recorded while a setting is in force is dated by it. -/
theorem dated {call : LogCall} {now : Int} {f : RecordedFetch}
    (hrecords : (log.event call).Records now f) : f.date = TimeSetting.dateOf setting now := by
  obtain rfl : call = .record now f.kind f.uids f.found :=
    (call_event log call).symm.trans hrecords.call
  cases hrecord : log.record now f.kind f.uids f.found with
  | ok log' =>
    rw [← h now]
    exact hrecords.date_eq (records_event hrecord)
  | error failure =>
    have hperform : log.perform (.record now f.kind f.uids f.found) = .error failure := hrecord
    have hanswer := hrecords.answer
    rw [event_of_error hperform] at hanswer
    cases hanswer

/-- A record whose date under the setting fits is made, or the file refuses it. -/
theorem recorded {now : Int} {f : RecordedFetch} (hdate : f.date = TimeSetting.dateOf setting now)
    (hfits : fitsInt64 f.date = true) :
    (log.event (.record now f.kind f.uids f.found)).Records now f ∨
      ∃ fault, log.file.append (f.line ++ [0x0a]) = .error fault ∧
        (log.event (.record now f.kind f.uids f.found)).answer = .error (.file fault) := by
  rw [← h now] at hdate
  rw [hdate] at hfits
  have hline : (⟨now - log.shift, f.kind, f.uids, f.found⟩ : RecordedFetch) = f := by
    rw [← hdate]
  have hrecord := record_of_fits hfits f.kind f.uids f.found
  rw [hline] at hrecord
  -- the record is in the file, or the file could not be written
  cases happend : log.file.append (f.line ++ [0x0a]) with
  | ok file =>
    rw [happend] at hrecord
    have hrecords := records_event hrecord
    rw [hline] at hrecords
    exact .inl hrecords
  | error fault =>
    rw [happend] at hrecord
    have hperform : log.perform (.record now f.kind f.uids f.found) = .error (.file fault) := hrecord
    refine .inr ⟨fault, rfl, ?_⟩
    rw [event_of_error hperform]

/-- A record whose date under the setting does not fit is refused. -/
theorem overflow {now : Int} (hoverflow : fitsInt64 (TimeSetting.dateOf setting now) = false)
    (kind : TableKind) (uids : UidSet) (found : EncryptedTable) :
    (log.event (.record now kind uids found)).answer =
      .error (.badRequest "fake time overflows the request date") := by
  rw [← h now] at hoverflow
  have hperform : log.perform (.record now kind uids found) = _ :=
    record_of_overflow hoverflow kind uids found
  rw [event_of_error hperform]

/-- What one call comes to. -/
theorem keepsTime (call : LogCall) : (log.event call).KeepsTime setting where
  -- the event remembers its call, so each field is about a call that is known
  dated _ _ hrecords := h.dated hrecords
  recorded now f hcall hdate hfits := by
    obtain rfl := (call_event log call).symm.trans hcall
    rw [before_event]
    exact h.recorded hdate hfits
  overflow now kind uids found hcall hoverflow := by
    obtain rfl := (call_event log call).symm.trans hcall
    exact h.overflow hoverflow kind uids found
  accepted now fake hcall hfits := by
    obtain rfl := (call_event log call).symm.trans hcall
    have hperform : log.perform (.setFakeTime now fake) = _ := setFakeTime_of_fits log hfits
    rw [event_of_ok hperform]
  refused now fake hcall hoverflow := by
    obtain rfl := (call_event log call).symm.trans hcall
    have hperform : log.perform (.setFakeTime now fake) = _ := setFakeTime_of_overflow log hoverflow
    rw [event_of_error hperform]
  unchanged failure hanswer := by
    cases hperform : log.perform call with
    | ok log' =>
      rw [event_of_ok hperform] at hanswer
      cases hanswer
    | error failure' => rw [event_of_error hperform]

/-- After a call the setting that it has put in force holds, or else the one before. -/
theorem event (call : LogCall) :
    (log.event call).after.InForce ((log.event call).setting?.or setting) := by
  cases hperform : log.perform call with
  | error failure =>
    rw [event_of_error hperform]
    cases call <;> exact h
  | ok log' =>
    rw [event_of_ok hperform]
    cases call with
    | record now kind uids found =>
      intro later
      rw [shift_of_record hperform]
      exact h later
    | setFakeTime now fake =>
      intro later
      rw [shift_of_setFakeTime hperform]
      have hcompose : later - (now - fake) = fake + (later - now) := by omega
      exact hcompose
    | reset =>
      intro later
      rw [shift_of_withFile hperform]
      exact h later

/-- Each call of a run finds a log that dates records as the last accepted setting says. -/
theorem history {calls : List LogCall} {earlier later : List LogEvent} {e : LogEvent}
    (hsplit : log.history calls = earlier ++ e :: later) :
    e.KeepsTime ((LogEvent.settingIn earlier).or setting) := by
  -- By induction on the calls before: each leaves a log that dates as the setting it leaves in force.
  induction earlier generalizing log setting calls with
  | nil =>
    cases calls with
    | nil => cases hsplit
    | cons call rest =>
      obtain ⟨rfl, -⟩ := List.cons.inj hsplit
      exact h.keepsTime call
  | cons first earlier ih =>
    cases calls with
    | nil => cases hsplit
    | cons call rest =>
      obtain ⟨rfl, hrest⟩ := List.cons.inj hsplit
      have hsetting : LogEvent.settingIn (log.event call :: earlier) =
          (LogEvent.settingIn earlier).or (log.event call).setting? := by
        rw [← LogEvent.settingIn_singleton, ← LogEvent.settingIn_append]
        rfl
      rw [hsetting, Option.or_assoc]
      exact ih (h.event call) hrest

end InForce

/-- A run whose records are dated exactly, and under one setting by their gaps in real time. -/
structure KeepsRealGaps (events : List LogEvent) : Prop where
  exact : ∀ earlier e later, events = earlier ++ e :: later →
    e.KeepsTime (LogEvent.settingIn earlier)
  gaps : ∀ earlier e between e' later, events = earlier ++ e :: (between ++ e' :: later) →
    LogEvent.settingIn between = none →
      ∀ now f now' f', e.Records now f → e'.Records now' f' →
        f'.date - f.date = now' - now ∧ f.date ≤ f'.date

/-- In a history whose clock does not go back, neither does it between any two of the events. -/
theorem now_le_of_history {log : RequestLog} {calls : List LogCall}
    (hclock : (calls.filterMap LogCall.now?).Pairwise (· ≤ ·)) {earlier between later : List LogEvent}
    {e e' : LogEvent} (hsplit : log.history calls = earlier ++ e :: (between ++ e' :: later))
    {now now' : Int} (hnow : e.call.now? = some now) (hnow' : e'.call.now? = some now') :
    now ≤ now' := by
  have hcalls := calls_history log calls
  rw [hsplit] at hcalls
  rw [← hcalls, List.map_append, List.filterMap_append] at hclock
  have hbehind := (List.pairwise_append.1 hclock).2.1
  rw [List.map_cons, List.filterMap_cons, hnow] at hbehind
  apply (List.pairwise_cons.1 hbehind).1
  rw [List.mem_filterMap]
  exact ⟨e'.call, List.mem_map_of_mem (List.mem_append_right _ List.mem_cons_self), hnow'⟩

/-- Whatever calls are made on a log, one after the other under a clock that does not go back: a record is
dated by the last setting that was accepted, exactly, or real if there was none, and fails as a bad request
if that date does not fit 64 bits. A setting is refused as a bad request exactly if its difference to the
real time does not fit, and the one before stays in force. Dates of records under one setting lie as far
apart as the records do, and do not go back. -/
theorem fake_time_keeps_gaps (file : FilePlace) (calls : List LogCall)
    (hclock : (calls.filterMap LogCall.now?).Pairwise (· ≤ ·)) :
    (history ⟨file, 0⟩ calls).map LogEvent.call = calls ∧ KeepsRealGaps (history ⟨file, 0⟩ calls) := by
  refine ⟨calls_history ⟨file, 0⟩ calls, ?_⟩
  have hreal : (⟨file, 0⟩ : RequestLog).InForce none := fun now => Int.sub_zero now
  have hexact : ∀ earlier e later, history ⟨file, 0⟩ calls = earlier ++ e :: later →
      e.KeepsTime (LogEvent.settingIn earlier) := by
    intro earlier e later hsplit
    have hkeeps := hreal.history hsplit
    rwa [Option.or_none] at hkeeps
  refine ⟨hexact, ?_⟩
  intro earlier e between e' later hsplit hbetween now f now' f' hrecords hrecords'
  -- Neither the first record nor a call behind it has put another setting in force.
  have hsame : LogEvent.settingIn (earlier ++ e :: between) = LogEvent.settingIn earlier := by
    have hfirst : LogEvent.settingIn (e :: between) = none := by
      rw [← List.singleton_append, LogEvent.settingIn_append, LogEvent.settingIn_singleton,
        hrecords.setting?_eq, hbetween]
      rfl
    rw [LogEvent.settingIn_append, hfirst, Option.none_or]
  have hkeeps := hexact earlier e _ hsplit
  have hkeeps' : e'.KeepsTime (LogEvent.settingIn earlier) := by
    rw [← hsame]
    apply hexact _ e' later
    rw [hsplit, List.append_assoc, List.cons_append]
  have hgap : f'.date - f.date = now' - now := by
    rw [hkeeps.dated now f hrecords, hkeeps'.dated now' f' hrecords']
    exact TimeSetting.dateOf_sub_dateOf _ now now'
  have hnow : now ≤ now' := by
    apply now_le_of_history hclock hsplit
    · rw [hrecords.call, LogCall.now?]
    · rw [hrecords'.call, LogCall.now?]
  exact ⟨hgap, by omega⟩

/-- Records under no setting and under two, one setting that is refused, and a last record whose date
does not fit. -/
def callsAcrossSettings : List LogCall :=
  [.record 5 .entries ∅ ∅, .setFakeTime 10 1000, .record 12 .entries ∅ ∅,
    .setFakeTime 13 Int64.minValue.toInt, .record 17 .chains ∅ ∅,
    .setFakeTime 20 Int64.maxValue.toInt, .record 20 .entries ∅ ∅, .record 21 .entries ∅ ∅]

theorem fake_time_keeps_gaps_acrossSettings :
    (callsAcrossSettings.filterMap LogCall.now?).Pairwise (· ≤ ·) ∧
      (history ⟨.absent, 0⟩ callsAcrossSettings).map LogEvent.call = callsAcrossSettings ∧
      KeepsRealGaps (history ⟨.absent, 0⟩ callsAcrossSettings) := by
  have hclock : (callsAcrossSettings.filterMap LogCall.now?).Pairwise (· ≤ ·) := by decide
  exact ⟨hclock, fake_time_keeps_gaps .absent callsAcrossSettings hclock⟩

example : (history ⟨.absent, 0⟩ callsAcrossSettings).map (fun e => e.answer.isOk) =
    [true, true, true, false, true, true, true, false] := by
  decide +kernel

end RequestLog
end IndexVault
