import IndexVault.Proofs.Tenancy.TokenTraffic

namespace IndexVault

open IdentityProvider (subjectOf)

/-- A reply that gives the subject a validation answers at some time: the validation received it itself,
or it was received less than a lifetime before that. -/
structure Receipt.Justifies (lifetime : Nat) (x : Receipt) (n : Nat) (v : Validation)
    (subject : String) (answeredAt : Nat) : Prop where
  grants : x.Grants v.token subject
  received : x.receivedAt ≤ answeredAt
  recent : x.call = n ∧ v.startedAt ≤ x.receivedAt ∨ answeredAt < x.receivedAt + lifetime

namespace TokenTraffic

variable {lifetime clock : Nat} {s s' : TokenTraffic}

/-- Everything that is kept, held or answered is in the record of replies. -/
structure Traced (lifetime : Nat) (s : TokenTraffic) : Prop where
  lasting : s.provider.lifetime = lifetime
  dated : ∀ x ∈ s.receipts, x.receivedAt ≤ s.clock ∧ x.call < s.validations.length
  kept : ∀ token c, s.provider.tokens.get? token = some c →
    ∃ x ∈ s.receipts, x.Grants token c.subject ∧ c.expiresAt = x.receivedAt + lifetime
  started : ∀ (n : Nat) v, s.validations[n]? = some v → v.startedAt ≤ s.clock
  held : ∀ (n : Nat) v, s.validations[n]? = some v → ∀ reply receivedAt,
    v.phase = .received reply receivedAt →
      v.startedAt ≤ receivedAt ∧ ⟨n, v.token, reply, receivedAt⟩ ∈ s.receipts
  answered : ∀ (n : Nat) v, s.validations[n]? = some v → ∀ caller answeredAt,
    v.phase = .answered (.ok caller) answeredAt →
      v.startedAt ≤ answeredAt ∧ caller.bearer = some v.token ∧
        ∃ x ∈ s.receipts, x.Justifies lifetime n v caller.authzId answeredAt

theorem traced_opened (lifetime clock : Nat) : (opened lifetime clock).Traced lifetime where
  lasting := rfl
  dated := by
    intro x hx
    cases hx
  kept := by
    intro token c hc
    cases hc
  started := by
    intro n v hv
    cases hv
  held := by
    intro n v hv
    cases hv
  answered := by
    intro n v hv
    cases hv

namespace Traced

/-- Replies are received in the past, by validations that have begun. -/
theorem dated_step (hs : s.Traced lifetime) (h : Step s s') {x : Receipt} (hx : x ∈ s'.receipts) :
    x.receivedAt ≤ s'.clock ∧ x.call < s'.validations.length := by
  have hclock := h.clock_le
  have hlength := h.length_validations_le
  have hold (hmem : x ∈ s.receipts) :
      x.receivedAt ≤ s'.clock ∧ x.call < s'.validations.length := by
    obtain ⟨hreceived, hcall⟩ := hs.dated x hmem
    omega
  rcases h.receipts_cases with hsame | ⟨n, v, service, hv, -, hnew⟩
  · rw [hsame] at hx
    exact hold hx
  · rw [hnew] at hx
    rcases List.mem_append.1 hx with hmem | hlast
    · exact hold hmem
    · cases List.mem_singleton.1 hlast
      have hn : n < s.validations.length := (List.getElem?_eq_some_iff.1 hv).1
      exact ⟨hclock, Nat.lt_of_lt_of_le hn hlength⟩

/-- Whatever is kept after a step was granted by a reply, and expires one lifetime after it. -/
theorem kept_step (hs : s.Traced lifetime) (h : Step s s') {token : String} {c : CachedToken}
    (hc : s'.provider.tokens.get? token = some c) :
    ∃ x ∈ s'.receipts, x.Grants token c.subject ∧ c.expiresAt = x.receivedAt + lifetime := by
  have hold (hkept : s.provider.tokens.get? token = some c) :
      ∃ x ∈ s'.receipts, x.Grants token c.subject ∧ c.expiresAt = x.receivedAt + lifetime := by
    obtain ⟨x, hx, hgrants⟩ := hs.kept token c hkept
    exact ⟨x, h.receipts_subset hx, hgrants⟩
  rcases h.provider_cases with
    hsame | ⟨v, hv, reply, receivedAt, subject, hphase, hsubject, hremembered⟩
  · rw [hsame] at hc
    exact hold hc
  · rw [hremembered] at hc
    rcases IdentityProvider.get?_remember hc with ⟨rfl, rfl⟩ | hkept
    · -- What the validation settles was recorded when it was received.
      obtain ⟨n, hn⟩ := List.getElem?_of_mem hv
      obtain ⟨-, hreceipt⟩ := hs.held n v hn reply receivedAt hphase
      exact ⟨_, h.receipts_subset hreceipt, ⟨rfl, hsubject⟩, by rw [hs.lasting]⟩
    · exact hold hkept

/-- A token that is kept and has not expired was accepted less than a lifetime ago. -/
theorem justifies_of_cached (hs : s.Traced lifetime) {n : Nat} {v : Validation} {subject : String}
    (hcached : s.provider.cached? v.token s.clock = some subject) :
    ∃ x ∈ s.receipts, x.Justifies lifetime n v subject s.clock := by
  obtain ⟨c, hc, rfl, hnow⟩ := IdentityProvider.cached?_eq_some hcached
  obtain ⟨x, hx, hgrants, hexpires⟩ := hs.kept _ c hc
  exact ⟨x, hx, hgrants, (hs.dated x hx).1, Or.inr (hexpires ▸ hnow)⟩

/-- A validation that is answered has a reply behind it that grants the token to the caller. -/
theorem answered_step (hs : s.Traced lifetime) (h : Step s s') {n : Nat} {v' : Validation}
    (hv' : s'.validations[n]? = some v') {caller : Caller} {answeredAt : Nat}
    (hphase : v'.phase = .answered (.ok caller) answeredAt) :
    v'.startedAt ≤ answeredAt ∧ caller.bearer = some v'.token ∧
      ∃ x ∈ s'.receipts, x.Justifies lifetime n v' caller.authzId answeredAt := by
  rcases h.validation_cases hv' with hold | ⟨-, -, hnew⟩ | ⟨v, hv, htoken, hstart, hadvance, -⟩
  · obtain ⟨hle, hbearer, x, hx, hjustifies⟩ := hs.answered n v' hold caller answeredAt hphase
    exact ⟨hle, hbearer, x, h.receipts_subset hx, hjustifies⟩
  · cases hnew.symm.trans hphase
  · have hstarted := hs.started n v hv
    obtain ⟨token, startedAt, phase⟩ := v'
    cases htoken
    cases hstart
    cases hphase
    -- Either the check found the token kept, or the validation settled its own reply.
    cases hadvance with
    | hit _ hcached =>
      obtain ⟨x, hx, hjustifies⟩ := hs.justifies_of_cached (n := n) hcached
      exact ⟨hstarted, rfl, x, h.receipts_subset hx, hjustifies.grants, hjustifies.received,
        hjustifies.recent⟩
    | @settle reply receivedAt _ hreceived hresult =>
      obtain ⟨hle, hreceipt⟩ := hs.held n v hv reply receivedAt hreceived
      cases hsubject : subjectOf reply with
      | error e =>
        rw [IdentityProvider.receive_of_error hsubject] at hresult
        cases hresult
      | ok subject =>
        rw [IdentityProvider.receive_of_ok hsubject] at hresult
        cases hresult
        exact ⟨hstarted, rfl, _, h.receipts_subset hreceipt, ⟨rfl, hsubject⟩,
          (hs.dated _ hreceipt).1, Or.inl ⟨rfl, hle⟩⟩

/-- A step keeps all that is kept and all that is answered traced back to replies. -/
theorem step (hs : s.Traced lifetime) (h : Step s s') : s'.Traced lifetime := by
  refine ⟨?lasting, fun x hx => hs.dated_step h hx, fun token c hc => hs.kept_step h hc, ?started,
    ?held, fun n v hv caller answeredAt hphase => hs.answered_step h hv hphase⟩
  case lasting =>
    rcases h.provider_cases with hsame | ⟨v, -, reply, receivedAt, subject, -, -, hremembered⟩
    · rw [hsame, hs.lasting]
    · rw [hremembered]
      exact hs.lasting
  case started =>
    intro n v' hv'
    have hclock := h.clock_le
    -- a validation is an old one, has just begun, or was moved on by this step
    rcases h.validation_cases hv' with hold | ⟨-, hstart, -⟩ | ⟨v, hv, -, hstart, -, -⟩
    · exact Nat.le_trans (hs.started n v' hold) hclock
    · omega
    · have hstarted := hs.started n v hv
      omega
  case held =>
    intro n v' hv' reply receivedAt hphase
    rcases h.validation_cases hv' with
      hold | ⟨-, -, hnew⟩ | ⟨v, hv, htoken, hstart, hadvance, hrecorded⟩
    · obtain ⟨hle, hmem⟩ := hs.held n v' hold reply receivedAt hphase
      exact ⟨hle, h.receipts_subset hmem⟩
    · cases hnew.symm.trans hphase
    · rw [htoken, hstart]
      refine ⟨?_, hrecorded reply receivedAt hphase⟩
      have hstarted := hs.started n v hv
      rw [hphase] at hadvance
      cases hadvance
      exact hstarted

theorem reaches (hs : s.Traced lifetime) (h : s.Reaches s') : s'.Traced lifetime := by
  induction h with
  | start => exact hs
  | step _ hstep ih => exact ih.step hstep

end Traced

/-- What has been received since stays apart, and a validation that has started since started later. -/
theorem Reaches.since (h : s.Reaches s') :
    s.clock ≤ s'.clock ∧ (∃ later, s'.receipts = s.receipts ++ later) ∧
      ∀ (n : Nat) v, s.validations.length ≤ n → s'.validations[n]? = some v →
        s.clock ≤ v.startedAt := by
  induction h with
  | start =>
    refine ⟨Nat.le_refl _, ⟨[], (List.append_nil _).symm⟩, ?_⟩
    intro n v hn hv
    -- no validation has begun since
    rw [List.getElem?_eq_none hn] at hv
    cases hv
  | step _ hstep ih =>
    obtain ⟨hclock, ⟨later, hlater⟩, hstarted⟩ := ih
    refine ⟨Nat.le_trans hclock hstep.clock_le, ?_, ?_⟩
    · rcases hstep.receipts_cases with hsame | ⟨n, v, service, -, -, hnew⟩
      · exact ⟨later, hsame.trans hlater⟩
      · rw [hlater, List.append_assoc] at hnew
        exact ⟨_, hnew⟩
    · intro n v' hn hv'
      rcases hstep.validation_cases hv' with hold | ⟨-, hstart, -⟩ | ⟨v, hv, -, hstart, -⟩
      · exact hstarted n v' hn hold
      · rw [hstart]
        exact hclock
      · rw [hstart]
        exact hstarted n v hn hv

/-- A token that was last accepted a lifetime ago, and is not accepted again, is not answered to a
validation that starts now or later. -/
theorem not_answered_of_expired (hs : s.Traced lifetime) (hs' : s'.Traced lifetime)
    (h : s.Reaches s') {later : List Receipt} (hlater : s'.receipts = s.receipts ++ later)
    {token : String} (hstops : ∀ x ∈ later, ∀ subject, ¬ x.Grants token subject)
    (hexpired : ∀ x ∈ s.receipts, ∀ subject, x.Grants token subject →
      x.receivedAt + lifetime ≤ s.clock)
    {n : Nat} (hn : s.validations.length ≤ n) {v : Validation}
    (hv : s'.validations[n]? = some v) (htoken : v.token = token) (caller : Caller)
    (answeredAt : Nat) : v.phase ≠ .answered (.ok caller) answeredAt := by
  intro hphase
  obtain ⟨hle, -, x, hx, hjustifies⟩ := hs'.answered n v hv caller answeredAt hphase
  have hgrants := hjustifies.grants
  rw [htoken] at hgrants
  rw [hlater] at hx
  rcases List.mem_append.1 hx with hold | hnew
  · have hlast := hexpired x hold _ hgrants
    have hstarted := h.since.2.2 n v hn hv
    -- The reply is too old, and it is not the validation's own, which started after it.
    rcases hjustifies.recent with ⟨hcall, -⟩ | hrecent
    · have hbefore := (hs.dated x hold).2
      omega
    · omega
  · exact hstops x hnew _ hgrants

/-- A whole validation has been answered, by what is kept or by a reply of the provider. -/
def validated (s : TokenTraffic) (service : RemoteService) (token : String) : TokenTraffic :=
  { s with
    provider := (s.provider.validate service token s.clock).1
    validations := s.validations ++
      [⟨token, s.clock, .answered (s.provider.validate service token s.clock).2 s.clock⟩]
    receipts := s.receipts ++
      match s.provider.cached? token s.clock with
      | some _ => []
      | none => [⟨s.validations.length, token, service.ask token, s.clock⟩] }

theorem moved_last (s : TokenTraffic) (v w : Validation) (phase : ValidationPhase) :
    ({ s with validations := s.validations ++ [w] } : TokenTraffic).moved s.validations.length v
        phase =
      { s with validations := s.validations ++ [{ v with phase := phase }] } := by
  simp [moved]

/-- A validation whose steps follow each other directly does what `IdentityProvider.validate` does. -/
theorem reaches_validated (s : TokenTraffic) (service : RemoteService) (token : String) :
    s.Reaches (s.validated service token) := by
  have hstarted := Reaches.start.step (.start (s := s) token)
  have hchecked := hstarted.step (.check List.getElem?_concat_length rfl)
  rw [moved_last, checkedPhase] at hchecked
  rw [validated, IdentityProvider.validate]
  cases hcached : s.provider.cached? token s.clock with
  | some subject =>
    simp only [hcached] at hchecked
    rw [List.append_nil]
    exact hchecked
  | none =>
    simp only [hcached] at hchecked
    -- nothing usable is kept, so the provider is asked and its reply settled
    have hreceived := hchecked.step (.receive service List.getElem?_concat_length rfl)
    rw [moved_last] at hreceived
    have hsettled := hreceived.step (.settle List.getElem?_concat_length rfl)
    have hlast := moved_last
      { s with receipts := s.receipts ++ [⟨s.validations.length, token, service.ask token, s.clock⟩] }
    rw [hlast] at hsettled
    exact hsettled

/-- However the steps of validations mix while time passes, whatever the provider replies and for every
lifetime, from a provider that keeps no token:
whoever is answered for a token is the nonempty subject of a reply to exactly that token, which the
validation received itself or which was received less than a lifetime before the answer;
a token that the provider last accepted a lifetime ago, and does not accept again, is accepted by no
validation that starts from then on;
only a token that was accepted is kept, and for one lifetime from that reply, and what is kept changes
only when such a reply is settled;
and with a lifetime of zero no token counts as kept, so every answer is from the validation's own
reply. -/
theorem validations_vouched_for (hs : (opened lifetime clock).Reaches s) :
    (∀ (n : Nat) v caller answeredAt, s.validations[n]? = some v →
      v.phase = .answered (.ok caller) answeredAt →
        caller.bearer = some v.token ∧ caller.authzId ≠ "" ∧
          ∃ x ∈ s.receipts, x.Justifies lifetime n v caller.authzId answeredAt) ∧
    (∀ s', s.Reaches s' → ∃ later, s'.receipts = s.receipts ++ later ∧
      ∀ token, (∀ x ∈ later, ∀ subject, ¬ x.Grants token subject) →
        (∀ x ∈ s.receipts, ∀ subject, x.Grants token subject →
          x.receivedAt + lifetime ≤ s.clock) →
        ∀ (n : Nat) v, s.validations.length ≤ n → s'.validations[n]? = some v → v.token = token →
          ∀ caller answeredAt, v.phase ≠ .answered (.ok caller) answeredAt) ∧
    (∀ token c, s.provider.tokens.get? token = some c →
      ∃ x ∈ s.receipts, x.Grants token c.subject ∧ c.expiresAt = x.receivedAt + lifetime) ∧
    (∀ s', Step s s' → s'.provider = s.provider ∨
      ∃ v ∈ s.validations, ∃ reply receivedAt subject, v.phase = .received reply receivedAt ∧
        subjectOf reply = .ok subject ∧
        s'.provider = s.provider.remember v.token subject receivedAt) ∧
    (lifetime = 0 → (∀ token, s.provider.cached? token s.clock = none) ∧
      ∀ (n : Nat) v caller answeredAt, s.validations[n]? = some v →
        v.phase = .answered (.ok caller) answeredAt →
          ∃ x ∈ s.receipts, x.Grants v.token caller.authzId ∧ x.call = n ∧
            v.startedAt ≤ x.receivedAt) := by
  have htraced := (traced_opened lifetime clock).reaches hs
  refine ⟨?justified, ?stopped, htraced.kept, fun s' h => h.provider_cases, ?unused⟩
  case justified =>
    intro n v caller answeredAt hv hphase
    obtain ⟨-, hbearer, x, hx, hjustifies⟩ := htraced.answered n v hv caller answeredAt hphase
    have hnonempty := IdentityProvider.ne_empty_of_subjectOf hjustifies.grants.subject
    exact ⟨hbearer, hnonempty, x, hx, hjustifies⟩
  case stopped =>
    intro s' h
    obtain ⟨-, ⟨later, hlater⟩, -⟩ := h.since
    refine ⟨later, hlater, ?_⟩
    intro token hstops hexpired n v hn hv htoken
    exact not_answered_of_expired htraced (htraced.reaches h) h hlater hstops hexpired hn hv
      htoken
  case unused =>
    -- with no lifetime a kept token has expired by the time it was received
    rintro rfl
    refine ⟨?_, ?_⟩
    · intro token
      apply IdentityProvider.cached?_eq_none
      intro c hc
      obtain ⟨x, hx, -, hexpires⟩ := htraced.kept token c hc
      have hdated := (htraced.dated x hx).1
      omega
    · intro n v caller answeredAt hv hphase
      obtain ⟨-, -, x, hx, hjustifies⟩ := htraced.answered n v hv caller answeredAt hphase
      have hreceived := hjustifies.received
      rcases hjustifies.recent with ⟨hcall, hstarted⟩ | hrecent
      · exact ⟨x, hx, hjustifies.grants, hcall, hstarted⟩
      · omega

/-- A provider for which every token is one of the same subject. -/
def alwaysAlice : RemoteService := fun _ => .answered 200 (Bytes.ofText "\x7b\"sub\":\"alice\"\x7d")

/-- A token was accepted, and is still kept when it is validated again. -/
def acceptedTwice : TokenTraffic :=
  { (opened 60000 0).validated alwaysAlice "t0" with clock := 59999 }.validated alwaysAlice "t0"

theorem reaches_acceptedTwice : (opened 60000 0).Reaches acceptedTwice := by
  have hfirst := (opened 60000 0).reaches_validated alwaysAlice "t0"
  have hlater := hfirst.step (.wait (show 0 ≤ 59999 by decide))
  exact hlater.trans (reaches_validated _ alwaysAlice "t0")

/-- The second answer is from what is kept. -/
theorem validations_vouched_for_acceptedTwice :
    (opened 60000 0).Reaches acceptedTwice ∧ acceptedTwice.receipts.length = 1 ∧
      ∃ v, acceptedTwice.validations[1]? = some v ∧
        v.phase = .answered (.ok ⟨"alice", some "t0"⟩) 59999 ∧
        ∃ x ∈ acceptedTwice.receipts, x.Justifies 60000 1 v "alice" 59999 := by
  refine ⟨reaches_acceptedTwice, rfl, _, rfl, rfl, ?_⟩
  exact ((validations_vouched_for reaches_acceptedTwice).1 1 _ _ _ rfl rfl).2.2

end TokenTraffic
end IndexVault
