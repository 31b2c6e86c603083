import IndexVault.Proofs.Tenancy.KeptTokens

/-! Validations of bearer tokens that overlap. A validation checks what is kept, asks the provider,
receives a reply and settles it, and the steps of many validations mix in any order while time passes;
one that is given up takes no further step. What was received is recorded, so that the inversion lemmas
of `Step` can say where everything that is kept or answered comes from. -/
namespace IndexVault

/-- How far a validation has come: it has started, it found nothing kept and asks the provider, it has
received a reply at some time, or it has answered at some time. -/
inductive ValidationPhase where
  | started
  | asking
  | received (reply : Reply) (receivedAt : Nat)
  | answered (result : Except Failure Caller) (answeredAt : Nat)

/-- A validation of a token, and when it started. -/
structure Validation where
  token : String
  startedAt : Nat
  phase : ValidationPhase := .started

/-- A reply of the provider to a token, with the number of the validation that received it. -/
structure Receipt where
  call : Nat
  token : String
  reply : Reply
  receivedAt : Nat

/-- The provider accepted a token and gave its subject. -/
structure Receipt.Grants (x : Receipt) (token subject : String) : Prop where
  token : x.token = token
  subject : IdentityProvider.subjectOf x.reply = .ok subject

/-- What the provider keeps and the time, with the validations so far in the order in which they started
and the replies in the order in which they were received. -/
structure TokenTraffic where
  provider : IdentityProvider
  clock : Nat
  validations : List Validation := []
  receipts : List Receipt := []

namespace TokenTraffic

/-- No token is kept and no validation has started. -/
def opened (lifetime clock : Nat) : TokenTraffic where
  provider.lifetime := lifetime
  clock := clock

/-- A validation has come to a phase. -/
def moved (s : TokenTraffic) (n : Nat) (v : Validation) (phase : ValidationPhase) : TokenTraffic :=
  { s with validations := s.validations.set n { v with phase := phase } }

/-- What a validation comes to by what is kept of its token. -/
def checkedPhase (s : TokenTraffic) (token : String) : ValidationPhase :=
  match s.provider.cached? token s.clock with
  | some subject => .answered (.ok ⟨subject, some token⟩) s.clock
  | none => .asking

/-- One step of one validation, or the passing of time. A reply is received from whatever the provider
is by then, and the clock is read with it. -/
inductive Step (s : TokenTraffic) : TokenTraffic → Prop
  | wait {later : Nat} (hlater : s.clock ≤ later) : Step s { s with clock := later }
  | start (token : String) :
    Step s { s with validations := s.validations ++ [⟨token, s.clock, .started⟩] }
  | check {n : Nat} {v : Validation} (hv : s.validations[n]? = some v) (hphase : v.phase = .started) :
    Step s (s.moved n v (s.checkedPhase v.token))
  | receive {n : Nat} {v : Validation} (service : RemoteService) (hv : s.validations[n]? = some v)
      (hphase : v.phase = .asking) :
    Step s { s.moved n v (.received (service.ask v.token) s.clock) with
      receipts := s.receipts ++ [⟨n, v.token, service.ask v.token, s.clock⟩] }
  | settle {n : Nat} {v : Validation} {reply : Reply} {receivedAt : Nat}
      (hv : s.validations[n]? = some v) (hphase : v.phase = .received reply receivedAt) :
    Step s { s.moved n v (.answered (s.provider.receive v.token reply receivedAt).2 s.clock) with
      provider := (s.provider.receive v.token reply receivedAt).1 }

/-- The states that any mix of steps comes to. -/
inductive Reaches (start : TokenTraffic) : TokenTraffic → Prop
  | start : Reaches start start
  | step {s s' : TokenTraffic} (hs : Reaches start s) (h : Step s s') : Reaches start s'

theorem Reaches.trans {s s' s'' : TokenTraffic} (h : s.Reaches s') (h' : s'.Reaches s'') :
    s.Reaches s'' := by
  induction h' with
  | start => exact h
  | step _ hstep ih => exact ih.step hstep

/-- A validation goes on by one step. -/
inductive Advance (s : TokenTraffic) (n : Nat) (v : Validation) : ValidationPhase → Prop
  | hit {subject : String} (hphase : v.phase = .started)
      (hkept : s.provider.cached? v.token s.clock = some subject) :
    Advance s n v (.answered (.ok ⟨subject, some v.token⟩) s.clock)
  | miss (hphase : v.phase = .started) (hkept : s.provider.cached? v.token s.clock = none) :
    Advance s n v .asking
  | receive (service : RemoteService) (hphase : v.phase = .asking) :
    Advance s n v (.received (service.ask v.token) s.clock)
  | settle {reply : Reply} {receivedAt : Nat} {result : Except Failure Caller}
      (hphase : v.phase = .received reply receivedAt)
      (hresult : (s.provider.receive v.token reply receivedAt).2 = result) :
    Advance s n v (.answered result s.clock)

namespace Step

variable {s s' : TokenTraffic} (h : Step s s')

include h

/-- Time does not run back. -/
theorem clock_le : s.clock ≤ s'.clock := by
  cases h with
  | wait hlater => exact hlater
  | start | check | receive | settle => exact Nat.le_refl _

/-- Validations that have begun stay on record. -/
theorem length_validations_le : s.validations.length ≤ s'.validations.length := by
  cases h with
  | start => simp
  | check | receive | settle => simp [moved]
  | wait => exact Nat.le_refl _

/-- A step receives nothing, or the reply to one validation that was asking. -/
theorem receipts_cases :
    s'.receipts = s.receipts ∨
      ∃ n v service, s.validations[n]? = some v ∧ v.phase = .asking ∧
        s'.receipts = s.receipts ++ [⟨n, v.token, RemoteService.ask service v.token, s.clock⟩] := by
  cases h with
  | receive service hv hphase => exact Or.inr ⟨_, _, service, hv, hphase, rfl⟩
  | wait | start | check | settle => exact Or.inl rfl

theorem receipts_subset : s.receipts ⊆ s'.receipts := by
  rcases h.receipts_cases with hsame | ⟨n, v, service, -, -, hnew⟩
  · rw [hsame]
    exact List.Subset.refl _
  · rw [hnew]
    exact List.subset_append_left _ _

/-- What is kept changes only when a validation settles a reply that gives a subject for its token. -/
theorem provider_cases :
    s'.provider = s.provider ∨
      ∃ v ∈ s.validations, ∃ reply receivedAt subject, v.phase = .received reply receivedAt ∧
        IdentityProvider.subjectOf reply = .ok subject ∧
        s'.provider = s.provider.remember v.token subject receivedAt := by
  cases h with
  | @settle n v reply receivedAt hv hphase =>
    cases hsubject : IdentityProvider.subjectOf reply with
    | error e => exact Or.inl (congrArg Prod.fst (IdentityProvider.receive_of_error hsubject))
    | ok subject =>
      have hkept : (s.provider.receive v.token reply receivedAt).1 =
          s.provider.remember v.token subject receivedAt :=
        congrArg Prod.fst (IdentityProvider.receive_of_ok hsubject)
      exact Or.inr ⟨v, List.mem_of_getElem? hv, reply, receivedAt, subject, hphase, hsubject, hkept⟩
  | wait | start | check | receive => exact Or.inl rfl

/-- A validation is as it was, or starts now, or goes on by one step; what it receives is recorded. -/
theorem validation_cases {n : Nat} {v' : Validation} (hv' : s'.validations[n]? = some v') :
    s.validations[n]? = some v' ∨
      (n = s.validations.length ∧ v'.startedAt = s.clock ∧ v'.phase = .started) ∨
      ∃ v, s.validations[n]? = some v ∧ v'.token = v.token ∧ v'.startedAt = v.startedAt ∧
        Advance s n v v'.phase ∧ ∀ reply receivedAt, v'.phase = .received reply receivedAt →
          ⟨n, v.token, reply, receivedAt⟩ ∈ s'.receipts := by
  -- A step that moves one validation leaves the others at their places.
  have hmoved {m : Nat} {v : Validation} {phase : ValidationPhase}
      (hm : (s.moved m v phase).validations[n]? = some v') :
      s.validations[n]? = some v' ∨ m = n ∧ v' = { v with phase := phase } := by
    rw [moved, List.getElem?_set] at hm
    split at hm
    · rename_i hmn
      split at hm
      · exact Or.inr ⟨hmn, (Option.some.inj hm).symm⟩
      · cases hm
    · exact Or.inl hm
  cases h with
  | wait => exact Or.inl hv'
  | start token =>
    dsimp only at hv'
    rw [List.getElem?_append] at hv'
    split at hv'
    · exact Or.inl hv'
    · obtain ⟨hlast, rfl⟩ := List.getElem?_eq_some_iff.1 hv'
      rw [List.length_singleton] at hlast
      refine Or.inr (Or.inl ⟨by omega, ?_⟩)
      rw [List.getElem_singleton]
      exact ⟨rfl, rfl⟩
  | @check m v hv hphase =>
    -- The only step with two outcomes: the token is kept, or the provider is asked.
    rcases hmoved hv' with hold | ⟨rfl, rfl⟩
    · exact Or.inl hold
    refine Or.inr (Or.inr ⟨v, hv, rfl, rfl, ?_⟩)
    dsimp only
    rw [checkedPhase]
    cases hkept : s.provider.cached? v.token s.clock with
    | some subject => exact ⟨.hit hphase hkept, fun _ _ hreceived => by cases hreceived⟩
    | none => exact ⟨.miss hphase hkept, fun _ _ hreceived => by cases hreceived⟩
  | @receive m v service hv hphase =>
    rcases hmoved hv' with hold | ⟨rfl, rfl⟩
    · exact Or.inl hold
    refine Or.inr (Or.inr ⟨v, hv, rfl, rfl, .receive service hphase, ?_⟩)
    intro reply receivedAt hreceived
    cases hreceived
    exact List.mem_append_right _ (List.mem_singleton.2 rfl)
  | @settle m v reply receivedAt hv hphase =>
    rcases hmoved hv' with hold | ⟨rfl, rfl⟩
    · exact Or.inl hold
    exact Or.inr (Or.inr ⟨v, hv, rfl, rfl, .settle hphase rfl,
      fun _ _ hreceived => by cases hreceived⟩)

end Step
end TokenTraffic
end IndexVault
