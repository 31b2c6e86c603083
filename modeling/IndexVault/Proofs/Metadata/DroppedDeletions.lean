import IndexVault.Proofs.Metadata.TrafficCoherence

namespace IndexVault

namespace Traffic

variable {s s' : Traffic} {publicId : String}

/-- The deletion that found the row of a public id has not evicted it yet. -/
def Owes (s : Traffic) (publicId : String) : Prop :=
  ∃ d ∈ s.deletions, d.publicId = publicId ∧ d.found = true ∧ d.evicted = false

/-- A public id whose row is deleted is forgotten, or its eviction is due. -/
def Accounted (s : Traffic) : Prop :=
  ∀ publicId, s.registry.HasDeleted publicId → s.Forgotten publicId ∨ s.Owes publicId

/-- A step accounts for every public id that it leaves deleted and not yet evicted. -/
theorem Accounted.step (hs : s.Accounted) (hclocked : s.Clocked) (hcalm : s.Calm)
    (h : Step s s') : s'.Accounted := by
  intro publicId hdeleted
  rcases h.deleted_cases hdeleted with hbefore | howes
  · rcases hs publicId hbefore with hforgotten | ⟨d, hd, rfl, hfound, hwaits⟩
    · exact Or.inl (hforgotten.step hclocked hcalm h)
    · -- What was due stays due until something evicts the public id.
      rcases h.deletion_stays hd with hstays | hevicts
      · exact Or.inr ⟨d, hstays, rfl, hfound, hwaits⟩
      · exact Or.inl (hevicts.forgotten hclocked hbefore)
  · exact Or.inr howes

/-- Rows that are deleted from the start were never cached. -/
theorem accounted_start (r : Registry) : ({ registry := r } : Traffic).Accounted := by
  intro publicId hdeleted
  refine Or.inl ⟨hdeleted.1, hdeleted.2, rfl, fun l hl => ?_⟩
  cases hl

/-- A run of steps keeps every deleted public id accounted for. -/
theorem Accounted.reaches (hs : s.Sound) (haccounted : s.Accounted) (h : s.Reaches s') :
    s'.Accounted := by
  induction h with
  | start => exact haccounted
  | step hreaches hstep _ ih =>
    have hsound := hs.reaches hreaches
    exact ih.step hsound.clocked hsound.calm hstep

/-- A row that is deleted stays so. -/
theorem hasDeleted_reaches (hdeleted : s.registry.HasDeleted publicId) (h : s.Reaches s') :
    s'.registry.HasDeleted publicId := by
  induction h with
  | start => exact hdeleted
  | step _ hstep _ ih => exact hstep.evolves.hasDeleted ih

/-- A deletion that evicts once the row is deleted makes the public id forgotten, whether or not it is
the one that found the row. -/
theorem forgotten_or_evicted_before (hs : s.Sound) (hdeleted : s.registry.HasDeleted publicId)
    (h : s.Reaches s') :
    s'.Forgotten publicId ∨ ∀ (n : Nat) d, s'.deletions[n]? = some d → d.publicId = publicId →
      d.evicted = true → s.deletions[n]? = some d := by
  induction h with
  | start => exact Or.inr fun n d hd _ _ => hd
  | @step t t' hreaches hstep _ ih =>
    have hsound := hs.reaches hreaches
    have hnow := hasDeleted_reaches hdeleted hreaches
    rcases ih with hforgotten | hbefore
    · exact Or.inl (hforgotten.step hsound.clocked hsound.calm hstep)
    by_cases hevicts : t.Evicts t' publicId
    · exact Or.inl (hevicts.forgotten hsound.clocked hnow)
    · right
      intro n d hd hid hevicted
      rcases hstep.evicted_cases hd hevicted with hold | hevicts'
      · exact hbefore n d hold hid hevicted
      · exact absurd (hid ▸ hevicts') hevicts

/-- From now on a public id is refused: whatever happens, it is not cached, a lookup that starts answers
none, and so does a callback, whose lookup goes through at once. -/
def Refused (s : Traffic) (publicId : String) : Prop :=
  ∀ s', s.Reaches s' → s'.cache.entries.get? publicId = none ∧
    (s'.cache.lookup s'.registry publicId).2 = .ok none ∧
    ∀ (n : Nat) l, s.lookups.length ≤ n → s'.lookups[n]? = some l → l.publicId = publicId →
      ∀ row, l.phase = .answered row → row = none

/-- A public id that is forgotten is refused to every lookup that starts now. -/
theorem Forgotten.refused (hs : s.Sound) (h : s.Forgotten publicId) : s.Refused publicId := by
  intro s' hreaches
  have hnow := h.reaches hs hreaches
  have hready := (hs.reaches hreaches).faithful.ready
  refine ⟨hnow.uncached, ?lookup, ?later⟩
  case lookup =>
    have hmiss : s'.cache.probe publicId = .miss s'.cache.generation := by
      rw [IndexCache.probe, hnow.uncached]
    have hrow : s'.registry.get? publicId = .ok none :=
      Registry.get?_eq_ok_iff.2 ⟨hready, hnow.deleted⟩
    rw [IndexCache.lookup, hmiss]
    simp only [hrow]
  case later =>
    intro n l hn hl hid row hanswered
    have hnone := h.row?_of_later hs hreaches hn hl hid
    exact (LookupPhase.row?_of_answered hanswered).symm.trans hnone

end Traffic

/-- A request to delete an index whose update has not run yet. -/
structure DeleteRequest where
  publicId : String
  authzId : String
  dropped : Bool

/-- The traffic with the requests behind its deletions: those that wait for their update, and the
numbers of the deletions whose requests were dropped. -/
structure RequestTraffic where
  traffic : Traffic
  waiting : List DeleteRequest := []
  dropped : List Nat := []

namespace RequestTraffic

/-- One step of one client, or a request that is dropped. The update of a request that was dropped may
still run, but what was dropped does not go on to evict. -/
inductive Step (s : RequestTraffic) : RequestTraffic → Prop
  | send (publicId authzId : String) :
    Step s { s with waiting := s.waiting ++ [⟨publicId, authzId, false⟩] }
  | mark {n : Nat} {q : DeleteRequest} {now : Moment} {registry : Registry} {found : Bool}
      (hq : s.waiting[n]? = some q)
      (hdone : s.traffic.registry.delete q.publicId q.authzId now = .ok (registry, found)) :
    Step s {
      traffic := { s.traffic with
        registry := registry
        deletions := s.traffic.deletions ++ [⟨q.publicId, found, false⟩] }
      waiting := s.waiting.eraseIdx n
      dropped := if q.dropped then s.dropped ++ [s.traffic.deletions.length] else s.dropped }
  | evict {n : Nat} {d : Deletion} (hd : s.traffic.deletions[n]? = some d)
      (hwaits : d.evicted = false) (hkept : n ∉ s.dropped) :
    Step s { s with
      traffic := { s.traffic with
        cache := s.traffic.cache.evict d.publicId
        deletions := s.traffic.deletions.set n { d with evicted := true }
        evictions := s.traffic.evictions + 1 } }
  | dropWaiting {n : Nat} {q : DeleteRequest} (hq : s.waiting[n]? = some q) :
    Step s { s with waiting := s.waiting.set n { q with dropped := true } }
  | dropMarked {n : Nat} {d : Deletion} (hd : s.traffic.deletions[n]? = some d)
      (hwaits : d.evicted = false) :
    Step s { s with dropped := s.dropped ++ [n] }
  -- Lookups and creations are the steps that leave the deletions as they are.
  | other {t : Traffic} (h : Traffic.Step s.traffic t)
      (hsame : t.deletions = s.traffic.deletions) :
    Step s { s with traffic := t }

/-- The states that any mix of steps comes to. -/
inductive Reaches (start : RequestTraffic) : RequestTraffic → Prop
  | start : Reaches start start
  | step {s s' : RequestTraffic} (hs : Reaches start s) (h : Step s s')
      (hcalm : s'.traffic.Calm) : Reaches start s'

/-- Some request for a public id has neither evicted it nor been dropped. -/
def InProgress (s : RequestTraffic) (publicId : String) : Prop :=
  (∃ q ∈ s.waiting, q.publicId = publicId ∧ q.dropped = false) ∨
    ∃ (n : Nat) (d : Deletion), s.traffic.deletions[n]? = some d ∧ d.publicId = publicId ∧
      d.evicted = false ∧ n ∉ s.dropped

/-- The request that deleted the row of a public id was dropped before it evicted. -/
def CutShort (s : RequestTraffic) (publicId : String) : Prop :=
  ∃ (n : Nat) (d : Deletion), s.traffic.deletions[n]? = some d ∧ d.publicId = publicId ∧
    d.found = true ∧ d.evicted = false ∧ n ∈ s.dropped

variable {s s' : RequestTraffic} {publicId : String}

/-- A step of requests is a step of the traffic below them, or none. -/
theorem Step.traffic (h : Step s s') :
    s'.traffic = s.traffic ∨ Traffic.Step s.traffic s'.traffic := by
  cases h with
  | mark hq hdone => exact Or.inr (.mark hdone)
  | evict hd hwaits hkept => exact Or.inr (.evict hd hwaits)
  | other hstep hsame => exact Or.inr hstep
  | send | dropWaiting | dropMarked => exact Or.inl rfl

theorem Reaches.traffic (h : s.Reaches s') : s.traffic.Reaches s'.traffic := by
  induction h with
  | start => exact .start
  | step _ hstep hcalm ih =>
    rcases hstep.traffic with hsame | hmoves
    · rw [hsame]
      exact ih
    · exact ih.step hmoves hcalm

/-- An eviction that is due will be made by a request in progress, unless that was cut short. -/
theorem inProgress_or_cutShort_of_owes (h : s.traffic.Owes publicId) :
    s.InProgress publicId ∨ s.CutShort publicId := by
  obtain ⟨d, hd, hid, hfound, hwaits⟩ := h
  obtain ⟨n, hn⟩ := List.getElem?_of_mem hd
  by_cases hdropped : n ∈ s.dropped
  · exact Or.inr ⟨n, d, hn, hid, hfound, hwaits, hdropped⟩
  · exact Or.inl (Or.inr ⟨n, d, hn, hid, hwaits, hdropped⟩)

/-- However lookups, creations and requests to delete mix, and whatever requests are dropped while they
wait, as long as fewer than `2 ^ 64` evictions fall inside one lookup: a public id whose row is deleted
is refused once no request for it is in progress, unless the request that deleted the row was dropped
before it evicted; and it is refused in any case once some request for it evicts after the row was
deleted. -/
theorem deleted_uncached_unless_cut_short {r : Registry} (hready : r.ready = .ok ())
    (hdistinct : r.DistinctIds) (hs : ({ traffic := { registry := r } } : RequestTraffic).Reaches s)
    {i : Index} (hi : i ∈ s.traffic.registry.rows) (hdeleted : i.isLive = false) :
    (¬s.InProgress i.publicId → ¬s.CutShort i.publicId → s.traffic.Refused i.publicId) ∧
      ∀ s', s.Reaches s' →
        (∃ (n : Nat) (d : Deletion), s'.traffic.deletions[n]? = some d ∧
          d.publicId = i.publicId ∧ d.evicted = true ∧
          ∀ d', s.traffic.deletions[n]? = some d' → d'.evicted = false) →
        s'.traffic.Refused i.publicId := by
  have hstart : ({ registry := r } : Traffic).Sound := Traffic.sound_start hready hdistinct
  have hsound : s.traffic.Sound := hstart.reaches hs.traffic
  have hgone := hsound.faithful.distinctIds.hasDeleted hi hdeleted
  have haccounted : s.traffic.Accounted :=
    (Traffic.accounted_start r).reaches hstart hs.traffic
  refine ⟨fun hidle hwhole => ?_, fun s' hreaches hevicts => ?_⟩
  · rcases haccounted i.publicId hgone with hforgotten | howes
    · exact hforgotten.refused hsound
    · rcases inProgress_or_cutShort_of_owes howes with hbusy | hcut
      · exact absurd hbusy hidle
      · exact absurd hcut hwhole
  · obtain ⟨n, d, hd, hid, hevicted, hbefore⟩ := hevicts
    rcases Traffic.forgotten_or_evicted_before hsound hgone hreaches.traffic with
      hforgotten | hsame
    · exact hforgotten.refused (hsound.reaches hreaches.traffic)
    · -- The deletion had not evicted when the row was deleted.
      have hold := hbefore d (hsame n d hd hid hevicted)
      cases hevicted.symm.trans hold

section

open Traffic (calm_of_lt delete_oneRow deleting distinctIds_oneRow oneDeletedRow oneRow onlyRow)

/-- A lookup caches the only row, and a request then marks the row. -/
theorem reaches_deleting :
    ({ traffic := { registry := oneRow } } : RequestTraffic).Reaches { traffic := deleting } := by
  have hprobe := Reaches.start.step (.other (s := { traffic := { registry := oneRow } })
    (.probe "abcde") rfl) (calm_of_lt (by decide))
  have hread := hprobe.step (.other (.read (n := 0) rfl rfl rfl) rfl) (calm_of_lt (by decide))
  have hstore := hread.step (.other (.store (n := 0) rfl rfl) rfl) (calm_of_lt (by decide))
  have hsend := hstore.step (.send "abcde" "owner") (calm_of_lt (by decide))
  have hmark := hsend.step (.mark (n := 0) rfl delete_oneRow) (calm_of_lt (by decide))
  exact hmark

/-- The request was dropped before it evicted. -/
def cutShort : RequestTraffic where
  traffic := deleting
  dropped := [0]

theorem reaches_cutShort :
    ({ traffic := { registry := oneRow } } : RequestTraffic).Reaches cutShort :=
  reaches_deleting.step (.dropMarked (n := 0) rfl rfl) (calm_of_lt (by decide))

/-- The request went on to evict. -/
def carriedOut : RequestTraffic where
  traffic := { deleting with
    cache := deleting.cache.evict "abcde"
    deletions := [⟨"abcde", true, true⟩]
    evictions := 1 }

theorem reaches_carriedOut :
    ({ traffic := { registry := oneRow } } : RequestTraffic).Reaches carriedOut := by
  have hkept : 0 ∉ ({ traffic := deleting } : RequestTraffic).dropped := List.not_mem_nil
  have hevict := reaches_deleting.step (.evict (n := 0) rfl rfl hkept) (calm_of_lt (by decide))
  exact hevict

theorem settled_carriedOut :
    ¬carriedOut.InProgress onlyRow.publicId ∧ ¬carriedOut.CutShort onlyRow.publicId := by
  constructor
  · rintro (⟨q, hq, -⟩ | ⟨n, d, hd, -, hwaits, -⟩)
    · cases hq
    · -- The only deletion has evicted.
      cases List.mem_singleton.1 (List.mem_of_getElem? hd)
      cases hwaits
  · rintro ⟨n, d, -, -, -, -, hdropped⟩
    cases hdropped

theorem get?_cutShort :
    cutShort.traffic.cache.entries.get? onlyRow.publicId = some onlyRow :=
  SortedMap.get?_insert_self ∅ "abcde" onlyRow

theorem not_inProgress_cutShort : ¬cutShort.InProgress onlyRow.publicId := by
  rintro (⟨q, hq, -⟩ | ⟨n, d, hd, -, -, hkept⟩)
  · cases hq
  · -- The only deletion is the one whose request was dropped.
    obtain ⟨hn, -⟩ := List.getElem?_eq_some_iff.1 hd
    have hzero : n = 0 := Nat.lt_one_iff.1 hn
    exact hkept (hzero ▸ List.mem_cons_self)

/-- The index is deleted and no request for it is in progress, and yet it is cached. -/
theorem deleted_index_still_cached :
    ¬∀ (r : Registry) (s : RequestTraffic), r.ready = .ok () → r.DistinctIds →
      ({ traffic := { registry := r } } : RequestTraffic).Reaches s →
        ∀ i ∈ s.traffic.registry.rows, i.isLive = false → ¬s.InProgress i.publicId →
          s.traffic.cache.entries.get? i.publicId = none := by
  intro h
  have hnone := h oneRow cutShort rfl distinctIds_oneRow reaches_cutShort _
    List.mem_cons_self rfl not_inProgress_cutShort
  cases hnone.symm.trans get?_cutShort

/-- The row is refused once its request has evicted it, and also once, after that request was dropped,
somebody else asks for the same deletion, who finds nothing to delete and evicts. -/
theorem deleted_uncached_unless_cut_short_askedAgain :
    oneRow.ready = .ok () ∧ oneRow.DistinctIds ∧
      ({ traffic := { registry := oneRow } } : RequestTraffic).Reaches carriedOut ∧
      carriedOut.traffic.Refused "abcde" ∧
      ({ traffic := { registry := oneRow } } : RequestTraffic).Reaches cutShort ∧
      ∃ s, cutShort.Reaches s ∧ s.traffic.Refused "abcde" := by
  obtain ⟨hidle, hwhole⟩ := settled_carriedOut
  obtain ⟨hsettled, -⟩ := deleted_uncached_unless_cut_short rfl distinctIds_oneRow
    reaches_carriedOut (i := { onlyRow with deletedAt := some (.ofUnixSeconds 0) })
    List.mem_cons_self rfl
  have hsend := Reaches.start.step (.send (s := cutShort) "abcde" "stranger")
    (calm_of_lt (by decide))
  have hdone : oneDeletedRow.delete "abcde" "stranger" (.ofUnixSeconds 1) =
      .ok (oneDeletedRow, false) := rfl
  have hmark := hsend.step (.mark (n := 0) rfl hdone) (calm_of_lt (by decide))
  have hevict := hmark.step (.evict (n := 1) rfl rfl (by decide)) (calm_of_lt (by decide))
  obtain ⟨-, hagain⟩ := deleted_uncached_unless_cut_short rfl distinctIds_oneRow
    reaches_cutShort (i := { onlyRow with deletedAt := some (.ofUnixSeconds 0) })
    List.mem_cons_self rfl
  refine ⟨rfl, distinctIds_oneRow, reaches_carriedOut, hsettled hidle hwhole, reaches_cutShort,
    _, hevict, ?_⟩
  refine hagain _ hevict ⟨1, _, rfl, rfl, rfl, ?_⟩
  intro d hd
  cases hd

end

end RequestTraffic
end IndexVault
