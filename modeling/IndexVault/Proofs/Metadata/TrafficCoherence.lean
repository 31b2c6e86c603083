import IndexVault.Proofs.Metadata.Traffic

namespace IndexVault

/-- The registry has the index under a public id, perhaps deleted by now. -/
def Registry.Knows (r : Registry) (publicId : String) (index : Index) : Prop :=
  ∃ row ∈ r.rows, row.publicId = publicId ∧ index = row.undeleted

/-- A row that the registry knows stays known, its time of deletion aside. -/
theorem Registry.Knows.evolves {r r' : Registry} {publicId : String} {index : Index}
    (hknows : r.Knows publicId index) (h : r.Evolves r') : r'.Knows publicId index := by
  obtain ⟨row, hrow, rfl, rfl⟩ := hknows
  obtain ⟨row', hrow', hsame⟩ := h.rows row hrow
  have hid : row'.undeleted.publicId = row.undeleted.publicId := congrArg Index.publicId hsame
  exact ⟨row', hrow', hid, hsame.symm⟩

theorem Registry.knows_of_findLive {r : Registry} {publicId : String} {index : Index}
    (h : r.findLive publicId = some index) : r.Knows publicId index := by
  obtain ⟨hmem, hid, hlive⟩ := Registry.findLive_spec h
  exact ⟨index, hmem, hid, (Index.undeleted_of_isLive hlive).symm⟩

/-- Two counts that lie less than `2 ^ 64` apart are different generations. -/
theorem generation_ne_of_lt {m n : Nat} (hlt : m < n) (hnear : n < m + UInt64.size) :
    UInt64.ofNat m ≠ UInt64.ofNat n := by
  intro heq
  have hnat := congrArg UInt64.toNat heq
  rw [UInt64.toNat_ofNat', UInt64.toNat_ofNat'] at hnat
  have hsize : UInt64.size = 2 ^ 64 := rfl
  omega

namespace Traffic

variable {s s' : Traffic} {publicId : String}

/-- The generation of the cache counts the evictions, and a lookup under way remembers the count at its
start. -/
structure Clocked (s : Traffic) : Prop where
  generation : s.cache.generation = UInt64.ofNat s.evictions
  remembered : ∀ l ∈ s.lookups, ∀ generation, l.phase.generation? = some generation →
    l.startedAt ≤ s.evictions ∧ generation = UInt64.ofNat l.startedAt

/-- A step keeps the generation of the cache and those that lookups remember in line with the number of
evictions. -/
theorem Clocked.step (hs : s.Clocked) (h : Step s s') : s'.Clocked := by
  constructor
  · rcases h.clock with ⟨hsame, hgeneration⟩ | ⟨hnext, hgeneration⟩
    · rw [hgeneration, hsame]
      exact hs.generation
    · rw [hgeneration, hnext, hs.generation, UInt64.ofNat_add]
      rfl
  · intro l' hl' generation hphase
    have hle := h.evictions_le
    obtain ⟨n, hn⟩ := List.getElem?_of_mem hl'
    -- Only a lookup that starts takes the generation of the cache; one that goes on keeps its own.
    rcases h.lookup_cases hn with hold | ⟨-, hstart, hnew⟩ | ⟨l, hl, -, hstart, hmoved⟩
    · obtain ⟨hbefore, hremembered⟩ := hs.remembered l' (List.mem_of_getElem? hold) _ hphase
      exact ⟨by omega, hremembered⟩
    · rcases hnew with ⟨index, -, hanswered⟩ | ⟨-, hmissed⟩
      · rw [hanswered] at hphase
        cases hphase
      · rw [hmissed] at hphase
        cases hphase
        rw [hstart]
        exact ⟨hle, hs.generation⟩
    · rcases hmoved with ⟨g, hmissed, hfetched⟩ | ⟨g, row, -, hanswered⟩
      · rw [hfetched] at hphase
        cases hphase
        have hmissed' : l.phase.generation? = some generation := by
          rw [hmissed]
          rfl
        obtain ⟨hbefore, hremembered⟩ := hs.remembered l (List.mem_of_getElem? hl) _ hmissed'
        rw [hstart]
        exact ⟨by omega, hremembered⟩
      · rw [hanswered] at hphase
        cases hphase

/-- No public id has two rows, and every index that is cached or held by a lookup has a row. -/
structure Faithful (s : Traffic) : Prop where
  ready : s.registry.ready = .ok ()
  distinctIds : s.registry.DistinctIds
  cached : ∀ publicId index, s.cache.entries.get? publicId = some index →
    s.registry.Knows publicId index
  held : ∀ l ∈ s.lookups, ∀ index, l.phase.row? = some index → s.registry.Knows l.publicId index

/-- What is cached or held by a lookup was read from the registry. -/
theorem Faithful.step (hs : s.Faithful) (h : Step s s') : s'.Faithful := by
  have hevolves := h.evolves
  refine ⟨hevolves.ready.trans hs.ready, hevolves.distinctIds hs.distinctIds, ?cached, ?held⟩
  case cached =>
    intro publicId index hcached
    rcases h.cache_cases hcached with hold | ⟨l, hl, rfl, hphase⟩
    · exact (hs.cached publicId index hold).evolves hevolves
    · exact (hs.held l hl index (LookupPhase.row?_of_fetched hphase)).evolves hevolves
  case held =>
    intro l' hl' index hrow
    obtain ⟨n, hn⟩ := List.getElem?_of_mem hl'
    -- A lookup has its row from the cache when it starts, else from the registry when it reads.
    rcases h.lookup_cases hn with hold | ⟨-, -, hnew⟩ | ⟨l, hl, hid, -, hmoved⟩
    · exact (hs.held l' (List.mem_of_getElem? hold) index hrow).evolves hevolves
    · rcases hnew with ⟨found, hcached, hanswered⟩ | ⟨-, hmissed⟩
      · rw [hanswered] at hrow
        cases hrow
        exact (hs.cached _ index hcached).evolves hevolves
      · rw [hmissed] at hrow
        cases hrow
    · rw [hid]
      rcases hmoved with ⟨g, -, hfetched⟩ | ⟨g, row, hfetched, hanswered⟩
      · rw [hfetched] at hrow
        exact (Registry.knows_of_findLive hrow).evolves hevolves
      · rw [hanswered] at hrow
        have hheld : l.phase.row? = some index := (LookupPhase.row?_of_fetched hfetched).trans hrow
        exact (hs.held l (List.mem_of_getElem? hl) index hheld).evolves hevolves

/-- A public id whose index is deleted and evicted for good: no lookup that still holds its row can
store it. -/
structure Forgotten (s : Traffic) (publicId : String) : Prop where
  taken : s.registry.isTaken publicId = true
  deleted : s.registry.findLive publicId = none
  uncached : s.cache.entries.get? publicId = none
  stale : ∀ l ∈ s.lookups, l.publicId = publicId → ∀ generation index,
    l.phase = .fetched generation (some index) → l.startedAt < s.evictions

/-- A public id that is forgotten stays so: a lookup that still holds its row remembers an earlier
generation, so the row is not stored. -/
theorem Forgotten.step (hs : s.Forgotten publicId) (hclocked : s.Clocked) (hcalm : s.Calm)
    (h : Step s s') : s'.Forgotten publicId := by
  refine ⟨h.evolves.isTaken hs.taken, h.evolves.findLive_eq_none hs.taken hs.deleted, ?uncached,
    ?stale⟩
  case uncached =>
    apply Option.eq_none_iff_forall_ne_some.2
    intro index hcached
    rcases h.cache_cases hcached with hold | ⟨l, hl, hid, hphase⟩
    · cases hs.uncached.symm.trans hold
    · have hgeneration := LookupPhase.generation?_of_fetched hphase
      -- The lookup that stored remembers the present generation, but is older than an eviction.
      have hstale : l.startedAt < s.evictions := hs.stale l hl hid _ index hphase
      have hnear : s.evictions < l.startedAt + UInt64.size := hcalm l hl _ hgeneration
      have hremembered := (hclocked.remembered l hl _ hgeneration).2
      exact generation_ne_of_lt hstale hnear (hremembered.symm.trans hclocked.generation)
  case stale =>
    intro l' hl' hid generation index hphase
    -- No lookup can come to hold the row now: the registry does not find it, and it is not cached.
    obtain ⟨n, hn⟩ := List.getElem?_of_mem hl'
    rcases h.lookup_cases hn with hold | ⟨-, -, hnew⟩ | ⟨l, -, hid', -, hmoved⟩
    · have hbefore := hs.stale l' (List.mem_of_getElem? hold) hid generation index hphase
      exact Nat.lt_of_lt_of_le hbefore h.evictions_le
    · rcases hnew with ⟨found, -, hanswered⟩ | ⟨-, hmissed⟩
      · cases hanswered.symm.trans hphase
      · cases hmissed.symm.trans hphase
    · rcases hmoved with ⟨g, -, hfetched⟩ | ⟨g, row, -, hanswered⟩
      · rw [← hid', hid, hs.deleted] at hfetched
        cases hfetched.symm.trans hphase
      · cases hanswered.symm.trans hphase

/-- An eviction behind the deletion of the row. -/
theorem Evicts.forgotten (h : s.Evicts s' publicId) (hclocked : s.Clocked)
    (hdeleted : s.registry.HasDeleted publicId) : s'.Forgotten publicId := by
  refine ⟨h.registry ▸ hdeleted.1, h.registry ▸ hdeleted.2, ?uncached, ?stale⟩
  case uncached =>
    rw [h.cache]
    have herased := SortedMap.get?_erase s.cache.entries publicId publicId
    rw [if_pos (SortedMap.compare_eq_iff.2 rfl)] at herased
    exact herased
  case stale =>
    -- Every lookup under way started before the eviction that has just happened.
    intro l hl _ generation index hphase
    rw [h.lookups] at hl
    have hgeneration := LookupPhase.generation?_of_fetched hphase
    have hbefore := (hclocked.remembered l hl _ hgeneration).1
    have hnext := h.evictions
    omega

/-- A deletion that found its index has deleted it for good, and once it has evicted the public id,
that is forgotten. -/
def Marked (s : Traffic) : Prop :=
  ∀ d ∈ s.deletions, d.found = true →
    s.registry.isTaken d.publicId = true ∧ s.registry.findLive d.publicId = none ∧
      (d.evicted = true → s.Forgotten d.publicId)

/-- An index that a deletion has found stays deleted, and is forgotten once that deletion has evicted. -/
theorem Marked.step (hs : s.Marked) (hclocked : s.Clocked) (hfaithful : s.Faithful) (hcalm : s.Calm)
    (h : Step s s') : s'.Marked := by
  intro d' hd' hfound
  -- the deletion is an old one, has just marked its row, or has just evicted
  rcases h.deletion_cases hd' with
    hold | ⟨hwaits, authzId, now, hdone⟩ | ⟨d, hd, hid, hsame, hevicts⟩
  · obtain ⟨htaken, hdeleted, hforgotten⟩ := hs d' hold hfound
    refine ⟨h.evolves.isTaken htaken, h.evolves.findLive_eq_none htaken hdeleted, ?_⟩
    intro hevicted
    exact (hforgotten hevicted).step hclocked hcalm h
  · rw [hfound] at hdone
    obtain ⟨htaken, hdeleted⟩ := Registry.findLive_of_deleted hfaithful.distinctIds hdone
    refine ⟨htaken, hdeleted, ?_⟩
    intro hevicted
    cases hwaits.symm.trans hevicted
  · rw [hsame] at hfound
    obtain ⟨htaken, hdeleted, -⟩ := hs d hd hfound
    have hforgotten := hevicts.forgotten hclocked ⟨htaken, hdeleted⟩
    rw [hid]
    exact ⟨hforgotten.taken, hforgotten.deleted, fun _ => hforgotten⟩

structure Sound (s : Traffic) : Prop where
  calm : s.Calm
  clocked : s.Clocked
  faithful : s.Faithful
  marked : s.Marked

/-- One step keeps the whole invariant. -/
theorem Sound.step (hs : s.Sound) (h : Step s s') (hcalm : s'.Calm) : s'.Sound :=
  ⟨hcalm, hs.clocked.step h, hs.faithful.step h,
    hs.marked.step hs.clocked hs.faithful hs.calm h⟩

/-- So does every run of steps. -/
theorem Sound.reaches (hs : s.Sound) (h : s.Reaches s') : s'.Sound := by
  induction h with
  | start => exact hs
  | step _ hstep hcalm ih => exact ih.step hstep hcalm

/-- The invariant holds before anything happened. -/
theorem sound_start {r : Registry} (hready : r.ready = .ok ()) (hdistinct : r.DistinctIds) :
    ({ registry := r } : Traffic).Sound where
  calm := by
    intro l hl
    cases hl
  clocked := by
    refine ⟨rfl, ?_⟩
    intro l hl
    cases hl
  faithful := by
    refine ⟨hready, hdistinct, ?_, ?_⟩
    · intro publicId index hcached
      cases hcached
    · intro l hl
      cases hl
  marked := by
    intro d hd
    cases hd

/-- A public id that is forgotten is never cached again. -/
theorem Forgotten.reaches (hs : s.Sound) (hforgotten : s.Forgotten publicId) (h : s.Reaches s') :
    s'.Forgotten publicId := by
  induction h with
  | start => exact hforgotten
  | step hreaches hstep _ ih =>
    have hsound := hs.reaches hreaches
    exact ih.step hsound.clocked hsound.calm hstep

/-- A lookup that starts when the public id is forgotten never holds a row. -/
theorem Forgotten.row?_of_later (hs : s.Sound) (hforgotten : s.Forgotten publicId)
    (h : s.Reaches s') {n : Nat} {l : Lookup} (hn : s.lookups.length ≤ n)
    (hl : s'.lookups[n]? = some l) (hid : l.publicId = publicId) : l.phase.row? = none := by
  -- on the steps since; a later look-up finds no cached row and reads no live one
  induction h generalizing l with
  | start =>
    rw [List.getElem?_eq_none hn] at hl
    cases hl
  | step hreaches hstep _ ih =>
    have hnow := hforgotten.reaches hs hreaches
    rcases hstep.lookup_cases hl with hold | ⟨-, -, hnew⟩ | ⟨before, hbefore, hid', -, hmoved⟩
    · exact ih hold hid
    · rcases hnew with ⟨index, hcached, -⟩ | ⟨-, hmissed⟩
      · rw [hid] at hcached
        cases hnow.uncached.symm.trans hcached
      · rw [hmissed]
        rfl
    · rw [hid'] at hid
      rcases hmoved with ⟨g, -, hfetched⟩ | ⟨g, row, hfetched, hanswered⟩
      · rw [hfetched, hid]
        exact hnow.deleted
      · have hrow : before.phase.row? = none := ih hbefore hid
        rw [LookupPhase.row?_of_answered hanswered, ← LookupPhase.row?_of_fetched hfetched]
        exact hrow

/-- A lookup serves an index while that is live: it has only missed the cache yet, or it holds the
index. -/
structure Serves (s : Traffic) (n : Nat) (publicId : String) (index : Index) : Prop where
  taken : s.registry.isTaken publicId = true
  unique : ∀ i, s.registry.findLive publicId = some i → i = index
  under : n < s.lookups.length
  serving : ∀ l, s.lookups[n]? = some l → l.publicId = publicId ∧
    (s.registry.findLive publicId = some index →
      (∃ generation, l.phase = .missed generation) ∨ l.phase.row? = some index)

/-- While an index is live, a lookup that has started goes on to it. -/
theorem Serves.step {n : Nat} {index : Index} (hs : s.Serves n publicId index)
    (hfaithful : s.Faithful) (h : Step s s') : s'.Serves n publicId index := by
  -- An index that is live after the step was live before it.
  have hbefore : ∀ i, s'.registry.findLive publicId = some i →
      s.registry.findLive publicId = some i := fun i hi =>
    h.evolves.findLive_before hfaithful.distinctIds hs.taken hi
  refine ⟨h.evolves.isTaken hs.taken, fun i hi => hs.unique i (hbefore i hi),
    Nat.lt_of_lt_of_le hs.under h.length_lookups_le, ?_⟩
  intro l' hl'
  rcases h.lookup_cases hl' with hold | ⟨hlast, -⟩ | ⟨l, hl, hid, -, hmoved⟩
  · obtain ⟨hid, hserving⟩ := hs.serving l' hold
    exact ⟨hid, fun hlive => hserving (hbefore index hlive)⟩
  · exact absurd hlast (Nat.ne_of_lt hs.under)
  · obtain ⟨hpublicId, hserving⟩ := hs.serving l hl
    refine ⟨hid.trans hpublicId, fun hlive => ?_⟩
    have hlive' := hbefore index hlive
    rcases hmoved with ⟨g, -, hfetched⟩ | ⟨g, row, hfetched, hanswered⟩
    · rw [hfetched, hpublicId]
      exact Or.inr hlive'
    · rcases hserving hlive' with ⟨g', hmissed⟩ | hrow
      · cases hmissed.symm.trans hfetched
      · right
        rw [LookupPhase.row?_of_answered hanswered, ← LookupPhase.row?_of_fetched hfetched]
        exact hrow

/-- A lookup that starts on a live index will answer it. -/
theorem serves_probed (hs : s.Faithful) {index : Index}
    (hlive : s.registry.findLive publicId = some index) :
    (s.probed publicId).Serves s.lookups.length publicId index := by
  obtain ⟨hmem, hid, hisLive⟩ := Registry.findLive_spec hlive
  refine ⟨Registry.isTaken_iff.2 ⟨index, hmem, hid⟩, ?_, by simp [probed], ?_⟩
  · intro i hi
    exact Option.some.inj (hi.symm.trans hlive)
  · intro l hl
    simp only [probed, List.getElem?_concat_length, Option.some.injEq] at hl
    subst hl
    refine ⟨rfl, fun _ => ?_⟩
    rcases LookupPhase.ofProbe_cases s.cache publicId with ⟨found, hcached, hhit⟩ | ⟨-, hmiss⟩
    · -- What is cached has a row, and the live index is the only row of its public id.
      obtain ⟨row, hrow, hrowId, rfl⟩ := hs.cached publicId found hcached
      have hsame : row = index := hs.distinctIds.eq_of_publicId_eq hrow hmem (hrowId.trans hid.symm)
      rw [hhit, hsame, Index.undeleted_of_isLive hisLive]
      exact Or.inr rfl
    · exact Or.inl ⟨_, hmiss⟩

/-- A lookup of an index that is live throughout answers no other row. -/
theorem Serves.reaches (hs : s.Sound) {n : Nat} {index : Index}
    (hserves : s.Serves n publicId index) (h : s.Reaches s') : s'.Serves n publicId index := by
  induction h with
  | start => exact hserves
  | step hreaches hstep _ ih => exact ih.step (hs.reaches hreaches).faithful hstep

theorem calm_probed (hs : s.Calm) (publicId : String) : (s.probed publicId).Calm := by
  intro l hl generation hgeneration
  rcases List.mem_append.1 hl with hold | hnew
  · exact hs l hold generation hgeneration
  · cases List.mem_singleton.1 hnew
    exact Nat.lt_add_of_pos_right (by decide)

/-- The next step of a lookup that is under way keeps the traffic calm. -/
theorem calm_set (hs : s.Calm) {n : Nat} {l : Lookup} (hl : s.lookups[n]? = some l)
    (phase : LookupPhase)
    (hphase : ∀ generation, phase.generation? = some generation →
      l.phase.generation? = some generation) (cache : IndexCache) :
    ({ s with cache := cache, lookups := s.lookups.set n { l with phase := phase } } : Traffic).Calm := by
  intro other hother generation hgeneration
  rcases List.mem_or_eq_of_mem_set hother with hold | rfl
  · exact hs other hold generation hgeneration
  · exact hs l (List.mem_of_getElem? hl) generation (hphase generation hgeneration)

/-- A lookup that has read its row can answer at once. -/
theorem answers_of_fetched (hs : s.Calm) {n : Nat} {l : Lookup} (hl : s.lookups[n]? = some l)
    {generation : UInt64} {row : Option Index} (hphase : l.phase = .fetched generation row) :
    ∃ s', s.Reaches s' ∧ s'.registry = s.registry ∧
      s'.lookups[n]? = some { l with phase := .answered row } := by
  have hcalm := calm_set hs hl (.answered row) (fun _ hnone => by cases hnone)
    (s.cache.store l.publicId generation row)
  refine ⟨_, Reaches.start.step (.store hl hphase) hcalm, rfl, ?_⟩
  obtain ⟨hn, -⟩ := List.getElem?_eq_some_iff.1 hl
  exact List.getElem?_set_self hn

/-- A lookup can always go on to its answer, whatever the other clients have done. -/
theorem lookup_answers (hs : s.Sound) {n : Nat} {l : Lookup} (hl : s.lookups[n]? = some l) :
    ∃ s' row, s.Reaches s' ∧ s'.registry = s.registry ∧
      s'.lookups[n]? = some { l with phase := .answered row } := by
  obtain ⟨publicId, startedAt, phase⟩ := l
  -- at most two steps are left to take: to read the row and to store it
  cases phase with
  | answered row => exact ⟨s, row, .start, rfl, hl⟩
  | fetched generation row =>
    obtain ⟨s', hreaches, hregistry, hanswered⟩ := answers_of_fetched hs.calm hl rfl
    exact ⟨s', row, hreaches, hregistry, hanswered⟩
  | missed generation =>
    let row := s.registry.findLive publicId
    let l' : Lookup := ⟨publicId, startedAt, .fetched generation row⟩
    have hrow : s.registry.get? publicId = .ok row :=
      Registry.get?_eq_ok_iff.2 ⟨hs.faithful.ready, rfl⟩
    have hcalm := calm_set hs.calm hl (.fetched generation row) (fun _ hsame => hsame) s.cache
    have hread : s.Reaches { s with lookups := s.lookups.set n l' } :=
      Reaches.start.step (.read hl rfl hrow) hcalm
    obtain ⟨hn, -⟩ := List.getElem?_eq_some_iff.1 hl
    obtain ⟨s', hreaches, hregistry, hanswered⟩ :=
      answers_of_fetched hcalm (List.getElem?_set_self hn) rfl
    exact ⟨s', row, hread.trans hreaches, hregistry, hanswered⟩

/-- However the steps of lookups, deletions and creations mix, from a registry without repeated public
ids and an empty cache, as long as fewer than `2 ^ 64` evictions fall inside one lookup:
a public id that was deleted and evicted is never cached again, and a lookup that starts then finds
none; whatever is cached or answered under a public id is the only row of this public id, its time of
deletion aside; a lookup of an index that is live from its start to its answer answers that index; and
every lookup can go on to an answer. -/
theorem lookups_follow_registry {r : Registry} (hready : r.ready = .ok ())
    (hdistinct : r.DistinctIds) (hs : ({ registry := r } : Traffic).Reaches s) :
    (∀ d ∈ s.deletions, d.found = true → d.evicted = true → ∀ s', s.Reaches s' →
      s'.cache.entries.get? d.publicId = none ∧
        ∀ n l, s.lookups.length ≤ n → s'.lookups[n]? = some l → l.publicId = d.publicId →
          ∀ row, l.phase = .answered row → row = none) ∧
    (∀ publicId index,
      (s.cache.entries.get? publicId = some index ∨
        ∃ l ∈ s.lookups, l.publicId = publicId ∧ l.phase = .answered (some index)) →
      ∃ row ∈ s.registry.rows, row.publicId = publicId ∧
        (∀ other ∈ s.registry.rows, other.publicId = publicId → other = row) ∧
        index = { row with deletedAt := none }) ∧
    (∀ publicId index, s.registry.findLive publicId = some index →
      ∀ s', (s.probed publicId).Reaches s' → s'.registry.findLive publicId ≠ none →
        ∃ l, s'.lookups[s.lookups.length]? = some l ∧ l.publicId = publicId ∧
          ∀ row, l.phase = .answered row → row = some index) ∧
    (∀ (n : Nat) l, s.lookups[n]? = some l →
      ∃ s' row, s.Reaches s' ∧ s'.registry = s.registry ∧
        s'.lookups[n]? = some { l with phase := .answered row }) := by
  have hsound : s.Sound := (sound_start hready hdistinct).reaches hs
  refine ⟨?forgotten, ?faithful, ?live, fun n l hl => lookup_answers hsound hl⟩
  case forgotten =>
    intro d hd hfound hevicted s' hreaches
    have hforgotten : s.Forgotten d.publicId := (hsound.marked d hd hfound).2.2 hevicted
    refine ⟨(hforgotten.reaches hsound hreaches).uncached, ?_⟩
    intro n l hn hl hid row hanswered
    have hnone := hforgotten.row?_of_later hsound hreaches hn hl hid
    exact (LookupPhase.row?_of_answered hanswered).symm.trans hnone
  case faithful =>
    intro publicId index hshown
    -- whether a row is cached or answered, it was read from the registry
    have hknows : s.registry.Knows publicId index := by
      rcases hshown with hcached | ⟨l, hl, rfl, hanswered⟩
      · exact hsound.faithful.cached publicId index hcached
      · exact hsound.faithful.held l hl index (LookupPhase.row?_of_answered hanswered)
    obtain ⟨row, hrow, hid, hindex⟩ := hknows
    refine ⟨row, hrow, hid, ?_, hindex⟩
    intro other hother hotherId
    exact hsound.faithful.distinctIds.eq_of_publicId_eq hother hrow (hotherId.trans hid.symm)
  case live =>
    intro publicId index hlive s' hreaches hstill
    have hprobed : (s.probed publicId).Sound :=
      hsound.step (.probe publicId) (calm_probed hsound.calm publicId)
    have hserves := (serves_probed hsound.faithful hlive).reaches hprobed hreaches
    obtain ⟨i, hi⟩ := Option.ne_none_iff_exists'.1 hstill
    have hnow : s'.registry.findLive publicId = some index := by
      rw [hi, hserves.unique i hi]
    have hl := List.getElem?_eq_getElem hserves.under
    obtain ⟨hid, hserving⟩ := hserves.serving _ hl
    refine ⟨_, hl, hid, ?_⟩
    intro row hanswered
    -- a look-up that has only missed has no answer yet
    rcases hserving hnow with ⟨g, hmissed⟩ | hrow
    · cases hmissed.symm.trans hanswered
    · exact (LookupPhase.row?_of_answered hanswered).symm.trans hrow

/-- A lookup whose steps follow each other directly does to the cache what `IndexCache.lookup` does, and
answers the same. -/
theorem reaches_lookup (hs : s.Sound) (publicId : String) :
    ∃ s' l row, s.Reaches s' ∧ s'.cache = (s.cache.lookup s.registry publicId).1 ∧
      s'.lookups[s.lookups.length]? = some l ∧ l.phase = .answered row ∧
      (s.cache.lookup s.registry publicId).2 = .ok row := by
  have hcalm := calm_probed hs.calm publicId
  have hprobed : s.Reaches (s.probed publicId) := Reaches.start.step (.probe publicId) hcalm
  have hl : (s.probed publicId).lookups[s.lookups.length]? =
      some ⟨publicId, s.evictions, .ofProbe (s.cache.probe publicId)⟩ :=
    List.getElem?_concat_length
  have hn : s.lookups.length < (s.probed publicId).lookups.length :=
    (List.getElem?_eq_some_iff.1 hl).1
  cases hprobe : s.cache.probe publicId with
  | hit index =>
    rw [hprobe] at hl
    refine ⟨_, _, some index, hprobed, ?_, hl, rfl, ?_⟩ <;> rw [IndexCache.lookup, hprobe]
    rfl
  | miss generation =>
    rw [hprobe] at hl
    let row := s.registry.findLive publicId
    have hrow : s.registry.get? publicId = .ok row :=
      Registry.get?_eq_ok_iff.2 ⟨hs.faithful.ready, rfl⟩
    -- the row is read and stored with no other step in between
    have hfetched := calm_set hcalm hl (.fetched generation row) (fun _ hsame => hsame) s.cache
    have hread := hprobed.step (.read hl rfl hrow) hfetched
    have hl' := List.getElem?_set_self (a := ⟨publicId, s.evictions, .fetched generation row⟩) hn
    have hanswered := calm_set hfetched hl' (.answered row) (fun _ hnone => by cases hnone)
      (s.cache.store publicId generation row)
    have hstored := hread.step (.store hl' rfl) hanswered
    have hsame : s.cache.lookup s.registry publicId =
        (s.cache.store publicId generation row, .ok row) := by
      rw [IndexCache.lookup, hprobe]
      simp only [hrow]
    rw [hsame]
    refine ⟨_, _, row, hstored, rfl, List.getElem?_set_self ?_, rfl, rfl⟩
    rw [List.length_set]
    exact hn

def onlyRow : Index :=
  let seed : Bytes := .replicate 16 0
  NewIndex.placed ⟨"abcde", "owner", "project", "index", ⟨seed, seed, seed, seed⟩, .ofUnixSeconds 0⟩
    1 "abcde"

def oneRow : Registry := { rows := [onlyRow] }

def oneDeletedRow : Registry := { rows := [{ onlyRow with deletedAt := some (.ofUnixSeconds 0) }] }

theorem distinctIds_oneRow : oneRow.DistinctIds := List.pairwise_singleton _ _

/-- Fewer than `2 ^ 64` evictions in all are few enough for every lookup. -/
theorem calm_of_lt (h : s.evictions < UInt64.size) : s.Calm := by
  intro l _ _ _
  omega

/-- One lookup has fetched the only row. -/
def fetching : Traffic where
  registry := oneRow
  lookups := [⟨"abcde", 0, .fetched 0 (some onlyRow)⟩]

theorem reaches_fetching : ({ registry := oneRow } : Traffic).Reaches fetching := by
  have hprobe := Reaches.start.step (.probe (s := { registry := oneRow }) "abcde")
    (calm_of_lt (by decide))
  have hread := hprobe.step (.read (n := 0) rfl rfl rfl) (calm_of_lt (by decide))
  exact hread

theorem delete_oneRow :
    oneRow.delete "abcde" "owner" (.ofUnixSeconds 0) = .ok (oneDeletedRow, true) := rfl

/-- The row is deleted and evicted between the second and the last step of a lookup, which answers the
row and does not store it. -/
theorem lookups_follow_registry_oneRow :
    oneRow.ready = .ok () ∧ oneRow.DistinctIds ∧
      ∃ s, ({ registry := oneRow } : Traffic).Reaches s ∧
        (∃ l ∈ s.lookups, l.phase = .answered (some onlyRow)) ∧
        ∃ d ∈ s.deletions, d.found = true ∧ d.evicted = true ∧
          ∀ s', s.Reaches s' → s'.cache.entries.get? d.publicId = none := by
  have hmark := reaches_fetching.step (.mark delete_oneRow) (calm_of_lt (by decide))
  have hevict := hmark.step (.evict (n := 0) rfl rfl) (calm_of_lt (by decide))
  have hstore := hevict.step (.store (n := 0) rfl rfl) (calm_of_lt (by decide))
  obtain ⟨hforgotten, -⟩ := lookups_follow_registry rfl distinctIds_oneRow hstore
  refine ⟨rfl, distinctIds_oneRow, _, hstore, ⟨_, List.mem_cons_self, rfl⟩,
    _, List.mem_cons_self, rfl, rfl, ?_⟩
  intro s' hreaches
  exact (hforgotten _ List.mem_cons_self rfl rfl s' hreaches).1

/-- The lookup has stored the row, and a deletion has marked it. -/
def deleting : Traffic where
  registry := oneDeletedRow
  cache := { entries := SortedMap.insert ∅ "abcde" onlyRow }
  lookups := [⟨"abcde", 0, .answered (some onlyRow)⟩]
  deletions := [⟨"abcde", true, false⟩]

/-- Between the two steps of a deletion the cache has the index without its time of deletion, which is
no row any more. -/
theorem cached_index_not_row :
    ¬ ∀ (r : Registry) (s : Traffic), r.ready = .ok () → r.DistinctIds →
      ({ registry := r } : Traffic).Reaches s →
        ∀ publicId index, s.cache.entries.get? publicId = some index → index ∈ s.registry.rows := by
  intro h
  have hstore := reaches_fetching.step (.store (n := 0) rfl rfl) (calm_of_lt (by decide))
  have hmark := hstore.step (.mark delete_oneRow) (calm_of_lt (by decide))
  have hdeleting : ({ registry := oneRow } : Traffic).Reaches deleting := hmark
  have hcached : deleting.cache.entries.get? "abcde" = some onlyRow :=
    SortedMap.get?_insert_self ∅ "abcde" onlyRow
  have hmem := h oneRow deleting rfl distinctIds_oneRow hdeleting "abcde" onlyRow hcached
  have hdiffers : onlyRow ∉ deleting.registry.rows := by decide
  exact hdiffers hmem

end Traffic
end IndexVault
