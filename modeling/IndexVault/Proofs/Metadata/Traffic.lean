import IndexVault.Metadata.Cache
import IndexVault.Proofs.Metadata.RowHistory
import IndexVault.Proofs.VisitOrder

/-! Lookups, deletions and creations of many clients at once. A lookup is three steps and a deletion is
two, and the steps of different clients mix in any order. Each step is one of the cache or one of the
registry, so the inversion lemmas of `Step` say all that can happen to a lookup, to the cache and to a
deletion. -/
namespace IndexVault

/-- How far a lookup has come: it missed the cache and remembers the generation, it has read a row or
none, or it has answered. -/
inductive LookupPhase where
  | missed (generation : UInt64)
  | fetched (generation : UInt64) (row : Option Index)
  | answered (row : Option Index)

namespace LookupPhase

def ofProbe : IndexCache.Probe → LookupPhase
  | .hit index => answered (some index)
  | .miss generation => missed generation

/-- A probe answers what is cached, or remembers the generation of the cache. -/
theorem ofProbe_cases (c : IndexCache) (publicId : String) :
    (∃ index, c.entries.get? publicId = some index ∧
        ofProbe (c.probe publicId) = answered (some index)) ∨
      c.entries.get? publicId = none ∧ ofProbe (c.probe publicId) = missed c.generation := by
  unfold IndexCache.probe
  cases c.entries.get? publicId with
  | some index => exact Or.inl ⟨index, rfl, rfl⟩
  | none => exact Or.inr ⟨rfl, rfl⟩

/-- The generation that a lookup under way remembers. -/
def generation? : LookupPhase → Option UInt64
  | missed generation | fetched generation _ => some generation
  | answered _ => none

/-- The row that a lookup holds or has answered. -/
def row? : LookupPhase → Option Index
  | missed _ => none
  | fetched _ row | answered row => row

section

variable {phase : LookupPhase} {generation : UInt64} {row : Option Index}

theorem generation?_of_fetched (h : phase = fetched generation row) :
    phase.generation? = some generation := by
  rw [h]
  rfl

theorem row?_of_fetched (h : phase = fetched generation row) : phase.row? = row := by
  rw [h]
  rfl

theorem row?_of_answered (h : phase = answered row) : phase.row? = row := by
  rw [h]
  rfl

end

end LookupPhase

/-- A lookup, and how many evictions there had been when it probed the cache. -/
structure Lookup where
  publicId : String
  startedAt : Nat
  phase : LookupPhase

/-- A deletion that has marked its row, if there was one, and has evicted its public id or will. -/
structure Deletion where
  publicId : String
  found : Bool
  evicted : Bool

/-- The registry and the cache, and the lookups and deletions so far in the order in which they
started. The count of evictions never wraps around, unlike the generation of the cache. -/
structure Traffic where
  registry : Registry
  cache : IndexCache := {}
  lookups : List Lookup := []
  deletions : List Deletion := []
  evictions : Nat := 0

namespace Traffic

/-- A new lookup has probed the cache. -/
def probed (s : Traffic) (publicId : String) : Traffic :=
  { s with lookups := s.lookups ++ [⟨publicId, s.evictions, .ofProbe (s.cache.probe publicId)⟩] }

/-- One step of one client. -/
inductive Step (s : Traffic) : Traffic → Prop
  | probe (publicId : String) : Step s (s.probed publicId)
  | read {n : Nat} {l : Lookup} {generation : UInt64} {row : Option Index}
      (hl : s.lookups[n]? = some l) (hphase : l.phase = .missed generation)
      (hrow : s.registry.get? l.publicId = .ok row) :
    Step s { s with lookups := s.lookups.set n { l with phase := .fetched generation row } }
  | store {n : Nat} {l : Lookup} {generation : UInt64} {row : Option Index}
      (hl : s.lookups[n]? = some l) (hphase : l.phase = .fetched generation row) :
    Step s { s with
      cache := s.cache.store l.publicId generation row
      lookups := s.lookups.set n { l with phase := .answered row } }
  | mark {publicId authzId : String} {now : Moment} {registry : Registry} {found : Bool}
      (hdone : s.registry.delete publicId authzId now = .ok (registry, found)) :
    Step s { s with registry := registry, deletions := s.deletions ++ [⟨publicId, found, false⟩] }
  | evict {n : Nat} {d : Deletion} (hd : s.deletions[n]? = some d) (hwaits : d.evicted = false) :
    Step s { s with
      cache := s.cache.evict d.publicId
      deletions := s.deletions.set n { d with evicted := true }
      evictions := s.evictions + 1 }
  | create {new : NewIndex} {spareIds : List String} {registry : Registry} {index : Index}
      (hdone : s.registry.create new spareIds = .ok (registry, index)) :
    Step s { s with registry := registry }

/-- A public id was evicted, and nothing was done to the registry and the lookups. -/
structure Evicts (s s' : Traffic) (publicId : String) : Prop where
  registry : s'.registry = s.registry
  cache : s'.cache = s.cache.evict publicId
  lookups : s'.lookups = s.lookups
  evictions : s'.evictions = s.evictions + 1

/-- Fewer than `2 ^ 64` evictions have fallen inside any lookup that is under way. -/
def Calm (s : Traffic) : Prop :=
  ∀ l ∈ s.lookups, ∀ generation, l.phase.generation? = some generation →
    s.evictions < l.startedAt + UInt64.size

/-- The states that any mix of steps comes to. -/
inductive Reaches (start : Traffic) : Traffic → Prop
  | start : Reaches start start
  | step {s s' : Traffic} (hs : Reaches start s) (h : Step s s') (hcalm : s'.Calm) : Reaches start s'

theorem Reaches.trans {s s' s'' : Traffic} (h : s.Reaches s') (h' : s'.Reaches s'') : s.Reaches s'' := by
  induction h' with
  | start => exact h
  | step _ hstep hcalm ih => exact ih.step hstep hcalm

namespace Step

variable {s s' : Traffic} (h : Step s s')

include h

/-- A step takes no row away. -/
theorem evolves : s.registry.Evolves s'.registry := by
  cases h with
  | mark hdone => exact Registry.evolves_of_delete hdone
  | create hdone => exact Registry.evolves_of_create hdone
  | probe | read | store | evict => exact Registry.Evolves.refl s.registry

/-- Evictions are counted, by the generation too. -/
theorem clock :
    s'.evictions = s.evictions ∧ s'.cache.generation = s.cache.generation ∨
      s'.evictions = s.evictions + 1 ∧ s'.cache.generation = s.cache.generation + 1 := by
  cases h with
  | evict => exact Or.inr ⟨rfl, rfl⟩
  | store =>
    refine Or.inl ⟨rfl, ?_⟩
    dsimp only
    unfold IndexCache.store
    split
    · split <;> rfl
    · rfl
  | probe | read | mark | create => exact Or.inl ⟨rfl, rfl⟩

theorem evictions_le : s.evictions ≤ s'.evictions := by
  rcases h.clock with ⟨heq, -⟩ | ⟨heq, -⟩ <;> omega

/-- Lookups are never taken back. -/
theorem length_lookups_le : s.lookups.length ≤ s'.lookups.length := by
  cases h with
  | probe => simp [probed]
  | read | store => simp
  | mark | evict | create => exact Nat.le_refl _

/-- A lookup is as it was, or starts with what the cache holds, or goes on by one step. -/
theorem lookup_cases {n : Nat} {l' : Lookup} (hl' : s'.lookups[n]? = some l') :
    s.lookups[n]? = some l' ∨
      (n = s.lookups.length ∧ l'.startedAt = s.evictions ∧
        ((∃ index, s.cache.entries.get? l'.publicId = some index ∧
            l'.phase = .answered (some index)) ∨
          s.cache.entries.get? l'.publicId = none ∧ l'.phase = .missed s.cache.generation)) ∨
      ∃ l, s.lookups[n]? = some l ∧ l'.publicId = l.publicId ∧ l'.startedAt = l.startedAt ∧
        ((∃ generation, l.phase = .missed generation ∧
            l'.phase = .fetched generation (s.registry.findLive l.publicId)) ∨
          ∃ generation row, l.phase = .fetched generation row ∧ l'.phase = .answered row) := by
  cases h with
  | probe publicId =>
    -- a probe appends its look-up; the other steps set one, or none
    rw [probed, List.getElem?_append] at hl'
    split at hl'
    · exact Or.inl hl'
    · rename_i hn
      obtain ⟨hlast, rfl⟩ := List.getElem?_eq_some_iff.1 hl'
      rw [List.length_singleton] at hlast
      refine Or.inr (Or.inl ⟨by omega, ?_⟩)
      rw [List.getElem_singleton]
      exact ⟨rfl, LookupPhase.ofProbe_cases s.cache publicId⟩
  | read hl hphase hrow =>
    rw [List.getElem?_set] at hl'
    split at hl'
    · rename_i hn
      subst hn
      split at hl'
      · cases hl'
        have hfound := (Registry.get?_eq_ok_iff.1 hrow).2
        exact Or.inr (Or.inr ⟨_, hl, rfl, rfl, Or.inl ⟨_, hphase, by rw [hfound]⟩⟩)
      · cases hl'
    · exact Or.inl hl'
  | store hl hphase =>
    rw [List.getElem?_set] at hl'
    split at hl'
    · rename_i hn
      subst hn
      split at hl'
      · cases hl'
        exact Or.inr (Or.inr ⟨_, hl, rfl, rfl, Or.inr ⟨_, _, hphase, rfl⟩⟩)
      · cases hl'
    · exact Or.inl hl'
  | mark | evict | create => exact Or.inl hl'

/-- What is cached was cached before, or was fetched under the generation of the cache. -/
theorem cache_cases {publicId : String} {index : Index}
    (hcached : s'.cache.entries.get? publicId = some index) :
    s.cache.entries.get? publicId = some index ∨
      ∃ l ∈ s.lookups, l.publicId = publicId ∧
        l.phase = .fetched s.cache.generation (some index) := by
  cases h with
  | @store n l generation row hl hphase =>
    dsimp only at hcached
    -- only a row that is there and of the present generation is stored
    unfold IndexCache.store at hcached
    split at hcached
    · rename_i found
      split at hcached
      · rename_i hsame
        rw [SortedMap.get?_insert] at hcached
        split at hcached
        · rename_i hkey
          cases hcached
          refine Or.inr ⟨l, List.mem_of_getElem? hl, (SortedMap.compare_eq_iff.1 hkey).symm, ?_⟩
          rw [hphase, hsame]
        · exact Or.inl hcached
      · exact Or.inl hcached
    · exact Or.inl hcached
  | @evict n d hd hwaits =>
    -- an eviction takes an entry away and adds none
    left
    have herased : (s.cache.entries.erase d.publicId).get? publicId = some index := hcached
    rw [SortedMap.get?_erase] at herased
    split at herased
    · cases herased
    · exact herased
  | probe | read | mark | create => exact Or.inl hcached

/-- A deletion is as it was, or has just marked its row, or has just evicted its public id. -/
theorem deletion_cases {d' : Deletion} (hd' : d' ∈ s'.deletions) :
    d' ∈ s.deletions ∨
      (d'.evicted = false ∧ ∃ authzId now,
        s.registry.delete d'.publicId authzId now = .ok (s'.registry, d'.found)) ∨
      ∃ d ∈ s.deletions, d'.publicId = d.publicId ∧ d'.found = d.found ∧
        s.Evicts s' d.publicId := by
  cases h with
  | mark hdone =>
    rcases List.mem_append.1 hd' with hold | hnew
    · exact Or.inl hold
    · cases List.mem_singleton.1 hnew
      exact Or.inr (Or.inl ⟨rfl, _, _, hdone⟩)
  | evict hd hwaits =>
    rcases List.mem_or_eq_of_mem_set hd' with hold | rfl
    · exact Or.inl hold
    · exact Or.inr (Or.inr ⟨_, List.mem_of_getElem? hd, rfl, rfl, rfl, rfl, rfl, rfl⟩)
  | probe | read | store | create => exact Or.inl hd'

/-- A deletion stays as it is until its public id is evicted. -/
theorem deletion_stays {d : Deletion} (hd : d ∈ s.deletions) :
    d ∈ s'.deletions ∨ s.Evicts s' d.publicId := by
  cases h with
  | mark hdone => exact Or.inl (List.mem_append_left _ hd)
  | @evict n d' hd' hwaits =>
    obtain ⟨m, hm⟩ := List.getElem?_of_mem hd
    by_cases hmn : n = m
    · rw [hmn] at hd'
      cases hd'.symm.trans hm
      exact Or.inr ⟨rfl, rfl, rfl, rfl⟩
    · left
      have hkept : (s.deletions.set n { d' with evicted := true })[m]? = some d :=
        (List.getElem?_set_ne hmn).trans hm
      exact List.mem_of_getElem? hkept
  | probe | read | store | create => exact Or.inl hd

/-- A deletion that has evicted its public id had done so before, or does so now. -/
theorem evicted_cases {n : Nat} {d' : Deletion} (hd' : s'.deletions[n]? = some d')
    (hevicted : d'.evicted = true) :
    s.deletions[n]? = some d' ∨ s.Evicts s' d'.publicId := by
  cases h with
  | mark hdone =>
    rw [List.getElem?_append] at hd'
    split at hd'
    · exact Or.inl hd'
    · -- The deletion that has just marked its row has not evicted yet.
      cases List.mem_singleton.1 (List.mem_of_getElem? hd')
      cases hevicted
  | @evict m d hd hwaits =>
    by_cases hmn : m = n
    · subst hmn
      rw [List.getElem?_set_self (List.getElem?_eq_some_iff.1 hd).1] at hd'
      cases hd'
      exact Or.inr ⟨rfl, rfl, rfl, rfl⟩
    · exact Or.inl ((List.getElem?_set_ne hmn).symm.trans hd')
  | probe | read | store | create => exact Or.inl hd'

/-- A row that is deleted now was deleted before, or a deletion has just marked it. -/
theorem deleted_cases {publicId : String} (hdeleted : s'.registry.HasDeleted publicId) :
    s.registry.HasDeleted publicId ∨
      ∃ d ∈ s'.deletions, d.publicId = publicId ∧ d.found = true ∧ d.evicted = false := by
  cases h with
  | mark hdone =>
    rcases hdeleted.before_delete hdone with hbefore | ⟨hid, hfound⟩
    · exact Or.inl hbefore
    · exact Or.inr ⟨_, List.mem_append_right _ List.mem_cons_self, hid, hfound, rfl⟩
  | create hdone => exact Or.inl (hdeleted.before_create hdone)
  | probe | read | store | evict => exact Or.inl hdeleted

end Step
end Traffic
end IndexVault
