import IndexVault.Metadata.Cache
import IndexVault.Proofs.Metadata.LiveIndexes
import IndexVault.Proofs.VisitOrder

namespace IndexVault

namespace IndexCache

/-- Every cached index is the live one that the registry finds. -/
def Coherent (c : IndexCache) (r : Registry) : Prop :=
  ∀ publicId index, c.entries.get? publicId = some index → r.findLive publicId = some index

theorem coherent_of_empty {c : IndexCache} (h : c.entries = ∅) (r : Registry) : c.Coherent r := by
  intro publicId index hcached
  rw [h] at hcached
  cases hcached

variable {c : IndexCache} {r r' : Registry} {publicId : String}

/-- A cache stays coherent while no answer that was found changes. -/
theorem Coherent.of_findLive (hc : c.Coherent r)
    (h : ∀ publicId found, r.findLive publicId = some found → r'.findLive publicId = some found) :
    c.Coherent r' := by
  intro publicId index hcached
  exact h publicId index (hc publicId index hcached)

/-- If the answers change for one public id only, evicting it keeps the cache coherent. -/
theorem Coherent.evict (hc : c.Coherent r)
    (h : ∀ other, other ≠ publicId → r'.findLive other = r.findLive other) :
    (c.evict publicId).Coherent r' := by
  intro other index hcached
  have herase := SortedMap.get?_erase c.entries publicId other
  rw [IndexCache.evict] at hcached
  rw [herase] at hcached
  split at hcached
  · cases hcached
  · rename_i hne
    have hother : other ≠ publicId := by
      intro heq
      exact hne (SortedMap.compare_eq_iff.2 heq.symm)
    rw [h other hother]
    exact hc other index hcached

/-- A lookup stores what the registry finds, if it stores anything. -/
theorem Coherent.lookup (hc : c.Coherent r) (publicId : String) :
    (c.lookup r publicId).1.Coherent r := by
  unfold IndexCache.lookup
  -- Only a miss that reads a row stores anything, and it stores what the registry found.
  split
  · exact hc
  · split
    · rename_i row hrow
      unfold store
      split
      · split
        · intro other index hcached
          rw [SortedMap.get?_insert] at hcached
          split at hcached
          · rename_i heq
            cases hcached
            rw [SortedMap.compare_eq_iff.1 heq]
            exact (Registry.get?_eq_ok_iff.1 hrow).2
          · exact hc other index hcached
        · exact hc
      · exact hc
    · exact hc

/-- What a lookup through a coherent cache answers is what the registry finds. -/
theorem Coherent.eq_findLive (hc : c.Coherent r) {row : Option Index}
    (h : (c.lookup r publicId).2 = .ok row) : row = r.findLive publicId := by
  unfold IndexCache.lookup probe at h
  cases hcached : c.entries.get? publicId with
  | some index =>
    simp only [hcached] at h
    cases h
    exact (hc publicId index hcached).symm
  | none =>
    simp only [hcached] at h
    split at h
    · rename_i found hfound
      cases h
      exact (Registry.get?_eq_ok_iff.1 hfound).2.symm
    · cases h

theorem lookup_snd (c : IndexCache) (r : Registry) (publicId : String) :
    (c.lookup r publicId).2 =
      match c.entries.get? publicId with
      | some index => .ok (some index)
      | none => r.get? publicId := by
  unfold lookup probe
  cases c.entries.get? publicId with
  | some index => rfl
  | none => cases r.get? publicId <;> rfl

/-- What a look-up keeps changes no later answer. -/
theorem lookup_after_lookup (c : IndexCache) (r : Registry) (publicId other : String) :
    ((c.lookup r other).1.lookup r publicId).2 = (c.lookup r publicId).2 := by
  cases hcached : c.entries.get? other with
  | some index => simp only [lookup, probe, hcached]
  | none =>
    cases hrow : r.get? other with
    | error e => simp only [lookup, probe, hcached, hrow]
    | ok row =>
      cases row with
      | none => simp only [lookup, probe, hcached, hrow, store]
      | some index =>
        -- The one public id that is newly kept is answered as it was by the registry.
        have hkept : (c.lookup r other).1.entries = c.entries.insert other index := by
          simp only [lookup, probe, hcached, hrow, store, if_pos]
        rw [lookup_snd, lookup_snd, hkept]
        by_cases heq : publicId = other
        · rw [heq, SortedMap.get?_insert_self, hcached, hrow]
        · rw [SortedMap.get?_insert_of_ne _ heq]

/-- While the database answers, a lookup through a coherent cache is one in the registry. -/
theorem Coherent.lookup_of_ready (hc : c.Coherent r) (hr : r.ready = .ok ()) (publicId : String) :
    (c.lookup r publicId).2 = .ok (r.findLive publicId) := by
  unfold IndexCache.lookup probe
  cases hcached : c.entries.get? publicId with
  | some index => exact congrArg Except.ok (hc publicId index hcached).symm
  | none =>
    have hget : r.get? publicId = .ok (r.findLive publicId) :=
      Registry.get?_eq_ok_iff.2 ⟨hr, rfl⟩
    simp only [hget]

end IndexCache
end IndexVault
