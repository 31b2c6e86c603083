import IndexVault.Proofs.Service.FinalDeletion

namespace IndexVault

namespace Http.Callback

theorem usable_perform {s : Service} (hs : s.storage.Usable) (c : Callback) (w : Surroundings)
    (publicId : String) (body : Bytes) :
    ((c.perform w publicId body).run s).2.storage.Usable := by
  have hfetch (kind : TableKind) : ((fetch w kind publicId body).run s).2.storage.Usable := by
    rw [(quiet_fetch w kind publicId body s).storage]
    exact hs
  cases c with
  | fetchEntries => exact hfetch .entries
  | fetchChains => exact hfetch .chains
  | upsertEntries =>
    rw [perform, run_upsert]
    split
    · exact hs
    · split
      · exact hs
      · rename_i hdone
        exact hs.of_upsertEntries hdone
  | insertChains =>
    rw [perform, run_insert]
    split
    · exact hs
    · split
      · exact hs
      · rename_i hdone
        exact hs.of_insertChains hdone

end Http.Callback

namespace Service

variable {start s s' : Service} {w : Surroundings} {r : Http.Request}

/-- A store that is usable stays so at any request. -/
theorem usable_respond (hs : s.storage.Usable) (w : Surroundings) (r : Http.Request) :
    (s.respond w r).1.storage.Usable := by
  rcases s.respond_cases w r with hleaves | ⟨c, id, hmethod, hpath⟩
  · rw [hleaves.storage]
    exact hs
  · rw [respond_callback hmethod hpath]
    dsimp only
    rw [carryOut_fst]
    rcases c.run_answer_cases w r id s with hsame | ⟨publicId, -, -, hrun⟩
    · rw [hsame]
      exact hs
    · rw [hrun]
      exact c.usable_perform hs w publicId r.body

/-- Rows are never removed, and they keep their numbers. -/
theorem Reaches.exists_row (h : s.Reaches s') {i : Index} (hi : i ∈ s.registry.rows) :
    ∃ i' ∈ s'.registry.rows, i'.id = i.id := by
  induction h with
  | start => exact ⟨i, hi, rfl⟩
  | @respond s' _ w r ih =>
    obtain ⟨i', hi', hid⟩ := ih
    obtain ⟨i'', hi'', hsame⟩ := (recordsStep_respond s' w r).evolves.rows i' hi'
    have hid' : i''.undeleted.id = i'.undeleted.id := congrArg Index.id hsame
    exact ⟨i'', hi'', hid'.trans hid⟩

/-- The stores go together: a number that no row has leads to no line. -/
structure KeepsToRows (s : Service) : Prop where
  coherent : s.Coherent
  numbered : s.registry.Numbered
  usable : s.storage.Usable
  unplaced : ∀ i : IndexId, (∀ row ∈ s.registry.rows, row.id ≠ i) →
    (∀ kind, s.storage.contents.table i kind = ∅) ∧ s.storage.contents.size i = 0

namespace KeepsToRows

/-- Without rows there are no lines and nothing is cached. -/
theorem of_empty {kind : StorageKind} (hrows : s.registry.rows = [])
    (hcache : s.cache.entries = ∅) (hstorage : s.storage = Storage.empty kind) :
    s.KeepsToRows where
  coherent := IndexCache.coherent_of_empty hcache _
  numbered := by
    intro n i hi
    rw [hrows] at hi
    cases hi
  usable := by
    rw [hstorage]
    exact Storage.usable_empty kind
  unplaced := by
    intro i _
    rw [hstorage, Storage.contents_empty]
    exact ⟨fun _ => rfl, rfl⟩

/-- A request stores lines only under numbers that rows have. -/
theorem respond (h : s.KeepsToRows) (w : Surroundings) (r : Http.Request) :
    (s.respond w r).1.KeepsToRows := by
  have hcontinues := Continues.of_respond h.coherent w r
  refine ⟨hcontinues.coherent h.coherent, hcontinues.numbered h.numbered, usable_respond h.usable w r,
    fun i hi => ?_⟩
  -- A number that no row has now had no row before, and was not written to.
  have hbefore : ∀ row ∈ s.registry.rows, row.id ≠ i := by
    intro row hrow hid
    obtain ⟨row', hrow', hid'⟩ := (Reaches.start.respond w r).exists_row hrow
    exact hi row' hrow' (hid'.trans hid)
  obtain ⟨htable, hsize⟩ :=
    storage_of_no_live h.coherent (fun row hrow _ => hbefore row hrow) w r
  obtain ⟨hempty, hzero⟩ := h.unplaced i hbefore
  exact ⟨fun kind => (htable kind).trans (hempty kind), hsize.trans hzero⟩

/-- So does every run of requests. -/
theorem reaches (h : s.KeepsToRows) (hs : s.Reaches s') : s'.KeepsToRows := by
  induction hs with
  | start => exact h
  | respond _ w r ih => exact ih.respond w r

/-- The lines of a deleted index stay. -/
theorem storage_of_deleted (h : s.KeepsToRows) {i : Index} (hi : i ∈ s.registry.rows)
    (hdeleted : i.isLive = false) (w : Surroundings) (r : Http.Request) :
    (∀ kind, (s.respond w r).1.storage.contents.table i.id kind =
        s.storage.contents.table i.id kind) ∧
      (s.respond w r).1.storage.contents.size i.id = s.storage.contents.size i.id := by
  apply storage_of_no_live h.coherent
  intro row hrow hlive hid
  rw [h.numbered.eq_of_mem hrow hi hid, hdeleted] at hlive
  cases hlive

end KeepsToRows

/-- A creation that is answered has placed an index, and has written no line. -/
theorem respond_create (hmethod : r.method = "POST")
    (hroute : Http.Route.ofPath? s.log.isSome r.path = some .indexes)
    (hstatus : (s.respond w r).2.status = 200) :
    ∃ index, (s.respond w r).2 = Http.createdAnswer index ∧ index.id = s.registry.nextId ∧
      (s.respond w r).1.registry.rows = s.registry.rows ++ [index] ∧
      (s.respond w r).1.storage = s.storage := by
  have ha : action? w r "POST" .indexes = some (Management.create w r) := rfl
  rw [respond_of_action? hmethod (by decide) hroute ha] at hstatus ⊢
  obtain ⟨response, hrun⟩ := (Management.refusesOpenly_create w r).eq_ok_of_status hstatus
  obtain ⟨caller, request, project, registry, index, hcreates, rfl, hafter⟩ :=
    Management.run_create_eq_ok hrun
  obtain ⟨-, hrows, publicId, -, -, hplaced⟩ := Registry.create_rows hcreates.placed
  refine ⟨index, ?_, ?_, ?_, ?_⟩
  · rw [hrun]
    rfl
  · rw [hplaced]
    rfl
  · rw [hafter]
    exact hrows
  · rw [hafter]
    rfl

/-- Start a service with no row of an index and no line, and take whatever it was asked before. The answer
to the creation of an index is an index with a number that no earlier one ever had, and with empty tables
and size zero, while under the number of a deleted index everything stays as it was, and a deletion changes
no line. Sizes are taken to stay below `2 ^ 63`. -/
theorem new_indexes_start_empty {kind : StorageKind} (hrows : start.registry.rows = [])
    (hcache : start.cache.entries = ∅) (hstorage : start.storage = Storage.empty kind)
    (hs : start.Reaches s) (w : Surroundings) (r : Http.Request) :
    (r.method = "POST" → Http.Route.ofPath? s.log.isSome r.path = some .indexes →
      (s.respond w r).2.status = 200 →
      ∃ index, (s.respond w r).2 = Http.createdAnswer index ∧
        (s.respond w r).1.registry.rows = s.registry.rows ++ [index] ∧
        (∀ earlier, start.Reaches earlier → earlier.Reaches s →
          ∀ i ∈ earlier.registry.rows, i.id ≠ index.id) ∧
        (∀ table, (s.respond w r).1.storage.fetchAll index.id table = .ok ∅) ∧
        (s.respond w r).1.storage.size index.id = .ok 0) ∧
    (r.method = "DELETE" → (s.respond w r).1.storage = s.storage) ∧
    ∀ i ∈ s.registry.rows, i.isLive = false →
      (∀ table, (s.respond w r).1.storage.fetchAll i.id table = s.storage.fetchAll i.id table) ∧
      (s.respond w r).1.storage.size i.id = s.storage.size i.id := by
  have hkeeps : s.KeepsToRows := (KeepsToRows.of_empty hrows hcache hstorage).reaches hs
  have hafter := hkeeps.respond w r
  refine ⟨?created, ?deleting, ?deleted⟩
  case created =>
    intro hmethod hroute hstatus
    obtain ⟨index, hanswer, hid, hplaced, hsame⟩ := respond_create hmethod hroute hstatus
    -- The new number lies past those of all rows, so nothing was ever stored under it.
    have hnew : ∀ i ∈ s.registry.rows, i.id ≠ index.id := by
      intro i hi
      rw [hid]
      exact hkeeps.numbered.ne_nextId hi
    obtain ⟨hempty, hzero⟩ := hkeeps.unplaced index.id hnew
    refine ⟨index, hanswer, hplaced, ?_, ?_, ?_⟩
    · -- Rows of earlier states are still there, with their numbers.
      intro earlier _ hlater i hi heq
      obtain ⟨i', hi', hid'⟩ := hlater.exists_row hi
      exact hnew i' hi' (hid'.trans heq)
    · intro table
      rw [hsame, Storage.fetchAll_eq hkeeps.usable, hempty]
    · rw [hsame, Storage.size_eq hkeeps.usable.isOpen, hzero]
  case deleting =>
    intro hmethod
    rcases s.respond_cases w r with hleaves | ⟨_, _, hpost, -⟩
    · exact hleaves.storage
    · exact absurd (hmethod.symm.trans hpost) (by decide)
  case deleted =>
    intro i hi hdeleted
    obtain ⟨htable, hsize⟩ := hkeeps.storage_of_deleted hi hdeleted w r
    refine ⟨fun table => ?_, ?_⟩
    · rw [Storage.fetchAll_eq hafter.usable, Storage.fetchAll_eq hkeeps.usable, htable]
    · rw [Storage.size_eq hafter.usable.isOpen, Storage.size_eq hkeeps.usable.isOpen, hsize]

/-- One index was created and deleted. -/
def onceDeleted : Service :=
  ((justStarted.respond atEpoch creation).1.respond atEpoch deletion).1

/-- Surroundings whose random values are not those of `atEpoch`. -/
def drawingOther : Surroundings := { atEpoch with draw := ⟨fun _ _ => 1, fun _ _ => ⟨1, by decide⟩⟩ }

theorem new_indexes_start_empty_onceDeleted :
    justStarted.registry.rows = [] ∧ justStarted.cache.entries = ∅ ∧
      justStarted.storage = Storage.empty .keyValue ∧ justStarted.Reaches onceDeleted ∧
      onceDeleted.registry.rows.map (fun i => (i.id, i.isLive)) = [(1, false)] ∧
      ∃ index, (onceDeleted.respond drawingOther creation).2 = Http.createdAnswer index ∧
        (∀ i ∈ onceDeleted.registry.rows, i.id ≠ index.id) ∧
        ∀ table, (onceDeleted.respond drawingOther creation).1.storage.fetchAll index.id table =
          .ok ∅ := by
  have hreaches : justStarted.Reaches onceDeleted :=
    (Reaches.start.respond atEpoch creation).respond atEpoch deletion
  have hroute : Http.Route.ofPath? onceDeleted.log.isSome creation.path = some .indexes := by
    decide +kernel
  have hstatus : (onceDeleted.respond drawingOther creation).2.status = 200 := by
    decide +kernel
  have hrows : onceDeleted.registry.rows.map (fun i => (i.id, i.isLive)) = [(1, false)] := by
    decide +kernel
  have hstorage : justStarted.storage = Storage.empty .keyValue := rfl
  obtain ⟨index, hanswer, -, hnew, hempty, -⟩ :=
    (new_indexes_start_empty rfl rfl hstorage hreaches drawingOther creation).1 rfl hroute hstatus
  exact ⟨rfl, rfl, hstorage, hreaches, hrows, index, hanswer, hnew onceDeleted hreaches .start, hempty⟩

end Service
end IndexVault
