import IndexVault.Proofs.Service.FreshIndexes
import IndexVault.Proofs.Storage.AgreeingLines

namespace IndexVault

/-- What holds of the row of an index from its creation on. -/
structure Index.WellFormed (i : Index) : Prop where
  seeds : ∀ c : Http.Callback, (c.seed i).length = 16
  length_publicId : i.publicId.toList.length = 5
  isAlphanum_publicId : ∀ c ∈ i.publicId.toList, c.isAlphanum = true
  named : i.name ≠ ""
  trimmed : Text.trim i.name = i.name

theorem Draw.length_seed (d : Draw) (c : Http.Callback) {i : Index} (hi : i.seeds = d.seeds) :
    (c.seed i).length = 16 := by
  obtain ⟨hentries, hchains, hupserts, hinserts⟩ := d.length_seeds
  rw [← hi] at hentries hchains hupserts hinserts
  cases c with
  | fetchEntries => exact hentries
  | fetchChains => exact hchains
  | upsertEntries => exact hupserts
  | insertChains => exact hinserts

/-- A new index is well formed under any of the public ids drawn for it. -/
theorem NewIndex.wellFormed_placed {authzId project name publicId : String} {draw : Draw}
    {now : Moment} (id : IndexId) (hname : (Text.trim name).isEmpty = false)
    (hid : publicId ∈ draw.publicId 0 :: draw.spareIds) :
    ((generate authzId project (Text.trim name) draw now).placed id publicId).WellFormed := by
  -- Whichever of the three public ids is taken, it was drawn like the first.
  have hdrawn : ∃ attempt, publicId = draw.publicId attempt := by
    simp only [Draw.spareIds, List.mem_cons, List.not_mem_nil, or_false] at hid
    rcases hid with rfl | rfl | rfl
    · exact ⟨0, rfl⟩
    · exact ⟨1, rfl⟩
    · exact ⟨2, rfl⟩
  obtain ⟨attempt, rfl⟩ := hdrawn
  refine ⟨fun c => draw.length_seed c rfl, draw.length_publicId attempt,
    fun c hc => draw.isAlphanum_publicId attempt hc, ?_, Text.trim_trim name⟩
  intro hempty
  have hblank : Text.trim name = "" := hempty
  rw [hblank] at hname
  cases hname

namespace Storage

variable {s : Storage} {index : IndexId} {e : Failure}

/-- A fetch fails only in a closed database, and so do the other operations on the lines of an index. -/
theorem fetch_eq_error {kind : TableKind} {uids : UidSet}
    (h : s.fetch index kind uids = .error e) : e = closed ∧ s.isOpen = false := by
  cases hs : s.isOpen with
  | true =>
    have hdone := fetchInOrder_eq hs index kind (List.Perm.refl uids.keys)
    cases hdone.symm.trans h
  | false =>
    obtain ⟨store, rfl⟩ := eq_closedRows_of_not_isOpen hs
    rw [fetch, fetchInOrder] at h
    split at h
    · cases h
    · cases h
      exact ⟨rfl, rfl⟩

theorem upsertEntries_eq_error {data : UpsertData} (h : s.upsertEntries index data = .error e) :
    e = closed ∧ s.isOpen = false := by
  cases hs : s.isOpen with
  | true =>
    obtain ⟨storage, hdone⟩ := upsertEntries_of_isOpen hs index data
    cases hdone.symm.trans h
  | false =>
    obtain ⟨store, rfl⟩ := eq_closedRows_of_not_isOpen hs
    cases h
    exact ⟨rfl, rfl⟩

theorem insertChains_eq_error {data : EncryptedTable} (h : s.insertChains index data = .error e) :
    e = closed ∧ s.isOpen = false := by
  cases hs : s.isOpen with
  | true =>
    obtain ⟨storage, hdone⟩ := insertChains_of_isOpen hs index data
    cases hdone.symm.trans h
  | false =>
    obtain ⟨store, rfl⟩ := eq_closedRows_of_not_isOpen hs
    cases h
    exact ⟨rfl, rfl⟩

end Storage

namespace Service

variable {start s : Service} {w : Surroundings} {r : Http.Request}

/-- A request leaves all rows well formed. -/
theorem wellFormed_of_recordsStep {x : Records} (h : RecordsStep s w r x)
    (hs : ∀ i ∈ s.registry.rows, i.WellFormed) : ∀ i ∈ x.registry.rows, i.WellFormed := by
  cases h with
  | kept => exact hs
  | identified => exact hs
  | created _ _ hcreates =>
    obtain ⟨-, hrows, publicId, hdrawn, -, rfl⟩ := Registry.create_rows hcreates.placed
    intro i hi
    dsimp only at hi
    rw [hrows] at hi
    rcases List.mem_append.1 hi with hold | hnew
    · exact hs i hold
    · rw [List.mem_singleton.1 hnew]
      exact NewIndex.wellFormed_placed s.registry.nextId hcreates.named hdrawn
  | deleted _ _ hdeletes =>
    obtain ⟨-, hrows, -⟩ := Registry.delete_rows hdeletes.marked
    intro i hi
    dsimp only at hi
    rw [hrows] at hi
    obtain ⟨j, hj, rfl⟩ := List.mem_map.1 hi
    -- A time of deletion is none of the parts that are looked at.
    obtain ⟨hseeds, hlength, halphanum, hnamed, htrimmed⟩ := hs j hj
    split
    · exact ⟨hseeds, hlength, halphanum, hnamed, htrimmed⟩
    · exact ⟨hseeds, hlength, halphanum, hnamed, htrimmed⟩

/-- Every row has four whole seeds, a public id of five letters or digits and a trimmed name, whatever was
asked for and whichever public ids were taken. -/
theorem Reaches.wellFormed (h : start.Reaches s)
    (hstart : ∀ i ∈ start.registry.rows, i.WellFormed) : ∀ i ∈ s.registry.rows, i.WellFormed := by
  -- Along the requests, rows are only added by a creation and marked by a deletion.
  induction h with
  | start => exact hstart
  | respond _ w r ih => exact wellFormed_of_recordsStep (recordsStep_respond _ w r) ih

/-- Statements run on both databases, that of the indexes and that of their lines. -/
structure StoresAnswer (s : Service) : Prop where
  registry : s.registry.ready = .ok ()
  storage : s.storage.isOpen = true

/-- A look-up fails only in a database that does not run statements. -/
theorem found_eq_error {publicId : String} {e : Failure} (h : s.found publicId = .error e) :
    (∃ fault, e = .database fault) ∧ s.registry.ready ≠ .ok () := by
  have hready : s.registry.ready = .error e := by
    rw [found, IndexCache.lookup_snd] at h
    split at h
    · cases h
    · exact Registry.get?_eq_error h
  refine ⟨Registry.ready_eq_error hready, ?_⟩
  rw [hready]
  intro heq
  cases heq

end Service

/-- A refused body is the fault of the one who sent it, unless a seed has a wrong length. -/
theorem Failure.status_ofSignature {e : SignatureError} (h : ∀ n, e ≠ .seedLength n) :
    (ofSignature e).status = 400 ∨ (ofSignature e).status = 403 := by
  cases e with
  | missingSignature n => exact Or.inl rfl
  | missingTimestamp n => exact Or.inl rfl
  | seedLength n => exact absurd rfl (h n)
  | mismatch => exact Or.inr rfl
  | expired now expiration => exact Or.inl rfl

namespace Http.Callback

variable {α : Type} {s s' : Service} {w : Surroundings} {c : Callback} {publicId : String}
  {body : Bytes} {e : Refusal}

/-- A refusal for which a database is to blame that does not answer, or the one who asked. -/
def BlamesStores (s : Service) (e : Refusal) : Prop :=
  (∃ fault, e = .failure (.database fault)) ∧ ¬s.StoresAnswer

/-- The refusals that a callback may end in. -/
def RefusesFairly (s : Service) (e : Refusal) : Prop :=
  BlamesStores s e ∨ e.response.status = 400 ∨ e.response.status = 403

/-- A body that is not opened is the fault of its sender, or of the stores. -/
theorem refusesFairly_of_openedBy {read : Bytes → Except PayloadError α} (hs : s.Coherent)
    (hrows : ∀ i ∈ s.registry.rows, i.WellFormed)
    (h : openedBy w c read publicId body (s.found publicId) = .error e) : RefusesFairly s e := by
  cases hfound : s.found publicId with
  | error f =>
    obtain ⟨⟨fault, rfl⟩, hready⟩ := Service.found_eq_error hfound
    rw [hfound] at h
    cases h
    exact Or.inl ⟨⟨fault, rfl⟩, fun hstores => hready hstores.registry⟩
  | ok row =>
    rw [hfound] at h
    cases row with
    | none =>
      cases h
      exact Or.inr (Or.inl rfl)
    | some index =>
      -- The cache holds rows of the registry only, so the index has whole seeds.
      have hlive := IndexCache.Coherent.eq_findLive hs hfound
      have hseeds := (hrows index (Registry.findLive_spec hlive.symm).1).seeds c
      cases hcheck : SignedBody.check body index.publicId (c.seed index) w.seconds with
      | error refused =>
        have hwhole (n : Nat) : refused ≠ .seedLength n := by
          rintro rfl
          exact SignedBody.check_ne_seedLength hseeds body index.publicId w.seconds n hcheck
        simp only [openedBy, hcheck] at h
        cases h
        exact Or.inr (Failure.status_ofSignature hwhole)
      | ok data =>
        cases hread : read data with
        | error f =>
          simp only [openedBy, hcheck, hread] at h
          cases h
          exact Or.inr (Or.inl rfl)
        | ok lines =>
          simp only [openedBy, hcheck, hread] at h
          cases h

theorem refusesFairly_of_storage {f : Failure}
    (hclosed : f = Storage.closed ∧ s.storage.isOpen = false) : RefusesFairly s (.failure f) := by
  obtain ⟨rfl, hstorage⟩ := hclosed
  refine Or.inl ⟨⟨.closed, rfl⟩, fun hstores => ?_⟩
  have hopen := hstores.storage
  rw [hstorage] at hopen
  cases hopen

/-- What a callback may come to: an answer of status 200, or a refusal that blames the stores or the one
who asked. -/
def EndsFairly (s : Service) : Except Refusal Response → Prop
  | .ok response => response.status = 200
  | .error e => RefusesFairly s e

/-- A callback ends with status 200, or in a refusal that is its caller's fault or that of the stores. -/
theorem endsFairly_perform (hs : s.Coherent) (hrows : ∀ i ∈ s.registry.rows, i.WellFormed)
    (w : Surroundings) (c : Callback) (publicId : String) (body : Bytes) :
    EndsFairly s ((c.perform w publicId body).run s).1 := by
  -- Each callback opens the body and runs its operation; only these two can fail.
  have hfetch (kind : TableKind) : EndsFairly s ((fetch w kind publicId body).run s).1 := by
    rw [run_fetch]
    split
    · rename_i hopened
      exact refusesFairly_of_openedBy hs hrows hopened
    · split
      · rename_i hfailed
        exact refusesFairly_of_storage (Storage.fetch_eq_error hfailed)
      · rfl
  cases c with
  | fetchEntries => exact hfetch .entries
  | fetchChains => exact hfetch .chains
  | upsertEntries =>
    rw [perform, run_upsert]
    split
    · rename_i hopened
      exact refusesFairly_of_openedBy hs hrows hopened
    · split
      · rename_i hfailed
        exact refusesFairly_of_storage (Storage.upsertEntries_eq_error hfailed)
      · rfl
  | insertChains =>
    rw [perform, run_insert]
    split
    · rename_i hopened
      exact refusesFairly_of_openedBy hs hrows hopened
    · split
      · rename_i hfailed
        exact refusesFairly_of_storage (Storage.insertChains_eq_error hfailed)
      · rfl

/-- Before its body is looked at, a request may be refused for its path or for its length. -/
theorem answer_cases (hs : s.Coherent) (hrows : ∀ i ∈ s.registry.rows, i.WellFormed)
    (w : Surroundings) (r : Request) (c : Callback) (id : Bytes) :
    EndsFairly s ((c.answer w r id).run s).1 ∨
      ((c.answer w r id).run s).1 = .error (.rejection 413 "length limit exceeded") := by
  cases hid : Route.parameter? id with
  | none =>
    rw [run_answer_of_unnamed hid]
    exact Or.inl (Or.inr (Or.inl rfl))
  | some publicId =>
    by_cases hlimit : r.body.length ≤ s.bodyLimit
    · rw [run_answer hid hlimit]
      exact Or.inl (endsFairly_perform hs hrows w c publicId r.body)
    · rw [run_answer_of_long hid (by omega)]
      exact Or.inr rfl

/-- No refusal of a callback is about the length of a seed. -/
theorem RefusesFairly.ne_seedLength (h : RefusesFairly s e) (n : Nat) :
    e ≠ .failure (.ofSignature (.seedLength n)) := by
  rintro rfl
  have hstatus : (Refusal.failure (.ofSignature (.seedLength n))).response.status = 500 := rfl
  rcases h with ⟨⟨fault, hfault⟩, -⟩ | hbad | hforbidden
  · cases hfault
  · omega
  · omega

theorem EndsFairly.ne_seedLength {outcome : Except Refusal Response} (h : EndsFairly s outcome)
    (n : Nat) : outcome ≠ .error (.failure (.ofSignature (.seedLength n))) := by
  rintro rfl
  exact RefusesFairly.ne_seedLength h n rfl

/-- While both stores answer, the status says that all went well or that the request is at fault. -/
theorem EndsFairly.status {outcome : Except Refusal Response} (h : EndsFairly s outcome)
    (hstores : s.StoresAnswer) :
    (answered outcome).status = 200 ∨ (answered outcome).status = 400 ∨
      (answered outcome).status = 403 := by
  cases outcome with
  | ok response => exact Or.inl h
  | error e =>
    rcases h with ⟨-, hstill⟩ | hfault
    · exact absurd hstores hstill
    · exact Or.inr hfault

end Http.Callback

namespace Service

variable {start s : Service}

/-- Take a service over any tenancy that starts with an empty table of indexes, and any state that it
comes to. All rows are well formed; no callback ever fails for the length of a seed; and while both
stores answer, so does every callback, with a status that is never the server's fault. -/
theorem created_indexes_usable (hrows : start.registry.rows = []) (hcache : start.cache.entries = ∅)
    (hs : start.Reaches s) :
    (∀ i ∈ s.registry.rows, i.WellFormed) ∧
      (∀ (w : Surroundings) (r : Http.Request) (c : Http.Callback) (id : Bytes) (n : Nat),
        ((c.answer w r id).run s).1 ≠ .error (.failure (.ofSignature (.seedLength n)))) ∧
      (s.StoresAnswer → ∀ (w : Surroundings) (r : Http.Request) (c : Http.Callback) (id : Bytes),
        r.method = "POST" →
        Http.Route.segments r.path = [Bytes.ofText "indexes", id, Bytes.ofText c.name] →
        (s.respond w r).2.status ∈ [200, 400, 403, 413]) := by
  have hcoherent := hs.coherent hcache
  have hwellFormed : ∀ i ∈ s.registry.rows, i.WellFormed := by
    apply hs.wellFormed
    rw [hrows]
    intro i hi
    cases hi
  refine ⟨hwellFormed, fun w r c id n => ?whole, fun hstores w r c id hmethod hpath => ?status⟩
  case whole =>
    -- an answer is a fair one, or the refusal of a body that is too long
    rcases Http.Callback.answer_cases hcoherent hwellFormed w r c id with hfair | hlong
    · exact hfair.ne_seedLength n
    · rw [hlong]
      intro heq
      cases heq
  case status =>
    have hanswer : (s.respond w r).2.status =
        (Http.answered ((c.answer w r id).run s).1).status := by
      rw [respond_callback hmethod hpath, carryOut_eq]
    rw [hanswer]
    rcases Http.Callback.answer_cases hcoherent hwellFormed w r c id with hfair | hlong
    · rcases hfair.status hstores with hstatus | hstatus | hstatus <;> simp [hstatus]
    · rw [hlong]
      decide

/-- A fetch of entries from the index that `creation` makes at the epoch. -/
def fetchOfCreated (body : Bytes) : Http.Request where
  method := "POST"
  target := "/indexes/AAAAA/fetch_entries"
  body := body

/-- A payload that asks for one identifier. -/
def onePayload : Bytes :=
  Wire.writePayload Wire.writeUidLine
    (SortedMap.VisitOrder.ascending.lines (UidSet.ofUids [.repeating 0]))

theorem created_indexes_usable_signedFetch :
    justStarted.registry.rows = [] ∧ justStarted.cache.entries = ∅ ∧
      ∃ s index body, s = (justStarted.respond atEpoch creation).1 ∧ justStarted.Reaches s ∧
        s.StoresAnswer ∧ s.registry.findLive "AAAAA" = some index ∧ index.WellFormed ∧
        SignedBody.sign index.seeds.fetchEntries "AAAAA" 0 onePayload = .ok body ∧
        (s.respond atEpoch (fetchOfCreated body)).2.status = 200 := by
  let s := (justStarted.respond atEpoch creation).1
  have hreaches : justStarted.Reaches s := .respond .start atEpoch creation
  have hcoherent : s.Coherent := hreaches.coherent rfl
  have hstores : s.StoresAnswer := ⟨by decide +kernel, by decide +kernel⟩
  have hcreated : (s.registry.findLive "AAAAA").isSome := by decide +kernel
  obtain ⟨index, hlive⟩ := Option.isSome_iff_exists.1 hcreated
  have hwellFormed : index.WellFormed :=
    (created_indexes_usable rfl rfl hreaches).1 index (Registry.findLive_spec hlive).1
  -- The seed of the row is whole, so its owner can sign with it.
  have hkey := SignedBody.deriveKey_of_length (hwellFormed.seeds .fetchEntries) "AAAAA"
  obtain ⟨body, hsign⟩ : ∃ body,
      SignedBody.sign index.seeds.fetchEntries "AAAAA" 0 onePayload = .ok body :=
    ⟨_, SignedBody.sign_eq_ok_iff.2 ⟨_, hkey, rfl⟩⟩
  have hadmits : (Http.Callback.fetching .entries).Admits atEpoch s "AAAAA" body index onePayload := by
    refine ⟨hlive, ?_⟩
    rw [Registry.publicId_of_findLive hlive]
    exact SignedBody.check_eq_ok_iff.2 ⟨0, by decide, by decide, hsign⟩
  have hread : Wire.readUidSet onePayload = .ok (UidSet.ofUids [.repeating 0]) :=
    Wire.readUidSet_writePayload .ascending (by decide +kernel)
  have hfound := Storage.fetchInOrder_eq hstores.storage index.id .entries
    (List.Perm.refl (UidSet.ofUids [.repeating 0]).keys)
  have hrun := Http.Callback.run_fetch_of_admits hcoherent hstores.registry hadmits hread hfound
  have hpath : Http.Route.segments (fetchOfCreated body).path = [Bytes.ofText "indexes",
      Bytes.ofText "AAAAA", Bytes.ofText Http.Callback.fetchEntries.name] := rfl
  have hlimit : body.length ≤ s.bodyLimit := by
    rw [SignedBody.length_body hsign]
    decide +kernel
  have hrespond := respond_of_perform (r := fetchOfCreated body) (c := .fetchEntries) rfl hpath
    (by decide +kernel) hlimit hrun
  refine ⟨rfl, rfl, s, index, body, rfl, hreaches, hstores, hlive, hwellFormed, hsign, ?_⟩
  rw [hrespond]
  rfl

end Service
end IndexVault
