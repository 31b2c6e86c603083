import IndexVault.Proofs.Service.Isolation

/-! What callbacks reveal. The answer to a callback depends on the index that its public id leads to, on
its body, and on nothing that is stored, except under the identifiers that a body names which was signed
for that index (`FindsAlike.answer`); and no callback, answered before, makes another one depend on more
(`callbacks_confidential`). -/
namespace IndexVault

open Http (Callback)

/-- The identifiers that the data of a callback names. -/
def Http.Callback.uidsIn (c : Callback) (data : Bytes) : Except PayloadError (List Uid) :=
  match c with
  | fetchEntries | fetchChains => (Wire.readUidSet data).map SortedMap.keys
  | upsertEntries => (Wire.readUpsertData data).map SortedMap.keys
  | insertChains => (Wire.readTable data).map SortedMap.keys

namespace Service

/-- A request asks for lines of an index: it is a callback on a public id that leads to the index, and its
body was signed for this callback on this index, is not expired, and names the identifiers. -/
structure Asks (s : Service) (w : Surroundings) (r : Http.Request) (index : Index)
    (kind : TableKind) (uids : List Uid) : Prop where
  limit : r.body.length ≤ s.bodyLimit
  signed : ∃ publicId c data, r.callback? = some (publicId, c) ∧ c.table = kind ∧
    s.found publicId = .ok (some index) ∧
    SignedBody.check r.body index.publicId (c.seed index) w.seconds = .ok data ∧
    c.uidsIn data = .ok uids

theorem Asks.isCallback {s : Service} {w : Surroundings} {r : Http.Request} {index : Index}
    {kind : TableKind} {uids : List Uid} (h : s.Asks w r index kind uids) : r.IsCallback := by
  obtain ⟨-, publicId, c, data, hr, -⟩ := h
  obtain ⟨hmethod, id, -, hpath⟩ := Http.Request.of_callback? hr
  exact ⟨hmethod, c, id, hpath⟩

/-- A request asks for one thing at most. -/
theorem Asks.unique {s : Service} {w : Surroundings} {r : Http.Request} {index index' : Index}
    {kind kind' : TableKind} {uids uids' : List Uid} (h : s.Asks w r index kind uids)
    (h' : s.Asks w r index' kind' uids') : index = index' ∧ kind = kind' ∧ uids = uids' := by
  obtain ⟨-, publicId, c, data, hr, rfl, hfound, hcheck, huids⟩ := h
  obtain ⟨-, publicId', c', data', hr', rfl, hfound', hcheck', huids'⟩ := h'
  cases hr.symm.trans hr'
  cases hfound.symm.trans hfound'
  cases hcheck.symm.trans hcheck'
  cases huids.symm.trans huids'
  exact ⟨rfl, rfl, rfl⟩

/-- Public ids lead to the same indexes, and bodies have the same limit. -/
structure FindsAlike (s t : Service) : Prop where
  found : ∀ publicId, s.found publicId = t.found publicId
  bodyLimit : s.bodyLimit = t.bodyLimit

variable {s t : Service} {w : Surroundings} {r : Http.Request} {publicId : String} {body : Bytes}
  {c : Callback}

/-- Services with the same rows find the same indexes, whatever coherent caches they have. -/
theorem FindsAlike.of_registry (hregistry : s.registry = t.registry)
    (hcache : s.cache = t.cache ∨ s.registry.ready = .ok () ∧ s.Coherent ∧ t.Coherent)
    (hlimit : s.bodyLimit = t.bodyLimit) : FindsAlike s t := by
  refine ⟨fun publicId => ?_, hlimit⟩
  rcases hcache with hsame | ⟨hready, hs, ht⟩
  · rw [Service.found, Service.found, hsame, hregistry]
  · rw [Service.found, Service.found, IndexCache.Coherent.lookup_of_ready hs hready,
      IndexCache.Coherent.lookup_of_ready ht (hregistry ▸ hready), hregistry]

/-- The stores of two services hold the same under the identifiers that a request asks for, if it does. -/
def AlikeFor (s t : Service) (w : Surroundings) (r : Http.Request) : Prop :=
  ∀ index kind uids, s.Asks w r index kind uids → s.storage.isOpen = t.storage.isOpen ∧
    ∀ uid ∈ uids, (s.storage.contents.table index.id kind).get? uid =
      (t.storage.contents.table index.id kind).get? uid

/-- What a callback opens its body to is what it asks for. -/
theorem asks_of_opened {α : Type} {read : Bytes → Except PayloadError α} {index : Index} {lines : α}
    {uids : List Uid} (hr : r.callback? = some (publicId, c)) (hlimit : r.body.length ≤ s.bodyLimit)
    (hopened : Callback.openedBy w c read publicId r.body (s.found publicId) = .ok (index, lines))
    (hread : ∀ data, read data = .ok lines → c.uidsIn data = .ok uids) :
    s.Asks w r index c.table uids := by
  obtain ⟨hfound, data, hcheck, hlines⟩ := Callback.openedBy_eq_ok_iff.1 hopened
  exact ⟨hlimit, publicId, c, data, hr, rfl, hfound, hcheck, hread data hlines⟩

namespace FindsAlike

variable (h : FindsAlike s t)

include h

/-- A fetch is answered alike where the lines that it asks for are the same; `upsert_answer` and
`insert_answer` say so of the other kinds. -/
theorem fetch_answer (kind : TableKind) (hr : r.callback? = some (publicId, .fetching kind))
    (hlimit : r.body.length ≤ s.bodyLimit) (halike : s.AlikeFor t w r) :
    ((Callback.fetch w kind publicId r.body).run s).1 =
      ((Callback.fetch w kind publicId r.body).run t).1 := by
  rw [Callback.run_fetch, Callback.run_fetch, ← h.found]
  split
  · rfl
  · rename_i index uids hopened
    have hasks : s.Asks w r index kind uids.keys := by
      have hread {data : Bytes} (hread : Wire.readUidSet data = .ok uids) :
          (Callback.fetching kind).uidsIn data = .ok uids.keys := by
        cases kind <;> exact congrArg (·.map SortedMap.keys) hread
      cases kind <;> exact asks_of_opened hr hlimit hopened fun _ => hread
    obtain ⟨hopen, hlines⟩ := halike _ _ _ hasks
    rw [Storage.fetch_congr hopen hlines]
    split <;> rfl

theorem upsert_answer (hr : r.callback? = some (publicId, .upsertEntries))
    (hlimit : r.body.length ≤ s.bodyLimit) (halike : s.AlikeFor t w r) :
    ((Callback.upsert w publicId r.body).run s).1 =
      ((Callback.upsert w publicId r.body).run t).1 := by
  rw [Callback.run_upsert, Callback.run_upsert, ← h.found]
  split
  · rfl
  · rename_i index batch hopened
    have hasks : s.Asks w r index .entries batch.keys :=
      asks_of_opened hr hlimit hopened fun data hread => by
        rw [Callback.uidsIn, hread]
        rfl
    obtain ⟨hopen, hlines⟩ := halike _ _ _ hasks
    rcases Storage.upsertEntries_both hopen index.id batch with
      ⟨hclosed, hclosed'⟩ | ⟨s', t', -, hdone, hdone', -, -⟩
    · rw [hclosed, hclosed']
    · rw [hdone, hdone', EncryptedTable.rejections_eq_of_get? hlines]

theorem insert_answer (hr : r.callback? = some (publicId, .insertChains))
    (hlimit : r.body.length ≤ s.bodyLimit) (halike : s.AlikeFor t w r) :
    ((Callback.insert w publicId r.body).run s).1 =
      ((Callback.insert w publicId r.body).run t).1 := by
  rw [Callback.run_insert, Callback.run_insert, ← h.found]
  split
  · rfl
  · rename_i index chains hopened
    have hasks : s.Asks w r index .chains chains.keys :=
      asks_of_opened hr hlimit hopened fun data hread => by
        rw [Callback.uidsIn, hread]
        rfl
    obtain ⟨hopen, -⟩ := halike _ _ _ hasks
    rcases Storage.insertChains_both hopen index.id chains with
      ⟨hclosed, hclosed'⟩ | ⟨s', t', -, hdone, hdone', -, -⟩
    · rw [hclosed, hclosed']
    · rw [hdone, hdone']

/-- What a callback is answered depends on what it asks for, and on no other line or size. -/
theorem answer (hr : r.IsCallback) (halike : s.AlikeFor t w r) :
    (s.respond w r).2 = (t.respond w r).2 := by
  rcases respond_of_isCallback hr with ⟨publicId, c, hcallback⟩ | ⟨answer, hrespond⟩
  · have hperform (hlimit : r.body.length ≤ s.bodyLimit) :
        ((c.perform w publicId r.body).run s).1 = ((c.perform w publicId r.body).run t).1 := by
      cases c with
      | fetchEntries => exact h.fetch_answer .entries hcallback hlimit halike
      | fetchChains => exact h.fetch_answer .chains hcallback hlimit halike
      | upsertEntries => exact h.upsert_answer hcallback hlimit halike
      | insertChains => exact h.insert_answer hcallback hlimit halike
    rw [respond_of_callback? hcallback, respond_of_callback? hcallback, ← h.bodyLimit]
    split
    · rename_i hlimit
      rw [hperform hlimit]
    · rfl
  · rw [hrespond, hrespond]

end FindsAlike

/-- A callback changes nothing about what is found. -/
theorem FindsAlike.of_isCallback (hr : r.IsCallback) (s : Service) (w : Surroundings) :
    FindsAlike s (s.respond w r).1 := by
  rcases respond_of_isCallback hr with ⟨publicId, c, hcallback⟩ | ⟨answer, hrespond⟩
  · have htouches := touches_respond hcallback s w
    exact ⟨fun other => (htouches.found other).symm, htouches.bodyLimit.symm⟩
  · rw [hrespond]
    exact ⟨fun _ => rfl, rfl⟩

theorem FindsAlike.symm (h : FindsAlike s t) : FindsAlike t s :=
  ⟨fun publicId => (h.found publicId).symm, h.bodyLimit.symm⟩

theorem FindsAlike.trans {u : Service} (h : FindsAlike s t) (h' : FindsAlike t u) :
    FindsAlike s u :=
  ⟨fun publicId => (h.found publicId).trans (h'.found publicId), h.bodyLimit.trans h'.bodyLimit⟩

theorem Asks.of_findsAlike {index : Index} {kind : TableKind} {uids : List Uid}
    (hasks : s.Asks w r index kind uids) (h : FindsAlike s t) : t.Asks w r index kind uids := by
  obtain ⟨hlimit, publicId, c, data, hr, hkind, hfound, hsigned⟩ := hasks
  rw [h.bodyLimit] at hlimit
  rw [h.found] at hfound
  exact ⟨hlimit, publicId, c, data, hr, hkind, hfound, hsigned⟩

section Agreement

variable {seen : IndexId → TableKind → Uid → Prop}

/-- A callback keeps two stores alike under the identifiers that were seen. -/
theorem agreeAt_perform (h : FindsAlike s t) (hagree : s.storage.AgreeAt seen t.storage)
    (c : Callback) (w : Surroundings) (publicId : String) (body : Bytes) :
    ((c.perform w publicId body).run s).2.storage.AgreeAt seen
      ((c.perform w publicId body).run t).2.storage := by
  have hfetch (kind : TableKind) : ((Callback.fetch w kind publicId body).run s).2.storage.AgreeAt
      seen ((Callback.fetch w kind publicId body).run t).2.storage := by
    rw [(Callback.quiet_fetch w kind publicId body s).storage,
      (Callback.quiet_fetch w kind publicId body t).storage]
    exact hagree
  cases c with
  | fetchEntries => exact hfetch .entries
  | fetchChains => exact hfetch .chains
  | upsertEntries =>
    -- both states find the same row, so they open the body alike, or both refuse it
    rw [Callback.perform, Callback.run_upsert, Callback.run_upsert, ← h.found]
    split
    · exact hagree
    · rename_i index batch _
      rcases Storage.upsertEntries_both hagree.isOpen index.id batch with
        ⟨hclosed, hclosed'⟩ | ⟨s', t', hopen, hdone, hdone', hcontents, hcontents'⟩
      · rw [hclosed, hclosed']
        exact hagree
      · rw [hdone, hdone']
        refine ⟨hopen, ?_⟩
        dsimp only
        rw [hcontents, hcontents']
        exact hagree.contents.upsertEntries index.id batch
  | insertChains =>
    rw [Callback.perform, Callback.run_insert, Callback.run_insert, ← h.found]
    split
    · exact hagree
    · rename_i index chains _
      rcases Storage.insertChains_both hagree.isOpen index.id chains with
        ⟨hclosed, hclosed'⟩ | ⟨s', t', hopen, hdone, hdone', hcontents, hcontents'⟩
      · rw [hclosed, hclosed']
        exact hagree
      · rw [hdone, hdone']
        refine ⟨hopen, ?_⟩
        dsimp only
        rw [hcontents, hcontents']
        exact hagree.contents.insertChains index.id chains

theorem agreeAt_respond (h : FindsAlike s t) (hagree : s.storage.AgreeAt seen t.storage)
    (hr : r.IsCallback) (w : Surroundings) :
    (s.respond w r).1.storage.AgreeAt seen (t.respond w r).1.storage := by
  rcases respond_of_isCallback hr with ⟨publicId, c, hcallback⟩ | ⟨answer, hrespond⟩
  · rw [respond_of_callback? hcallback, respond_of_callback? hcallback, ← h.bodyLimit]
    split
    · exact agreeAt_perform h hagree c w publicId r.body
    · exact hagree
  · rw [hrespond, hrespond]
    exact hagree

/-- By induction on the run, two services that agree on all that is asked for answer alike. -/
theorem respondAll_alike {calls : List (Surroundings × Http.Request)} (h : FindsAlike s t)
    (hagree : s.storage.AgreeAt seen t.storage) (hcalls : ∀ call ∈ calls, call.2.IsCallback)
    (hseen : ∀ call ∈ calls, ∀ index kind uids, s.Asks call.1 call.2 index kind uids →
      ∀ uid ∈ uids, seen index.id kind uid) :
    (s.respondAll calls).2 = (t.respondAll calls).2 := by
  -- By induction on the calls: they find the same indexes, and their stores agree on what is seen.
  induction calls generalizing s t with
  | nil => rfl
  | cons call later ih =>
    obtain ⟨w, r⟩ := call
    have hr := hcalls (w, r) List.mem_cons_self
    have halike : s.AlikeFor t w r := by
      intro index kind uids hasks
      refine ⟨hagree.isOpen, fun uid huid => ?_⟩
      exact hagree.contents _ _ _ (hseen (w, r) List.mem_cons_self index kind uids hasks uid huid)
    have hs := FindsAlike.of_isCallback hr s w
    have ht := FindsAlike.of_isCallback hr t w
    -- What a later callback asks for is what it would have asked for at the beginning.
    have hlater := ih ((hs.symm.trans h).trans ht) (agreeAt_respond h hagree hr w)
      (fun call hmem => hcalls call (List.mem_cons_of_mem _ hmem))
      (fun call hmem index kind uids hasks =>
        hseen call (List.mem_cons_of_mem _ hmem) index kind uids (hasks.of_findsAlike hs.symm))
    exact congrArg₂ List.cons (h.answer hr halike) hlater

end Agreement

/-- Take two services that have the same rows of indexes and find the same ones through their caches,
with whatever lines and sizes stored. A callback that asks for nothing, since it is refused or its data
does not read, is answered the same. One that asks for lines is answered the same if both stores are
open, or neither is, and hold the same in the table of the index under the identifiers it names. And a
run of callbacks is answered the same if both stores hold the same under all that is asked for in it. -/
theorem callbacks_confidential (hregistry : s.registry = t.registry)
    (hcache : s.cache = t.cache ∨ s.registry.ready = .ok () ∧ s.Coherent ∧ t.Coherent)
    (hlimit : s.bodyLimit = t.bodyLimit) :
    (∀ w r, r.IsCallback → (∀ index kind uids, ¬ s.Asks w r index kind uids) →
      (s.respond w r).2 = (t.respond w r).2) ∧
    (∀ w r index kind uids, s.Asks w r index kind uids → s.storage.isOpen = t.storage.isOpen →
      (∀ uid ∈ uids, (s.storage.contents.table index.id kind).get? uid =
        (t.storage.contents.table index.id kind).get? uid) →
      (s.respond w r).2 = (t.respond w r).2) ∧
    ∀ calls : List (Surroundings × Http.Request), (∀ call ∈ calls, call.2.IsCallback) →
      s.storage.isOpen = t.storage.isOpen →
      (∀ call ∈ calls, ∀ index kind uids, s.Asks call.1 call.2 index kind uids → ∀ uid ∈ uids,
        (s.storage.contents.table index.id kind).get? uid =
          (t.storage.contents.table index.id kind).get? uid) →
      (s.respondAll calls).2 = (t.respondAll calls).2 := by
  have h := FindsAlike.of_registry hregistry hcache hlimit
  refine ⟨?unasked, ?asked, ?run⟩
  case unasked =>
    intro w r hr hnone
    exact h.answer hr fun index kind uids hasks => absurd hasks (hnone index kind uids)
  case asked =>
    intro w r index kind uids hasks hopen hlines
    refine h.answer hasks.isCallback fun index' kind' uids' hasks' => ⟨hopen, ?_⟩
    obtain ⟨rfl, rfl, rfl⟩ := hasks.unique hasks'
    exact hlines
  case run =>
    intro calls hcalls hopen hlines
    let seen (i : IndexId) (kind : TableKind) (uid : Uid) : Prop :=
      (s.storage.contents.table i kind).get? uid = (t.storage.contents.table i kind).get? uid
    have hagree : s.storage.AgreeAt seen t.storage := ⟨hopen, fun _ _ _ hsame => hsame⟩
    exact respondAll_alike h hagree hcalls hlines

/-- The service with one index, with a line that nobody asks for below. -/
def withOtherLine : Service :=
  let otherUid : Uid := .repeating 1
  { withOneIndex with
    storage := .keyValue
      { entries := .ofList [(1, .ofList [(otherUid, [7])])], sizes := .ofList [(1, 1)] } }

theorem callbacks_confidential_withOtherLine :
    withOneIndex.registry = withOtherLine.registry ∧ withOneIndex.cache = withOtherLine.cache ∧
      withOneIndex.bodyLimit = withOtherLine.bodyLimit ∧
      ∃ r : Http.Request, r.target = "/indexes/abcde/fetch_entries" ∧
        withOneIndex.Asks atEpoch r onlyIndex .entries [zeroUid] ∧
        (withOneIndex.respond atEpoch r).2 = (withOtherLine.respond atEpoch r).2 := by
  let call := (TableCall.fetch .entries (.ofUids [zeroUid])).signed
  have hvalid : call.ValidFor withOneIndex :=
    TableCall.validFor_withOneIndex (by decide +kernel)
  obtain ⟨index, hadmits⟩ := hvalid.admits
  obtain rfl : onlyIndex = index := Option.some.inj hadmits.live
  obtain ⟨id, hpath, hid⟩ := hvalid.path
  have hcallback := Http.Request.callback?_of_path hvalid.method hpath
  rw [hid] at hcallback
  have hasks : withOneIndex.Asks atEpoch call.request onlyIndex .entries [zeroUid] :=
    ⟨hvalid.limit, "abcde", .fetchEntries, _, hcallback, rfl, rfl, hadmits.signed,
      by decide +kernel⟩
  refine ⟨rfl, rfl, rfl, call.request, rfl, hasks, ?_⟩
  have hlines : ∀ uid ∈ [zeroUid],
      (withOneIndex.storage.contents.table onlyIndex.id .entries).get? uid =
        (withOtherLine.storage.contents.table onlyIndex.id .entries).get? uid := by
    decide +kernel
  have h := callbacks_confidential (s := withOneIndex) (t := withOtherLine) rfl (Or.inl rfl) rfl
  exact h.2.1 atEpoch call.request onlyIndex .entries [zeroUid] hasks rfl hlines

end Service
end IndexVault
