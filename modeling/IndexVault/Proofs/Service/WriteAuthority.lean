import IndexVault.Proofs.Metadata.RowHistory
import IndexVault.Proofs.Service.CallbackRuns
import IndexVault.Proofs.Wire.RoundTrip

/-! Which requests write. A request that is not an upsert or an insertion, or that is refused
anywhere, leaves the storage as it was; the others have shown that they may write, and they change one
table of one index (`writes_need_authority`). -/
namespace IndexVault

open IndexVault.Action
open Service (Continues LeavesStorage)

namespace Http.Callback

/-- The table that a callback writes. -/
def written? : Callback → Option TableKind
  | upsertEntries => some .entries
  | insertChains => some .chains
  | fetchEntries | fetchChains => none

/-- The data is one whole payload of a callback. -/
def Reads (c : Callback) (data : Bytes) : Prop :=
  match c with
  | fetchEntries | fetchChains => ∃ uids, Wire.readUidSet data = .ok uids
  | upsertEntries => ∃ batch, Wire.readUpsertData data = .ok batch
  | insertChains => ∃ chains, Wire.readTable data = .ok chains

/-- A callback that has written: what it was shown, and what it changed. -/
structure Writes (c : Callback) (w : Surroundings) (s : Service) (publicId : String) (body : Bytes)
    (index : Index) (response : Response) (s' : Service) : Prop where
  admits : ∃ data, c.Admits w s publicId body index data ∧ c.Reads data
  continues : Continues s s'
  status : response.status = 200
  storage : ∃ kind, c.written? = some kind ∧ s.storage.ChangesOnly s'.storage index.id kind

/-- A callback leaves the storage alone, or it was admitted and has written one table. -/
theorem run_perform_cases (w : Surroundings) (c : Callback) (publicId : String) (body : Bytes)
    {s : Service} (hs : s.Coherent) :
    LeavesStorage s ((c.perform w publicId body).run s).2 ∨
      ∃ index response s', (c.perform w publicId body).run s = (.ok response, s') ∧
        c.Writes w s publicId body index response s' := by
  -- a look-up changes neither rows nor lines, so only the storage has to be vouched for
  have hwrote (storage : Storage) (hsound : s.storage.Sound → storage.Sound) :
      Continues s { s.looked publicId with storage := storage } := by
    have hlooked := (s.leavesStorage_looked publicId).toContinues
    exact ⟨hlooked.ready, hlooked.bodyLimit, hlooked.numbered, hlooked.coherent, hsound⟩
  cases c with
  | fetchEntries => exact Or.inl (quiet_fetch w .entries publicId body s)
  | fetchChains => exact Or.inl (quiet_fetch w .chains publicId body s)
  | upsertEntries =>
    rcases run_upsert_cases w publicId body hs with
      hquiet | ⟨index, data, batch, storage, rejected, hadmits, hread, hdone, hrun⟩
    · exact Or.inl hquiet
    · refine Or.inr ⟨index, _, _, hrun, ⟨data, hadmits, batch, hread⟩, hwrote storage ?_, rfl, ?_⟩
      · intro hsound
        exact hsound.of_upsertEntries hdone fun _ _ => Wire.length_lt_of_readUpsertData hread
      · exact ⟨.entries, rfl, Storage.changesOnly_of_upsertEntries hdone⟩
  | insertChains =>
    rcases run_insert_cases w publicId body hs with
      hquiet | ⟨index, data, chains, storage, hadmits, hread, hdone, hrun⟩
    · exact Or.inl hquiet
    · refine Or.inr ⟨index, _, _, hrun, ⟨data, hadmits, chains, hread⟩, hwrote storage ?_, rfl, ?_⟩
      · intro hsound
        exact hsound.of_insertChains hdone fun _ _ => Wire.length_lt_of_readTable hread
      · exact ⟨.chains, rfl, Storage.changesOnly_of_insertChains hdone⟩

/-- A callback whose path and body can be taken is performed. -/
theorem run_answer {w : Surroundings} {r : Request} {c : Callback} {id : Bytes} {publicId : String}
    {s : Service} (hid : Route.parameter? id = some publicId)
    (hlimit : r.body.length ≤ s.bodyLimit) :
    (c.answer w r id).run s = (c.perform w publicId r.body).run s := by
  have hbody : (bodyWithin r).run s = (.ok r.body, s) := by
    change (if r.body.length > s.bodyLimit then _ else _ : Action Bytes).run s = _
    rw [if_neg (by omega)]
    rfl
  rw [answer, Attempt.run_bind_of_ok (Action.run_parameter hid s), Attempt.run_bind_of_ok hbody]

theorem run_answer_of_long {w : Surroundings} {r : Request} {c : Callback} {id : Bytes}
    {publicId : String} {s : Service} (hid : Route.parameter? id = some publicId)
    (hlimit : s.bodyLimit < r.body.length) :
    (c.answer w r id).run s = (.error (.rejection 413 "length limit exceeded"), s) := by
  have hbody : (bodyWithin r).run s = (.error (.rejection 413 "length limit exceeded"), s) := by
    change (if r.body.length > s.bodyLimit then _ else _ : Action Bytes).run s = _
    rw [if_pos hlimit]
    rfl
  rw [answer, Attempt.run_bind_of_ok (Action.run_parameter hid s), Attempt.run_bind_of_error hbody]

theorem run_answer_of_unnamed {w : Surroundings} {r : Request} {c : Callback} {id : Bytes}
    {s : Service} (hid : Route.parameter? id = none) :
    (c.answer w r id).run s = (.error (.rejection 400 "Invalid UTF-8 in path parameter"), s) := by
  have hparameter : (parameter id).run s =
      (.error (.rejection 400 "Invalid UTF-8 in path parameter"), s) := by
    rw [parameter, hid]
    rfl
  rw [answer, Attempt.run_bind_of_error hparameter]

/-- A callback is refused at once, or performed. -/
theorem run_answer_cases (w : Surroundings) (r : Request) (c : Callback) (id : Bytes)
    (s : Service) :
    ((c.answer w r id).run s).2 = s ∨
      ∃ publicId, Route.parameter? id = some publicId ∧ r.body.length ≤ s.bodyLimit ∧
        (c.answer w r id).run s = (c.perform w publicId r.body).run s := by
  cases hid : Route.parameter? id with
  | none =>
    left
    rw [run_answer_of_unnamed hid]
  | some publicId =>
    by_cases hlimit : r.body.length ≤ s.bodyLimit
    · exact Or.inr ⟨publicId, rfl, hlimit, run_answer hid hlimit⟩
    · left
      rw [run_answer_of_long hid (by omega)]

end Http.Callback

namespace Service

theorem carryOut_eq (s : Service) (a : Action Http.Response) :
    s.carryOut a = ((a.run s).2, Http.answered (a.run s).1) := by
  unfold carryOut
  split <;> rename_i h <;> rw [h] <;> rfl

theorem carryOut_fst (s : Service) (a : Action Http.Response) :
    (s.carryOut a).1 = (a.run s).2 := by
  rw [carryOut_eq]

/-- An action that answers is answered as it says. -/
theorem carryOut_of_ok {s s' : Service} {a : Action Http.Response} {response : Http.Response}
    (h : a.run s = (.ok response, s')) : s.carryOut a = (s', response) := by
  rw [carryOut_eq, h]
  rfl

/-- Every action that a route takes is quiet, callbacks aside. -/
theorem quiet_action? {w : Surroundings} {r : Http.Request} {method : String} {route : Http.Route}
    {a : Action Http.Response} (h : action? w r method route = some a) :
    Quiet a ∨ ∃ c id, method = "POST" ∧ route = .callback c id ∧ a = c.answer w r id := by
  unfold action? at h
  split at h <;> cases h
  · exact Or.inl (inert_pure _).quiet
  · exact Or.inl (Management.quiet_list w r)
  · exact Or.inl (Management.quiet_create w r)
  · exact Or.inl (Management.quiet_show? w r _)
  · exact Or.inl (Management.quiet_delete w r _)
  · exact Or.inr ⟨_, _, rfl, rfl, rfl⟩
  · exact Or.inl (quiet_parameter_bind (LogAccess.quiet_setTimeDiff w))
  · exact Or.inl LogAccess.inert_read.quiet
  · exact Or.inl LogAccess.quiet_reset
  · exact Or.inl (quiet_parameter_bind (LogAccess.quiet_exportTable _))

/-- How a request is answered whose path and method lead to an action. -/
theorem respond_of_action? {s : Service} {w : Surroundings} {r : Http.Request} {method : String}
    {route : Http.Route} {a : Action Http.Response} (hmethod : r.method = method)
    (hother : method ≠ "OPTIONS" ∧ method ≠ "HEAD")
    (hroute : Http.Route.ofPath? s.log.isSome r.path = some route)
    (ha : action? w r method route = some a) :
    s.respond w r =
      ((a.run s).2, { Http.answered (a.run s).1 with allowOrigin := some "*" }) := by
  subst hmethod
  rw [respond, if_neg hother.1]
  simp only [Service.route, hroute, if_neg hother.2, ha, carryOut_eq]

/-- The path of a callback leads to it. -/
theorem respond_callback {s : Service} {w : Surroundings} {r : Http.Request} {c : Http.Callback}
    {id : Bytes} (hmethod : r.method = "POST")
    (hpath : Http.Route.segments r.path = [Bytes.ofText "indexes", id, Bytes.ofText c.name]) :
    s.respond w r =
      ((s.carryOut (c.answer w r id)).1,
        { (s.carryOut (c.answer w r id)).2 with allowOrigin := some "*" }) := by
  have hroute : Http.Route.ofPath? s.log.isSome r.path = some (.callback c id) :=
    Http.Route.ofPath?_eq_callback_iff.2 hpath
  have ha : action? w r "POST" (.callback c id) = some (c.answer w r id) := rfl
  rw [respond_of_action? hmethod (by decide) hroute ha, carryOut_eq]

/-- A callback that is reached by a body within the limit is answered as it performs. -/
theorem respond_of_perform {s s' : Service} {w : Surroundings} {r : Http.Request} {c : Http.Callback}
    {id : Bytes} {publicId : String} {response : Http.Response} (hmethod : r.method = "POST")
    (hpath : Http.Route.segments r.path = [Bytes.ofText "indexes", id, Bytes.ofText c.name])
    (hid : Http.Route.parameter? id = some publicId) (hlimit : r.body.length ≤ s.bodyLimit)
    (hrun : (c.perform w publicId r.body).run s = (.ok response, s')) :
    s.respond w r = (s', { response with allowOrigin := some "*" }) := by
  have hanswer := (Http.Callback.run_answer hid hlimit).trans hrun
  rw [respond_callback hmethod hpath, carryOut_of_ok hanswer]

/-- Only a callback can change the storage. -/
theorem respond_cases (s : Service) (w : Surroundings) (r : Http.Request) :
    LeavesStorage s (s.respond w r).1 ∨ ∃ (c : Http.Callback) (id : Bytes), r.method = "POST" ∧
      Http.Route.segments r.path = [Bytes.ofText "indexes", id, Bytes.ofText c.name] := by
  unfold respond
  split
  -- Requests for options, static files and methods that a route does not take run no action.
  · exact Or.inl (LeavesStorage.refl s)
  · unfold route
    cases hroute : Http.Route.ofPath? s.log.isSome r.path with
    | none => exact Or.inl (LeavesStorage.refl s)
    | some route =>
      cases haction : action? w r (if r.method = "HEAD" then "GET" else r.method) route with
      | none =>
        simp only [haction]
        exact Or.inl (LeavesStorage.refl s)
      | some a =>
        simp only [haction]
        rcases quiet_action? haction with hquiet | ⟨c, id, hmethod, rfl, rfl⟩
        · left
          rw [carryOut_fst]
          exact hquiet s
        · right
          refine ⟨c, id, ?_, Http.Route.ofPath?_eq_callback_iff.1 hroute⟩
          split at hmethod
          · exact absurd hmethod (by decide)
          · exact hmethod

/-- The states that a service comes to by answering requests. -/
inductive Reaches (start : Service) : Service → Prop where
  | start : Reaches start start
  | respond {s : Service} (hs : Reaches start s) (w : Surroundings) (r : Http.Request) :
    Reaches start (s.respond w r).1

/-- What a request shows before a callback writes the tables of an index for it. -/
structure MayWrite (s : Service) (w : Surroundings) (r : Http.Request) (c : Http.Callback)
    (index : Index) : Prop where
  method : r.method = "POST"
  path : ∃ id publicId,
    Http.Route.segments r.path = [Bytes.ofText "indexes", id, Bytes.ofText c.name] ∧
      Http.Route.parameter? id = some publicId ∧ s.registry.findLive publicId = some index
  limit : r.body.length ≤ s.bodyLimit
  signed : ∃ expiration data, expiration < UInt64.size ∧ w.seconds ≤ expiration ∧
    SignedBody.sign (c.seed index) index.publicId expiration data = .ok r.body ∧ c.Reads data

/-- A request leaves the storage alone, or it may write and does. -/
theorem respond_writes {s : Service} (hs : s.Coherent) (w : Surroundings) (r : Http.Request) :
    LeavesStorage s (s.respond w r).1 ∨
      Continues s (s.respond w r).1 ∧
        ∃ (c : Http.Callback) (kind : TableKind) (index : Index), c.written? = some kind ∧
          s.MayWrite w r c index ∧ (s.respond w r).2.status = 200 ∧
          s.storage.ChangesOnly (s.respond w r).1.storage index.id kind := by
  rcases s.respond_cases w r with hleaves | ⟨c, id, hmethod, hpath⟩
  · exact Or.inl hleaves
  · rw [respond_callback hmethod hpath]
    dsimp only
    rcases c.run_answer_cases w r id s with hunread | ⟨publicId, hid, hlimit, hrun⟩
    · left
      rw [carryOut_fst, hunread]
      exact LeavesStorage.refl s
    · rcases c.run_perform_cases w publicId r.body hs with
        hquiet | ⟨index, response, s', hdone, hwrites⟩
      · left
        rw [carryOut_fst, hrun]
        exact hquiet
      · right
        rw [carryOut_of_ok (hrun.trans hdone)]
        -- Everything the callback was shown on its way to the storage is what `MayWrite` asks for.
        obtain ⟨kind, hkind, honly⟩ := hwrites.storage
        obtain ⟨data, hadmits, hreads⟩ := hwrites.admits
        obtain ⟨expiration, hsize, hnow, hsign⟩ := SignedBody.check_eq_ok_iff.1 hadmits.signed
        refine ⟨hwrites.continues, c, kind, index, hkind, ⟨hmethod, ?_, hlimit, ?_⟩,
          hwrites.status, honly⟩
        · exact ⟨id, publicId, hpath, hid, hadmits.live⟩
        · exact ⟨expiration, data, hsize, hnow, hsign, hreads⟩

/-- The tables and the size under a number that no live index has stay as they are. -/
theorem storage_of_no_live {s : Service} (hs : s.Coherent) {i : IndexId}
    (h : ∀ index ∈ s.registry.rows, index.isLive = true → index.id ≠ i) (w : Surroundings)
    (r : Http.Request) :
    (∀ kind, (s.respond w r).1.storage.contents.table i kind = s.storage.contents.table i kind) ∧
      (s.respond w r).1.storage.contents.size i = s.storage.contents.size i := by
  rcases respond_writes hs w r with hleaves | ⟨-, c, kind, index, -, hmay, -, honly⟩
  · rw [hleaves.storage]
    exact ⟨fun _ => rfl, rfl⟩
  · obtain ⟨_, _, -, -, hlive⟩ := hmay.path
    obtain ⟨hmem, -, hisLive⟩ := Registry.findLive_spec hlive
    have hne : i ≠ index.id := (h index hmem hisLive).symm
    exact ⟨fun k => honly.table i k fun heq => hne heq.1, honly.size i hne⟩

/-- Whatever is asked, the service goes on as before. -/
theorem Continues.of_respond {s : Service} (hs : s.Coherent) (w : Surroundings)
    (r : Http.Request) : Continues s (s.respond w r).1 := by
  rcases respond_writes hs w r with hleaves | ⟨hcontinues, -⟩
  · exact hleaves.toContinues
  · exact hcontinues

/-- A cache that was empty at the start is coherent in every state. -/
theorem Reaches.coherent {start s : Service} (h : start.Reaches s)
    (hstart : start.cache.entries = ∅) : s.Coherent := by
  induction h with
  | start => exact IndexCache.coherent_of_empty hstart _
  | respond _ w r ih => exact (Continues.of_respond ih w r).coherent ih

/-- Over any registry, storage and settings, a service that started with an empty cache changes its lines
and sizes only at a request that may write, for which the answer is 200; then one table of one index
changes, and the size of that index, which is taken to stay below `2 ^ 63`. -/
theorem writes_need_authority {start s : Service} (hstart : start.cache.entries = ∅)
    (hs : start.Reaches s) (w : Surroundings) (r : Http.Request) :
    (s.respond w r).1.storage = s.storage ∨
      ∃ (c : Http.Callback) (kind : TableKind) (index : Index), c.written? = some kind ∧
        s.MayWrite w r c index ∧ (s.respond w r).2.status = 200 ∧
        s.storage.ChangesOnly (s.respond w r).1.storage index.id kind := by
  rcases respond_writes (hs.coherent hstart) w r with hleaves | ⟨-, hwrites⟩
  · exact Or.inl hleaves.storage
  · exact Or.inr hwrites

/-- An index whose four seeds are different. -/
def onlyIndex : Index where
  id := 1
  publicId := "abcde"
  authzId := "owner"
  projectUuid := "project"
  name := "index"
  seeds := ⟨.replicate 16 1, .replicate 16 2, .replicate 16 3, .replicate 16 4⟩
  createdAt := .ofUnixSeconds 0

/-- A service with one live index and empty tables. -/
def withOneIndex : Service where
  registry.rows := [onlyIndex]

/-- Surroundings at the first second of 1970, where no remote service can be reached. -/
def atEpoch : Surroundings where
  millis := 0
  uptime := 0
  draw := ⟨fun _ _ => 0, fun _ _ => 0⟩
  userInfo := fun _ => .unreachable
  projects := fun _ => .unreachable

/-- The body of some data for a callback on this index, signed until the first second of 1970 is
over. -/
def signedBody (c : Http.Callback) (data : Bytes) : Bytes :=
  let key := Hash.hmac (c.seed onlyIndex) (Bytes.ofText "abcde")
  let timestamp := SignedBody.timestampOf 0
  SignedBody.signature key timestamp data ++ timestamp ++ data

/-- The request that sends this body to its callback. -/
def signedRequest (c : Http.Callback) (data : Bytes) : Http.Request where
  method := "POST"
  target := "/indexes/abcde/" ++ c.name
  body := signedBody c data

/-- The signed body is the one that signing makes. -/
theorem sign_onlyIndex (c : Http.Callback) (data : Bytes) :
    SignedBody.sign (c.seed onlyIndex) "abcde" 0 data = .ok (signedBody c data) := by
  have hseed : (c.seed onlyIndex).length = SignedBody.seedLength := by
    cases c <;> rfl
  exact SignedBody.sign_eq_ok_iff.2 ⟨_, SignedBody.deriveKey_of_length hseed "abcde", rfl⟩

theorem segments_signedRequest (c : Http.Callback) (data : Bytes) :
    Http.Route.segments (signedRequest c data).path =
      [Bytes.ofText "indexes", Bytes.ofText "abcde", Bytes.ofText c.name] := by
  cases c <;> rfl

theorem parameter?_onlyIndex : Http.Route.parameter? (Bytes.ofText "abcde") = some "abcde" := by
  rw [Http.Route.parameter?, Text.percentDecode_of_not_mem (by decide)]
  exact Bytes.toText?_ofText "abcde"

/-- A signed body passes the check of its callback at the epoch. -/
theorem admits_signedBody (c : Http.Callback) (data : Bytes) :
    c.Admits atEpoch withOneIndex "abcde" (signedBody c data) onlyIndex data :=
  ⟨rfl, SignedBody.check_eq_ok_iff.2 ⟨0, by decide, by decide, sign_onlyIndex c data⟩⟩

def oneChain : EncryptedTable := .ofList [(.repeating 0, [7])]

/-- The insertion of this chain. -/
def signedInsertion : Http.Request :=
  signedRequest .insertChains
    (Wire.writePayload Wire.writeValueLine (SortedMap.VisitOrder.ascending.lines oneChain))

theorem storage_ne_of_signedInsertion :
    (withOneIndex.respond atEpoch signedInsertion).1.storage ≠ withOneIndex.storage := by
  let payload := Wire.writePayload Wire.writeValueLine (SortedMap.VisitOrder.ascending.lines oneChain)
  have hread : Wire.readTable payload = .ok oneChain :=
    Wire.readTable_writePayload .ascending (by decide +kernel)
  obtain ⟨storage, hdone⟩ :=
    Storage.insertChains_of_isOpen (s := withOneIndex.storage) rfl onlyIndex.id oneChain
  have hrun : (Http.Callback.insertChains.perform atEpoch "abcde" signedInsertion.body).run
      withOneIndex = (.ok (.ok .null), { withOneIndex.looked "abcde" with storage := storage }) := by
    have hadmits : Http.Callback.insertChains.Admits atEpoch withOneIndex "abcde"
        signedInsertion.body onlyIndex payload := admits_signedBody .insertChains payload
    rw [Http.Callback.perform]
    exact Http.Callback.run_insert_of_admits (IndexCache.coherent_of_empty rfl _) rfl hadmits hread hdone
  have hlimit : signedInsertion.body.length ≤ withOneIndex.bodyLimit := by
    have hlength : signedInsertion.body.length = _ :=
      SignedBody.length_body (sign_onlyIndex .insertChains payload)
    rw [hlength]
    decide +kernel
  have hrespond := respond_of_perform (r := signedInsertion) (c := .insertChains) rfl
    (segments_signedRequest .insertChains payload) parameter?_onlyIndex hlimit hrun
  rw [hrespond]
  -- The table of chains had no line before, and has the inserted one now.
  intro hsame
  change storage = withOneIndex.storage at hsame
  have hget := SortedMap.get?_insertAll_toList
    (withOneIndex.storage.contents.table onlyIndex.id .chains) oneChain (.repeating 0)
  rw [← Storage.table_of_insertChains hdone, hsame] at hget
  exact absurd hget (by decide +kernel)

theorem writes_need_authority_insertion :
    withOneIndex.cache.entries = ∅ ∧ withOneIndex.Reaches withOneIndex ∧
      (withOneIndex.respond atEpoch signedInsertion).1.storage ≠ withOneIndex.storage ∧
      ∃ (c : Http.Callback) (kind : TableKind) (index : Index), c.written? = some kind ∧
        withOneIndex.MayWrite atEpoch signedInsertion c index ∧
        (withOneIndex.respond atEpoch signedInsertion).2.status = 200 ∧
        withOneIndex.storage.ChangesOnly
          (withOneIndex.respond atEpoch signedInsertion).1.storage index.id kind :=
  ⟨rfl, .start, storage_ne_of_signedInsertion,
    (writes_need_authority rfl .start atEpoch _).resolve_left storage_ne_of_signedInsertion⟩

end Service
end IndexVault
