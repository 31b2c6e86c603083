import IndexVault.Proofs.Service.WriteAuthority

/-! Callbacks as their clients see them. For every public id a client keeps two plain maps from
identifiers to values; a run of signed requests on live indexes answers what these maps call for, from
the first request to the last (`callbacks_follow_reference`). -/
namespace IndexVault

open SortedMap (VisitOrder)

/-- What a client asks of the tables of an index. -/
inductive TableCall where
  | fetch (kind : TableKind) (uids : UidSet)
  | upsert (data : UpsertData)
  | insert (chains : EncryptedTable)

namespace TableCall

def callback : TableCall → Http.Callback
  | fetch kind _ => .fetching kind
  | upsert _ => .upsertEntries
  | insert _ => .insertChains

/-- The payload of a call, its lines in the order in which the client visits them. -/
def payload (o : VisitOrder Uid) : TableCall → Bytes
  | fetch _ uids => Wire.writePayload Wire.writeUidLine (o.lines uids)
  | upsert data => Wire.writePayload Wire.writeUpsertLine (o.lines data)
  | insert chains => Wire.writePayload Wire.writeValueLine (o.lines chains)

def lineCount : TableCall → Nat
  | fetch _ uids => uids.toList.length
  | upsert data => data.toList.length
  | insert chains => chains.toList.length

/-- Every line takes at least one byte, so a payload that fits has no more lines than bytes. -/
theorem lineCount_le (call : TableCall) (o : VisitOrder Uid) :
    call.lineCount ≤ (call.payload o).length := by
  -- every line takes at least the 32 bytes of its identifier
  cases call with
  | fetch kind uids =>
    rw [lineCount, ← (o.perm uids).length_eq]
    apply Wire.length_le_writePayload
    intro line
    rw [Wire.length_writeUidLine]
    decide
  | upsert data =>
    rw [lineCount, ← (o.perm data).length_eq]
    apply Wire.length_le_writePayload
    intro line
    rw [Wire.length_writeUpsertLine]
    omega
  | insert chains =>
    rw [lineCount, ← (o.perm chains).length_eq]
    apply Wire.length_le_writePayload
    intro line
    rw [Wire.length_writeValueLine]
    omega

end TableCall

/-- The values that clients expect, by public id, table and identifier. -/
def Reference : Type := String → TableKind → Uid → Option Bytes

namespace Reference

def set (ref : Reference) (publicId : String) (kind : TableKind) (values : Uid → Option Bytes) :
    Reference :=
  fun p k => if p = publicId ∧ k = kind then values else ref p k

/-- What a line of a batch, if there is one, makes of a value: the new value where the old one is
there. -/
def swapped (stored : Option Bytes) : Option UpsertLine → Option Bytes
  | some line => if stored = line.old then some line.new else stored
  | none => stored

/-- What a call on an index makes of the values. The lines of a batch count as they arrive. -/
def after (ref : Reference) (publicId : String) : TableCall → Reference
  | .fetch _ _ => ref
  | .upsert data => ref.set publicId .entries fun uid =>
    swapped (ref publicId .entries uid) ((data.get? uid).map UpsertLine.received)
  | .insert chains => ref.set publicId .chains fun uid =>
    (chains.get? uid).or (ref publicId .chains uid)

/-- A response answers a call: with the values asked for that are there, with the stored values of the
lines that were rejected, or with the `null` of JSON. -/
def Answers (ref : Reference) (publicId : String) (response : Http.Response) : TableCall → Prop
  | .fetch kind uids => ∃ found, Wire.readTable response.body = .ok found ∧
    ∀ uid, found.get? uid = if uids.contains uid then ref publicId kind uid else none
  | .upsert data => ∃ rejected, Wire.readTable response.body = .ok rejected ∧
    ∀ uid value, rejected.get? uid = some value ↔
      ∃ line, data.get? uid = some line ∧ ref publicId .entries uid = some value ∧
        line.received.old ≠ some value
  | .insert _ => response.contentType = some "application/json" ∧
    response.body = Bytes.ofText "null"

end Reference

/-- A call as a client sends it: for an index, with the lines in some order, signed until a second of
expiration, in a request that arrives in some surroundings. -/
structure SignedCall where
  publicId : String
  call : TableCall
  order : VisitOrder Uid
  expiration : UInt64
  surroundings : Surroundings
  request : Http.Request

/-- The call is for a live index, and signed with the seed that this index has for it; the request is
sent to its path, in time and within the limit. -/
structure SignedCall.ValidFor (c : SignedCall) (s : Service) : Prop where
  signed : ∃ index, s.registry.findLive c.publicId = some index ∧
    SignedBody.sign (c.call.callback.seed index) c.publicId c.expiration.toNat
      (c.call.payload c.order) = .ok c.request.body
  method : c.request.method = "POST"
  path : ∃ id, Http.Route.segments c.request.path =
      [Bytes.ofText "indexes", id, Bytes.ofText c.call.callback.name] ∧
    Http.Route.parameter? id = some c.publicId
  unexpired : c.surroundings.seconds ≤ c.expiration.toNat
  limit : c.request.body.length ≤ s.bodyLimit

namespace Service

/-- The databases answer, the rows of indexes are numbered as they were made, and the limit on bodies is
a number of 64 bits. -/
structure InOrder (s : Service) : Prop where
  ready : s.registry.ready = .ok ()
  numbered : s.registry.Numbered
  sound : s.storage.Sound
  limitFits : s.bodyLimit < UInt64.size

/-- A service that answers requests in order goes on doing so, whatever it is asked. -/
theorem InOrder.of_respond {s : Service} (h : s.InOrder) (hs : s.Coherent) (w : Surroundings)
    (r : Http.Request) : (s.respond w r).1.InOrder := by
  have hcontinues := Continues.of_respond hs w r
  refine ⟨hcontinues.ready.trans h.ready, hcontinues.numbered h.numbered,
    hcontinues.sound h.sound, ?_⟩
  rw [hcontinues.bodyLimit]
  exact h.limitFits

/-- The values that the service holds for its live indexes. -/
def reference (s : Service) : Reference := fun publicId kind uid =>
  (s.registry.findLive publicId).bind fun index =>
    (s.storage.contents.table index.id kind).get? uid

/-- For a live index the reference is what the storage holds. -/
theorem reference_of_live {s : Service} {publicId : String} {index : Index}
    (h : s.registry.findLive publicId = some index) (kind : TableKind) :
    s.reference publicId kind = (s.storage.contents.table index.id kind).get? := by
  funext uid
  rw [reference, h]
  rfl

/-- A change of one table of a live index is one of the reference under its public id. -/
theorem reference_eq_set {s s' : Service} {publicId : String} {index : Index} {kind : TableKind}
    {values : Uid → Option Bytes} (hs : s.registry.Numbered)
    (hlive : s.registry.findLive publicId = some index) (hregistry : s'.registry = s.registry)
    (honly : s.storage.ChangesOnly s'.storage index.id kind)
    (htable : (s'.storage.contents.table index.id kind).get? = values) :
    s'.reference = s.reference.set publicId kind values := by
  have hlive' : s'.registry.findLive publicId = some index := by
    rw [hregistry]
    exact hlive
  funext p k
  rw [Reference.set]
  split
  · rename_i h
    rw [h.1, h.2, reference_of_live hlive', htable]
  · rename_i h
    funext uid
    rw [reference, reference, hregistry]
    cases hp : s.registry.findLive p with
    | none => rfl
    | some other =>
      -- Another public id has another internal number, so its tables are not the one replaced.
      have hne : ¬(other.id = index.id ∧ k = kind) := by
        rintro ⟨hid, hk⟩
        exact h ⟨hs.eq_of_id_eq hp hlive hid, hk⟩
      exact congrArg (SortedMap.get? · uid) (honly.table other.id k hne)

end Service

namespace SignedCall.ValidFor

variable {c : SignedCall} {s : Service}

/-- A valid call has a body that its callback admits. -/
theorem admits (hc : c.ValidFor s) :
    ∃ index, c.call.callback.Admits c.surroundings s c.publicId c.request.body index
      (c.call.payload c.order) := by
  obtain ⟨index, hlive, hsign⟩ := hc.signed
  refine ⟨index, hlive, ?_⟩
  rw [Registry.publicId_of_findLive hlive]
  exact SignedBody.check_eq_ok_iff.2
    ⟨c.expiration.toNat, c.expiration.toNat_lt, hc.unexpired, hsign⟩

/-- The payload of a valid call is within the limit, so its length is of 64 bits. -/
theorem payload_fits (hc : c.ValidFor s) (ho : s.InOrder) :
    (c.call.payload c.order).length < UInt64.size := by
  obtain ⟨index, -, hsign⟩ := hc.signed
  have hbody := SignedBody.length_body hsign
  have hlimit := hc.limit
  have hfits := ho.limitFits
  omega

/-- A valid call reaches its callback, whose answer is sent. -/
theorem respond_eq (hc : c.ValidFor s) {response : Http.Response} {s' : Service}
    (hrun : (c.call.callback.perform c.surroundings c.publicId c.request.body).run s =
      (.ok response, s')) :
    s.respond c.surroundings c.request = (s', { response with allowOrigin := some "*" }) := by
  obtain ⟨id, hpath, hid⟩ := hc.path
  exact Service.respond_of_perform hc.method hpath hid hc.limit hrun

/-- A call stays valid while the rows and the limit stay. -/
theorem of_registry_eq {s' : Service} (hc : c.ValidFor s) (hregistry : s'.registry = s.registry)
    (hlimit : s'.bodyLimit = s.bodyLimit) : c.ValidFor s' where
  signed := hregistry ▸ hc.signed
  method := hc.method
  path := hc.path
  unexpired := hc.unexpired
  limit := hlimit ▸ hc.limit

end SignedCall.ValidFor

namespace Http.Callback

theorem perform_fetching {w : Surroundings} {publicId : String} {body : Bytes} (kind : TableKind) :
    (fetching kind).perform w publicId body = fetch w kind publicId body := by
  cases kind <;> rfl

end Http.Callback

namespace Service

variable {s : Service} {w : Surroundings} {publicId : String} {body data : Bytes} {index : Index}

/-- A fetch answers with the values of the reference at the identifiers asked for. -/
theorem fetch_follows (hs : s.Coherent) (ho : s.InOrder) {kind : TableKind} {uids : UidSet}
    (h : (Http.Callback.fetching kind).Admits w s publicId body index data)
    (hread : Wire.readUidSet data = .ok uids) (hcount : uids.toList.length < UInt64.size) :
    ∃ found s', (Http.Callback.fetch w kind publicId body).run s =
        (.ok (.octets (Wire.writeTable found w.order)), s') ∧
      Wire.readTable (Wire.writeTable found w.order) = .ok found ∧
      (∀ uid, found.get? uid = if uids.contains uid then s.reference publicId kind uid else none) ∧
      s'.reference = s.reference ∧ s'.registry = s.registry := by
  let found := (s.storage.contents.table index.id kind).restrict uids
  have hfound : s.storage.fetch index.id kind uids = .ok found :=
    Storage.fetchInOrder_eq ho.sound.isOpen index.id kind (List.Perm.refl uids.keys)
  obtain ⟨log, hlog⟩ := Http.Callback.recorded_eq w kind uids found (s.looked publicId)
  have hrun : (Http.Callback.fetch w kind publicId body).run s =
      (.ok (.octets (Wire.writeTable found w.order)), { s.looked publicId with log := log }) := by
    rw [Http.Callback.run_fetch_of_admits hs ho.ready h hread hfound, hlog]
  refine ⟨found, _, hrun, ?_, ?_, rfl, rfl⟩
  · apply Wire.readTable_writePayload_of_fits w.order
    -- no more lines are found than identifiers were sent, so their count fits
    · have hle : found.toList.length ≤ uids.toList.length := by
        simp only [found, SortedMap.toList_restrict]
        exact Nat.le_trans (List.length_filterMap_le _ _) (Nat.le_of_eq (List.length_map _))
      omega
    · intro uid value hvalue
      rw [SortedMap.get?_restrict] at hvalue
      split at hvalue
      · exact ho.sound.fits index.id kind uid value hvalue
      · cases hvalue
  · intro uid
    rw [SortedMap.get?_restrict, reference_of_live h.live]

/-- What an upsert does and answers, once its body is admitted and read. -/
theorem run_upsert_of_admits (hs : s.Coherent) (ho : s.InOrder) {batch : UpsertData}
    (h : Http.Callback.upsertEntries.Admits w s publicId body index data)
    (hread : Wire.readUpsertData data = .ok batch) :
    (Http.Callback.upsert w publicId body).run s =
      (.ok (.octets (Wire.writeTable
          ((s.storage.contents.table index.id .entries).rejections batch) w.order)),
        { s.looked publicId with storage := s.storage.upserted index.id batch }) := by
  have hdone : s.storage.upsertEntries index.id batch = .ok (s.storage.upserted index.id batch,
      (s.storage.contents.table index.id .entries).rejections batch) :=
    Storage.upsertInOrder_eq_upserted ho.sound.isOpen index.id (List.Perm.refl batch.toList)
  rw [Http.Callback.run_upsert, Http.Callback.openedBy_of_admits hs ho.ready h hread]
  simp only [hdone]

/-- The rejected lines of a batch read back from the answer. -/
theorem readTable_rejections (ho : s.InOrder) (i : IndexId) {batch : UpsertData}
    (hcount : batch.toList.length < UInt64.size) (o : VisitOrder Uid) :
    Wire.readTable (Wire.writeTable ((s.storage.contents.table i .entries).rejections batch) o) =
      .ok ((s.storage.contents.table i .entries).rejections batch) := by
  apply Wire.readTable_writePayload_of_fits o
  -- There are no more rejected lines than lines in the batch, and each value was stored.
  · have hlines : ((s.storage.contents.table i .entries).rejectedLines
        batch.toList).length ≤ batch.toList.length := List.length_filterMap_le _ _
    exact Nat.lt_of_le_of_lt (Nat.le_trans (SortedMap.length_ofList_le _) hlines) hcount
  · intro uid value hvalue
    obtain ⟨line, -, hstored, -⟩ := EncryptedTable.get?_rejections_eq_some_iff.1 hvalue
    exact ho.sound.fits i .entries uid value hstored

/-- An upsert answers with the values that were in its way, and swaps the others. -/
theorem upsert_follows (hs : s.Coherent) (ho : s.InOrder) {batch : UpsertData}
    (h : Http.Callback.upsertEntries.Admits w s publicId body index data)
    (hread : Wire.readUpsertData data = .ok batch) (hcount : batch.toList.length < UInt64.size) :
    ∃ rejected s', (Http.Callback.upsert w publicId body).run s =
        (.ok (.octets (Wire.writeTable rejected w.order)), s') ∧
      Wire.readTable (Wire.writeTable rejected w.order) = .ok rejected ∧
      (∀ uid value, rejected.get? uid = some value ↔
        ∃ line, batch.get? uid = some line ∧ s.reference publicId .entries uid = some value ∧
          line.old ≠ some value) ∧
      (s'.reference = s.reference.set publicId .entries fun uid =>
        Reference.swapped (s.reference publicId .entries uid) (batch.get? uid)) ∧
      s'.registry = s.registry := by
  let s' : Service := { s.looked publicId with storage := s.storage.upserted index.id batch }
  have hregistry : s'.registry = s.registry := rfl
  have hlive := reference_of_live h.live .entries
  have hdone : s.storage.upsertEntries index.id batch = .ok (s'.storage,
      (s.storage.contents.table index.id .entries).rejections batch) :=
    Storage.upsertInOrder_eq_upserted ho.sound.isOpen index.id (List.Perm.refl batch.toList)
  refine ⟨_, s', run_upsert_of_admits hs ho h hread, readTable_rejections ho index.id hcount w.order, ?_, ?_,
    hregistry⟩
  · intro uid value
    rw [hlive]
    exact EncryptedTable.get?_rejections_eq_some_iff
  · have honly : s.storage.ChangesOnly s'.storage index.id .entries :=
      Storage.changesOnly_of_upsertEntries hdone
    -- the numbers of rows are distinct, so no other public id sees the change
    apply reference_eq_set ho.numbered h.live hregistry honly
    funext uid
    rw [hlive]
    have htable := Storage.table_of_upsertEntries hdone
    exact (congrArg (SortedMap.get? · uid) htable).trans (EncryptedTable.get?_swapped _ batch uid)

/-- An insertion writes its chains over the reference. -/
theorem insert_follows (hs : s.Coherent) (ho : s.InOrder) {chains : EncryptedTable}
    (h : Http.Callback.insertChains.Admits w s publicId body index data)
    (hread : Wire.readTable data = .ok chains) :
    ∃ s', (Http.Callback.insert w publicId body).run s = (.ok (.ok .null), s') ∧
      s'.reference = s.reference.after publicId (.insert chains) ∧ s'.registry = s.registry := by
  obtain ⟨storage, hdone⟩ := Storage.insertChains_of_isOpen ho.sound.isOpen index.id chains
  let s' : Service := { s.looked publicId with storage := storage }
  have hregistry : s'.registry = s.registry := rfl
  have hrun : (Http.Callback.insert w publicId body).run s = (.ok (.ok .null), s') :=
    Http.Callback.run_insert_of_admits hs ho.ready h hread hdone
  refine ⟨s', hrun, ?_, hregistry⟩
  have honly : s.storage.ChangesOnly s'.storage index.id .chains :=
    Storage.changesOnly_of_insertChains hdone
  apply reference_eq_set ho.numbered h.live hregistry honly
  funext uid
  have hget := SortedMap.get?_insertAll_toList (s.storage.contents.table index.id .chains) chains uid
  rw [← Storage.table_of_insertChains hdone] at hget
  rw [reference_of_live h.live]
  exact hget

/-- A valid call is answered as the reference calls for, and does to the tables what it does to the
reference. -/
theorem respond_follows {c : SignedCall} (hs : s.Coherent) (ho : s.InOrder) (hc : c.ValidFor s) :
    (s.respond c.surroundings c.request).2.status = 200 ∧
      s.reference.Answers c.publicId (s.respond c.surroundings c.request).2 c.call ∧
      (s.respond c.surroundings c.request).1.reference = s.reference.after c.publicId c.call ∧
      (s.respond c.surroundings c.request).1.registry = s.registry := by
  obtain ⟨index, hadmits⟩ := hc.admits
  have hfits := hc.payload_fits ho
  have hlines := c.call.lineCount_le c.order
  -- The payload reads back as what was written, and from there the callback does the rest.
  obtain ⟨publicId, call, order, expiration, w, r⟩ := c
  cases call with
  | fetch kind uids =>
    have hread := Wire.readUidSet_writePayload order hfits
    obtain ⟨found, s', hrun, htable, hanswers, hreference, hregistry⟩ :=
      fetch_follows hs ho hadmits hread (Nat.lt_of_le_of_lt hlines hfits)
    rw [hc.respond_eq ((congrArg (Attempt.run · s) (Http.Callback.perform_fetching kind)).trans hrun)]
    exact ⟨rfl, ⟨found, htable, hanswers⟩, hreference, hregistry⟩
  | upsert data =>
    have hread := Wire.readUpsertData_writePayload order hfits
    have hcount : data.received.toList.length ≤ data.toList.length :=
      Nat.le_trans (SortedMap.length_ofList_le _) (Nat.le_of_eq (List.length_map _))
    obtain ⟨rejected, s', hrun, htable, hanswers, hreference, hregistry⟩ :=
      upsert_follows hs ho hadmits hread (Nat.lt_of_le_of_lt (Nat.le_trans hcount hlines) hfits)
    rw [hc.respond_eq hrun]
    simp only [UpsertData.get?_received, Option.map_eq_some_iff] at hanswers hreference
    refine ⟨rfl, ⟨rejected, htable, fun uid value => (hanswers uid value).trans ?_⟩, hreference,
      hregistry⟩
    constructor
    · rintro ⟨_, ⟨line, hline, rfl⟩, hstored, hold⟩
      exact ⟨line, hline, hstored, hold⟩
    · rintro ⟨line, hline, hstored, hold⟩
      exact ⟨line.received, ⟨line, hline, rfl⟩, hstored, hold⟩
  | insert chains =>
    have hread := Wire.readTable_writePayload order hfits
    obtain ⟨s', hrun, hreference, hregistry⟩ := insert_follows hs ho hadmits hread
    rw [hc.respond_eq hrun]
    exact ⟨rfl, ⟨rfl, rfl⟩, hreference, hregistry⟩

def respondAll (s : Service) : List (Surroundings × Http.Request) → Service × List Http.Response
  | [] => (s, [])
  | (w, r) :: later =>
    let (s', response) := s.respond w r
    let (last, responses) := s'.respondAll later
    (last, response :: responses)

end Service

/-- A run of calls that is answered as a reference calls for, from the values at its start to those at
its end. -/
inductive Reference.Follows : Reference → List SignedCall → List Http.Response → Reference → Prop
  | done (ref : Reference) : Follows ref [] [] ref
  | call {ref last : Reference} {c : SignedCall} {later : List SignedCall}
      {response : Http.Response} {responses : List Http.Response} (status : response.status = 200)
      (answers : ref.Answers c.publicId response c.call)
      (rest : Follows (ref.after c.publicId c.call) later responses last) :
      Follows ref (c :: later) (response :: responses) last

def SignedCall.sent (c : SignedCall) : Surroundings × Http.Request := (c.surroundings, c.request)

/-- A service that started in order is in order in every state that it comes to. -/
theorem Service.Reaches.inOrder {start s : Service} (h : start.Reaches s)
    (hstart : start.cache.entries = ∅) (ho : start.InOrder) : s.InOrder := by
  induction h with
  | start => exact ho
  | respond hs w r ih => exact ih.of_respond (hs.coherent hstart) w r

/-- Whatever a service that started in order was asked before, every run of valid calls is answered
with status 200 throughout, as two plain maps for every index call for, and ends with the tables that
these maps end with. -/
theorem Service.callbacks_follow_reference {start s : Service} (hstart : start.cache.entries = ∅)
    (ho : start.InOrder) (hs : start.Reaches s) {calls : List SignedCall}
    (hc : ∀ c ∈ calls, c.ValidFor s) :
    s.reference.Follows calls (s.respondAll (calls.map SignedCall.sent)).2
      (s.respondAll (calls.map SignedCall.sent)).1.reference := by
  induction calls generalizing s with
  | nil => exact .done s.reference
  | cons c later ih =>
    have hcoherent := hs.coherent hstart
    obtain ⟨hstatus, hanswers, hreference, hregistry⟩ :=
      respond_follows hcoherent (hs.inOrder hstart ho) (hc c List.mem_cons_self)
    have hcontinues := Continues.of_respond hcoherent c.surroundings c.request
    -- The later calls are as valid for the next state, which has the same indexes and limit.
    have hlater : ∀ c' ∈ later, c'.ValidFor (s.respond c.surroundings c.request).1 := by
      intro c' hmem
      exact (hc c' (List.mem_cons_of_mem c hmem)).of_registry_eq hregistry hcontinues.bodyLimit
    have hrest := ih (hs.respond c.surroundings c.request) hlater
    rw [hreference] at hrest
    exact .call hstatus hanswers hrest

namespace Service

theorem inOrder_withOneIndex : withOneIndex.InOrder where
  ready := rfl
  numbered := by
    intro n i hi
    cases n with
    | zero =>
      cases hi
      rfl
    | succ n => cases hi
  sound := Storage.sound_empty .keyValue
  limitFits := by decide

end Service

/-- The body of a call on the only index, signed until the first second of 1970 is over. -/
def TableCall.signedBody (call : TableCall) : Bytes :=
  Service.signedBody call.callback (call.payload VisitOrder.ascending)

def TableCall.signed (call : TableCall) : SignedCall where
  publicId := "abcde"
  call := call
  order := VisitOrder.ascending
  expiration := 0
  surroundings := Service.atEpoch
  request := Service.signedRequest call.callback (call.payload VisitOrder.ascending)

/-- A call on the only index is valid if its payload is short. -/
theorem TableCall.validFor_withOneIndex {call : TableCall}
    (h : (call.payload VisitOrder.ascending).length ≤ 1000) :
    call.signed.ValidFor Service.withOneIndex := by
  let payload := call.payload VisitOrder.ascending
  have hsign := Service.sign_onlyIndex call.callback payload
  have hlength := SignedBody.length_body hsign
  refine ⟨⟨Service.onlyIndex, rfl, hsign⟩, rfl, ⟨Bytes.ofText "abcde", ?_,
    Service.parameter?_onlyIndex⟩, ?_, ?_⟩
  · exact Service.segments_signedRequest call.callback payload
  · change Service.atEpoch.seconds ≤ (0 : UInt64).toNat
    decide
  · exact Nat.le_trans (Nat.le_of_eq hlength) (Nat.le_trans (Nat.add_le_add_left h _) (by decide))

def zeroUid : Uid := .repeating 0

namespace Service

theorem callbacks_follow_reference_withOneIndex :
    withOneIndex.cache.entries = ∅ ∧ withOneIndex.InOrder ∧ withOneIndex.Reaches withOneIndex ∧
      withOneIndex.reference.Follows
        [(TableCall.upsert (.ofList [(zeroUid, ⟨none, [7]⟩)])).signed,
          (TableCall.fetch .entries (.ofUids [zeroUid])).signed]
        (withOneIndex.respondAll
          ([(TableCall.upsert (.ofList [(zeroUid, ⟨none, [7]⟩)])).signed,
            (TableCall.fetch .entries (.ofUids [zeroUid])).signed].map SignedCall.sent)).2
        (withOneIndex.respondAll
          ([(TableCall.upsert (.ofList [(zeroUid, ⟨none, [7]⟩)])).signed,
            (TableCall.fetch .entries (.ofUids [zeroUid])).signed].map
              SignedCall.sent)).1.reference := by
  refine ⟨rfl, inOrder_withOneIndex, .start,
    callbacks_follow_reference rfl inOrder_withOneIndex .start ?_⟩
  intro c hc
  rcases List.mem_cons.1 hc with rfl | hc
  · exact TableCall.validFor_withOneIndex (by decide +kernel)
  · cases List.mem_singleton.1 hc
    exact TableCall.validFor_withOneIndex (by decide +kernel)

end Service
end IndexVault
