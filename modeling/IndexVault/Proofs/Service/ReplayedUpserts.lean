import IndexVault.Proofs.Service.ReferenceTables
import IndexVault.Proofs.Storage.RepeatedUpserts

namespace IndexVault

namespace SignedCall.ValidFor

variable {c : SignedCall} {s : Service} {data : UpsertData}

/-- A call stays valid until it expires. -/
theorem replayed (hc : c.ValidFor s) {w : Surroundings} (hw : w.seconds ≤ c.expiration.toNat) :
    SignedCall.ValidFor { c with surroundings := w } s :=
  ⟨hc.signed, hc.method, hc.path, hw, hc.limit⟩

/-- The payload of a valid upsert reads as its batch. -/
theorem readUpsertData_payload (hc : c.ValidFor s) (ho : s.InOrder) (hcall : c.call = .upsert data) :
    Wire.readUpsertData (c.call.payload c.order) = .ok data.received ∧
      data.received.toList.length < UInt64.size := by
  have hfits := hc.payload_fits ho
  have hlines := c.call.lineCount_le c.order
  rw [hcall] at hfits hlines ⊢
  have hcount : data.received.toList.length ≤ data.toList.length :=
    Nat.le_trans (SortedMap.length_ofList_le _) (Nat.le_of_eq (List.length_map _))
  exact ⟨Wire.readUpsertData_writePayload c.order hfits,
    Nat.lt_of_le_of_lt (Nat.le_trans hcount hlines) hfits⟩

end SignedCall.ValidFor

namespace Service

variable {s : Service} {c : SignedCall} {data : UpsertData} {index : Index}

/-- The response to an upsert that has met the entries `t`. -/
def upsertResponse (w : Surroundings) (t : EncryptedTable) (data : UpsertData) : Http.Response :=
  { Http.Response.octets (Wire.writeTable (t.rejections data) w.order) with
    allowOrigin := some "*" }

/-- The answer to a valid upsert, and what it leaves stored. -/
theorem respond_upsert (hs : s.Coherent) (ho : s.InOrder) (hc : c.ValidFor s)
    (hcall : c.call = .upsert data) (hlive : s.registry.findLive c.publicId = some index) :
    s.respond c.surroundings c.request =
      ({ s.looked c.publicId with storage := s.storage.upserted index.id data.received },
        upsertResponse c.surroundings (s.storage.contents.table index.id .entries)
          data.received) := by
  obtain ⟨index', hadmits⟩ := hc.admits
  have hsame : index' = index := Option.some.inj (hadmits.live.symm.trans hlive)
  rw [hsame] at hadmits
  have hread := (hc.readUpsertData_payload ho hcall).1
  apply hc.respond_eq
  rw [hcall] at hadmits hread ⊢
  exact run_upsert_of_admits hs ho hadmits hread

/-- Once an upsert has nothing more to write, sending it changes no row and no line, and always answers
the same lines. -/
theorem respondAll_settled (hs : s.Coherent) (ho : s.InOrder) (hcall : c.call = .upsert data)
    (hlive : s.registry.findLive c.publicId = some index)
    (hsettled : s.storage.upserted index.id data.received = s.storage) {later : List Surroundings}
    (hlater : ∀ w ∈ later, SignedCall.ValidFor { c with surroundings := w } s) :
    (s.respondAll (later.map fun w => (w, c.request))).1.storage = s.storage ∧
      (s.respondAll (later.map fun w => (w, c.request))).1.registry = s.registry ∧
      (s.respondAll (later.map fun w => (w, c.request))).2 = later.map fun w =>
        upsertResponse w (s.storage.contents.table index.id .entries) data.received := by
  -- By induction on the later ones: each leaves a service with the same rows, lines and limit.
  induction later generalizing s with
  | nil => exact ⟨rfl, rfl, rfl⟩
  | cons w later ih =>
    have hresponse := respond_upsert hs ho (hlater w List.mem_cons_self) hcall hlive
    have hcontinues := Continues.of_respond hs w c.request
    have hcoherent := hcontinues.coherent hs
    have hinOrder := ho.of_respond hs w c.request
    dsimp only at hresponse
    rw [hsettled] at hresponse
    rw [hresponse] at hcoherent hinOrder
    have hvalid : ∀ w' ∈ later, SignedCall.ValidFor { c with surroundings := w' }
        { s.looked c.publicId with storage := s.storage } := fun w' hw' =>
      (hlater w' (List.mem_cons_of_mem w hw')).of_registry_eq rfl rfl
    obtain ⟨hstorage, hregistry, hresponses⟩ := ih hcoherent hinOrder hlive hsettled hvalid
    rw [List.map_cons, respondAll, hresponse]
    exact ⟨hstorage, hregistry, congrArg _ hresponses⟩

/-- A valid upsert, sent once and then any number of times until it expires: every sending is answered with
status 200 and leaves the rows, lines and sizes as the first one left them. Each line has an outcome by
what was stored before, and each later answer tells of it what this outcome leads to when it is sent
again. -/
theorem replayed_upsert_harmless {start : Service} (hstart : start.cache.entries = ∅)
    (ho : start.InOrder) (hs : start.Reaches s) (hc : c.ValidFor s) (hcall : c.call = .upsert data)
    {later : List Surroundings} (hlater : ∀ w ∈ later, w.seconds ≤ c.expiration.toNat) :
    ∃ s' first responses told retold,
      s.respond c.surroundings c.request = (s', first) ∧
      (s'.respondAll (later.map fun w => (w, c.request))).2 = responses ∧
      (s'.respondAll (later.map fun w => (w, c.request))).1.storage = s'.storage ∧
      (s'.respondAll (later.map fun w => (w, c.request))).1.registry = s.registry ∧
      first.status = 200 ∧ Wire.readTable first.body = .ok told ∧ responses.length = later.length ∧
      (∀ response ∈ responses, response.status = 200 ∧ Wire.readTable response.body = .ok retold) ∧
      ∀ uid line, data.received.get? uid = some line → ∃ outcome,
        line.Becomes (s.reference c.publicId .entries uid) (s'.reference c.publicId .entries uid)
          (told.get? uid) outcome ∧
        line.Becomes (s'.reference c.publicId .entries uid) (s'.reference c.publicId .entries uid)
          (retold.get? uid) (line.again outcome) := by
  have hcoherent := hs.coherent hstart
  have hinOrder := hs.inOrder hstart ho
  obtain ⟨index, hlive, -⟩ := hc.signed
  have hresponse := respond_upsert hcoherent hinOrder hc hcall hlive
  have hcount := (hc.readUpsertData_payload hinOrder hcall).2
  have hcoherent' := (Continues.of_respond hcoherent c.surroundings c.request).coherent hcoherent
  have hinOrder' := hinOrder.of_respond hcoherent c.surroundings c.request
  rw [hresponse] at hcoherent' hinOrder'
  -- The service after the first sending, and the entries before it.
  generalize hs' : ({ s.looked c.publicId with
    storage := s.storage.upserted index.id data.received } : Service) = s' at *
  let t := s.storage.contents.table index.id .entries
  have hstorage : s'.storage = s.storage.upserted index.id data.received := by rw [← hs']
  have hregistry : s'.registry = s.registry := by
    rw [← hs']
    rfl
  have hlimit : s'.bodyLimit = s.bodyLimit := by
    rw [← hs']
    rfl
  have htable : s'.storage.contents.table index.id .entries = t.swapped data.received := by
    rw [hstorage]
    exact s.storage.table_upserted index.id data.received
  have hlive' : s'.registry.findLive c.publicId = some index := by rwa [hregistry]
  have hsettled : s'.storage.upserted index.id data.received = s'.storage := by
    rw [hstorage]
    exact s.storage.upserted_upserted_self index.id data.received
  obtain ⟨hkept, hrows, hresponses⟩ := respondAll_settled hcoherent' hinOrder' hcall hlive' hsettled
    fun w hw => (hc.replayed (hlater w hw)).of_registry_eq hregistry hlimit
  refine ⟨s', _, _, t.rejections data.received,
    EncryptedTable.rejections (t.swapped data.received) data.received, hresponse, hresponses, hkept,
    hrows.trans hregistry, rfl, readTable_rejections hinOrder index.id hcount _, List.length_map _,
    fun response hmem => ?again, fun uid line hline => ?lines⟩
  case again =>
    obtain ⟨w, -, rfl⟩ := List.mem_map.1 hmem
    rw [← htable]
    exact ⟨rfl, readTable_rejections hinOrder' index.id hcount w.order⟩
  case lines =>
    have hfirst := EncryptedTable.becomes_outcome (t := t) hline
    rw [reference_of_live hlive, reference_of_live hlive', htable]
    exact ⟨_, hfirst, t.becomes_again _ hline hfirst⟩

end Service
end IndexVault
