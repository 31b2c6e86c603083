import IndexVault.Proofs.Service.ReferenceTables
import IndexVault.Proofs.Wire.NormalForm

namespace IndexVault

open SortedMap (VisitOrder)

namespace SortedMap

/-- A map of one line. -/
def single (uid : Uid) {β : Type} (value : β) : SortedMap Uid β := ofList [(uid, value)]

theorem size_single_lt (uid : Uid) {β : Type} (value : β) :
    (single uid value).size < UInt64.size := by
  have hone : (single uid value).size = 1 := rfl
  rw [hone]
  decide

theorem get?_single (uid : Uid) {β : Type} (value : β) (uid' : Uid) :
    (single uid value).get? uid' = if uid' = uid then some value else none := by
  have hkeys : DistinctKeys [(uid, value)] := List.pairwise_singleton _ uid
  rw [single, get?_ofList hkeys]
  split
  · rename_i h
    rw [h, lineValue?_cons_self]
  · rename_i h
    rw [lineValue?_cons_of_ne h]
    rfl

end SortedMap

/-- A batch of one line whose old value is not empty reads back as it was written. -/
theorem Wire.readUpsertData_single (uid : Uid) {v n : Bytes} (hne : v ≠ [])
    (hv : v.length < UInt64.size) (hn : n.length < UInt64.size) :
    readUpsertData (writeUpsertData (.single uid ⟨some v, n⟩)) = .ok (.single uid ⟨some v, n⟩) := by
  have hline : ∀ uid' (line : UpsertLine),
      (SortedMap.single uid (⟨some v, n⟩ : UpsertLine)).get? uid' = some line →
        line = ⟨some v, n⟩ := by
    intro uid' line h
    rw [SortedMap.get?_single] at h
    split at h
    · exact (Option.some.inj h).symm
    · cases h
  have hread := upsertFormat.readPayload_writePayload VisitOrder.ascending
    (SortedMap.size_single_lt uid ⟨some v, n⟩) fun uid' line h => by
      rw [hline uid' line h]
      exact ⟨hv, hn⟩
  -- The line arrives as it is, because its old value is not empty.
  have hsame := upsertFormat.mapValues_of_fixed (m := .single uid ⟨some v, n⟩) fun uid' line h => by
    rw [hline uid' line h]
    change UpsertLine.received _ = _
    rw [received_eq, if_neg fun hsome => hne (Option.some.inj hsome)]
  rw [hsame] at hread
  exact hread

namespace Service

variable {s s' : Service} {w : Surroundings} {publicId : String} {body : Bytes} {index : Index}

/-- What an answer tells of an entry is what is stored after it. -/
theorem told_is_stored (hs : s.Coherent) (ho : s.InOrder) {c : SignedCall} (hc : c.ValidFor s)
    (hcall : (∃ uids, c.call = .fetch .entries uids) ∨ ∃ data, c.call = .upsert data) :
    ∃ told, Wire.readTable (s.respond c.surroundings c.request).2.body = .ok told ∧
      ∀ uid v, told.get? uid = some v →
        (s.respond c.surroundings c.request).1.reference c.publicId .entries uid = some v := by
  obtain ⟨-, hanswers, hreference, -⟩ := respond_follows hs ho hc
  rw [hreference]
  rcases hcall with ⟨uids, hfetch⟩ | ⟨data, hupsert⟩
  · rw [hfetch] at hanswers ⊢
    obtain ⟨found, hread, hfound⟩ := hanswers
    refine ⟨found, hread, ?_⟩
    intro uid v hv
    rw [hfound] at hv
    split at hv
    · exact hv
    · cases hv
  · rw [hupsert] at hanswers ⊢
    obtain ⟨rejected, hread, hrejected⟩ := hanswers
    refine ⟨rejected, hread, ?_⟩
    intro uid v hv
    obtain ⟨line, hline, hstored, hold⟩ := (hrejected uid v).1 hv
    -- A rejected line writes nothing.
    have hswapped : Reference.swapped (s.reference c.publicId .entries uid)
        ((data.get? uid).map UpsertLine.received) = some v := by
      rw [hline, hstored]
      exact if_neg fun h => hold h.symm
    rw [Reference.after, Reference.set, if_pos ⟨rfl, rfl⟩]
    exact hswapped

/-- An upsert that names the stored value as the old one is accepted, unless that value is empty. -/
theorem upsert_of_stored (hs : s.Coherent) (ho : s.InOrder) {uid : Uid} {v n : Bytes}
    (h : Http.Callback.upsertEntries.Admits w s publicId body index
      (Wire.writeUpsertData (.single uid ⟨some v, n⟩)))
    (hstored : s.reference publicId .entries uid = some v) (hne : v ≠ [])
    (hn : n.length < UInt64.size) :
    ∃ response s', (Http.Callback.upsert w publicId body).run s = (.ok response, s') ∧
      response.status = 200 ∧ Wire.readTable response.body = .ok ∅ ∧
      s'.reference = s.reference.set publicId .entries fun uid' =>
        if uid' = uid then some n else s.reference publicId .entries uid' := by
  have hv : v.length < UInt64.size := by
    rw [reference_of_live h.live] at hstored
    exact ho.sound.fits index.id .entries uid v hstored
  have hread := Wire.readUpsertData_single uid hne hv hn
  obtain ⟨rejected, s', hrun, htable, hrejected, hreference, -⟩ :=
    upsert_follows hs ho h hread (SortedMap.size_single_lt uid ⟨some v, n⟩)
  -- the one line of the batch names the stored value, so it is not among the rejected ones
  have hempty : rejected = ∅ := by
    apply SortedMap.ext_get?
    intro uid'
    apply Option.eq_none_iff_forall_ne_some.2
    intro value hvalue
    obtain ⟨line, hline, hstored', hold⟩ := (hrejected uid' value).1 hvalue
    rw [SortedMap.get?_single] at hline
    split at hline
    · rename_i huid
      cases hline
      rw [huid] at hstored'
      exact hold (hstored.symm.trans hstored')
    · cases hline
  rw [hempty] at hrun htable
  refine ⟨_, s', hrun, rfl, htable, hreference.trans ?_⟩
  congr 1
  funext uid'
  rw [SortedMap.get?_single]
  split
  · rename_i huid
    rw [huid, hstored]
    exact if_pos rfl
  · rfl

/-- The entries of an index change only by a batch that was read from a body. -/
theorem respond_entries_cases (hs : s.Coherent) (w : Surroundings) (r : Http.Request) :
    (∀ i, (s.respond w r).1.storage.contents.table i .entries =
        s.storage.contents.table i .entries) ∨
      ∃ (i : IndexId) (data : Bytes) (batch : UpsertData) (rejected : EncryptedTable),
        Wire.readUpsertData data = .ok batch ∧
          s.storage.upsertEntries i batch = .ok ((s.respond w r).1.storage, rejected) := by
  -- what leaves the storage leaves its entries
  have hleft {t : Service} (h : LeavesStorage s t) : ∀ i, t.storage.contents.table i .entries =
      s.storage.contents.table i .entries := by
    intro i
    rw [h.storage]
  rcases s.respond_cases w r with hleaves | ⟨c, id, hmethod, hpath⟩
  · exact Or.inl (hleft hleaves)
  · rw [respond_callback hmethod hpath, carryOut_fst]
    rcases c.run_answer_cases w r id s with hunread | ⟨publicId, -, -, hrun⟩
    · rw [hunread]
      exact Or.inl fun _ => rfl
    · rw [hrun]
      cases c with
      | fetchEntries => exact Or.inl (hleft (Http.Callback.quiet_fetch w .entries publicId r.body s))
      | fetchChains => exact Or.inl (hleft (Http.Callback.quiet_fetch w .chains publicId r.body s))
      | upsertEntries =>
        rcases Http.Callback.run_upsert_cases w publicId r.body hs with
          hquiet | ⟨index, data, batch, storage, rejected, -, hread, hdone, hrun⟩
        · exact Or.inl (hleft hquiet)
        · right
          refine ⟨index.id, data, batch, rejected, hread, ?_⟩
          rw [Http.Callback.perform, hrun]
          exact hdone
      | insertChains =>
        rcases Http.Callback.run_insert_cases w publicId r.body hs with
          hquiet | ⟨index, data, chains, storage, -, -, hdone, hrun⟩
        · exact Or.inl (hleft hquiet)
        · left
          intro i
          rw [Http.Callback.perform, hrun]
          -- an insertion writes chains, so all entries stay
          exact (Storage.changesOnly_of_insertChains hdone).table i .entries (by simp)

/-- An entry with an empty value keeps it at any request: an old value of no bytes arrives as none. -/
theorem empty_entry_respond (hs : s.Coherent) {i : IndexId} {uid : Uid}
    (h : (s.storage.contents.table i .entries).get? uid = some []) (w : Surroundings)
    (r : Http.Request) :
    ((s.respond w r).1.storage.contents.table i .entries).get? uid = some [] := by
  rcases respond_entries_cases hs w r with hsame | ⟨i', data, batch, rejected, hread, hdone⟩
  · rw [hsame]
    exact h
  · by_cases hi : i = i'
    · subst hi
      rw [Storage.table_of_upsertEntries hdone, EncryptedTable.get?_swapped, h]
      split
      · rename_i line hline
        -- No line that was read asks for an empty old value.
        have hold : line.old ≠ some [] := Wire.old_ne_some_nil_of_readUpsertData hread hline
        exact if_neg fun heq => hold heq.symm
      · rfl
    · rw [(Storage.changesOnly_of_upsertEntries hdone).table i .entries fun h => hi h.1]
      exact h

/-- So it keeps it for good. -/
theorem empty_entry_stays (hs : s.Coherent) {i : IndexId} {uid : Uid}
    (h : (s.storage.contents.table i .entries).get? uid = some []) (hreaches : s.Reaches s') :
    (s'.storage.contents.table i .entries).get? uid = some [] := by
  have hboth : s'.Coherent ∧ (s'.storage.contents.table i .entries).get? uid = some [] := by
    induction hreaches with
    | start => exact ⟨hs, h⟩
    | respond _ w r ih =>
      obtain ⟨hcoherent, hstored⟩ := ih
      exact ⟨(Continues.of_respond hcoherent w r).coherent hcoherent,
        empty_entry_respond hcoherent hstored w r⟩
  exact hboth.2

/-- In every state that a service comes to: what a fetch of entries or an upsert answers is what is
stored after it; a batch that names the stored value of an entry, not an empty one, as its old value
is accepted, with no line rejected, and its new value is stored, where the router answers the same for
a body within the limit; and an entry with an empty value keeps it whatever the service is asked. -/
theorem entries_recoverable_unless_empty {start s : Service} (hstart : start.cache.entries = ∅)
    (ho : start.InOrder) (hs : start.Reaches s) :
    (∀ c : SignedCall, c.ValidFor s →
      ((∃ uids, c.call = .fetch .entries uids) ∨ ∃ data, c.call = .upsert data) →
      ∃ told, Wire.readTable (s.respond c.surroundings c.request).2.body = .ok told ∧
        ∀ uid v, told.get? uid = some v →
          (s.respond c.surroundings c.request).1.reference c.publicId .entries uid = some v) ∧
    (∀ w publicId body index uid v n,
      Http.Callback.upsertEntries.Admits w s publicId body index
        (Wire.writeUpsertData (.single uid ⟨some v, n⟩)) →
      s.reference publicId .entries uid = some v → v ≠ [] → n.length < UInt64.size →
      ∃ response s', (Http.Callback.upsert w publicId body).run s = (.ok response, s') ∧
        response.status = 200 ∧ Wire.readTable response.body = .ok ∅ ∧
        (s'.reference = s.reference.set publicId .entries fun uid' =>
          if uid' = uid then some n else s.reference publicId .entries uid') ∧
        ∀ (r : Http.Request) id, r.method = "POST" →
          Http.Route.segments r.path =
            [Bytes.ofText "indexes", id, Bytes.ofText Http.Callback.upsertEntries.name] →
          Http.Route.parameter? id = some publicId → r.body = body → body.length ≤ s.bodyLimit →
          s.respond w r = (s', { response with allowOrigin := some "*" })) ∧
    (∀ i uid, (s.storage.contents.table i .entries).get? uid = some [] → ∀ s', s.Reaches s' →
      (s'.storage.contents.table i .entries).get? uid = some []) := by
  have hcoherent : s.Coherent := hs.coherent hstart
  have hinOrder : s.InOrder := hs.inOrder hstart ho
  refine ⟨?told, ?swapped, ?empty⟩
  case told =>
    intro c hc hcall
    exact told_is_stored hcoherent hinOrder hc hcall
  case swapped =>
    intro w publicId body index uid v n hadmits hstored hne hn
    obtain ⟨response, s', hrun, hstatus, hread, hreference⟩ :=
      upsert_of_stored hcoherent hinOrder hadmits hstored hne hn
    refine ⟨response, s', hrun, hstatus, hread, hreference, ?_⟩
    rintro r id hmethod hpath hid rfl hlimit
    -- the request is routed to the callback and its body is not too long
    have hanswer : (Http.Callback.upsertEntries.answer w r id).run s = (.ok response, s') :=
      (Http.Callback.run_answer hid hlimit).trans hrun
    rw [respond_callback hmethod hpath, carryOut_of_ok hanswer]
  case empty =>
    intro i uid h s' hreaches
    exact empty_entry_stays hcoherent h hreaches

/-- A valid call leads to a service whose tables are those that the call makes. -/
theorem exists_reaches_after {start : Service} {c : SignedCall} (hstart : start.cache.entries = ∅)
    (ho : start.InOrder) (hc : c.ValidFor start) :
    ∃ s, start.Reaches s ∧ s.registry = start.registry ∧ s.bodyLimit = start.bodyLimit ∧
      s.reference = start.reference.after c.publicId c.call := by
  have hcoherent : start.Coherent := Reaches.start.coherent hstart
  obtain ⟨-, -, hreference, hregistry⟩ := respond_follows hcoherent ho hc
  exact ⟨_, .respond .start _ _, hregistry, (Continues.of_respond hcoherent _ _).bodyLimit, hreference⟩

/-- The service with one index after its first upsert. -/
theorem exists_reaches_stored (v : Bytes)
    (h : ((TableCall.upsert (.single zeroUid ⟨none, v⟩)).payload
      VisitOrder.ascending).length ≤ 1000) :
    ∃ s, withOneIndex.Reaches s ∧ s.registry = withOneIndex.registry ∧
      s.bodyLimit = withOneIndex.bodyLimit ∧
      s.reference onlyIndex.publicId .entries zeroUid = some v := by
  obtain ⟨s, hs, hregistry, hlimit, hreference⟩ :=
    exists_reaches_after rfl inOrder_withOneIndex (TableCall.validFor_withOneIndex h)
  refine ⟨s, hs, hregistry, hlimit, ?_⟩
  rw [hreference]
  rfl

theorem entries_recoverable_unless_empty_withOneIndex :
    withOneIndex.cache.entries = ∅ ∧ withOneIndex.InOrder ∧
      ∃ s, withOneIndex.Reaches s ∧ s.reference onlyIndex.publicId .entries zeroUid = some [7] ∧
        ∃ response s', (Http.Callback.upsert atEpoch onlyIndex.publicId
            (TableCall.upsert (.single zeroUid ⟨some [7], [8]⟩)).signedBody).run s =
              (.ok response, s') ∧
          response.status = 200 ∧ Wire.readTable response.body = .ok ∅ ∧
          s'.reference onlyIndex.publicId .entries zeroUid = some [8] := by
  obtain ⟨s, hs, hregistry, hlimit, hstored⟩ := exists_reaches_stored [7] (by decide +kernel)
  refine ⟨rfl, inOrder_withOneIndex, s, hs, hstored, ?_⟩
  have hvalid : (TableCall.upsert (.single zeroUid ⟨some [7], [8]⟩)).signed.ValidFor s :=
    (TableCall.validFor_withOneIndex (by decide +kernel)).of_registry_eq hregistry hlimit
  obtain ⟨index, hadmits⟩ := hvalid.admits
  obtain ⟨-, hswapped, -⟩ := entries_recoverable_unless_empty rfl inOrder_withOneIndex hs
  obtain ⟨response, s', hrun, hstatus, hread, hreference, -⟩ :=
    hswapped atEpoch onlyIndex.publicId _ index zeroUid [7] [8] hadmits hstored (by decide) (by decide)
  refine ⟨response, s', hrun, hstatus, hread, ?_⟩
  rw [hreference]
  rfl

/-- An entry that was stored empty is not swapped by a batch that names its empty value. -/
theorem empty_entry_not_recoverable :
    ¬ ∀ s, withOneIndex.Reaches s → ∀ (c : SignedCall) uid v n, c.ValidFor s →
      c.call = .upsert (.single uid ⟨some v, n⟩) →
      s.reference c.publicId .entries uid = some v →
      (s.respond c.surroundings c.request).1.reference c.publicId .entries uid = some n := by
  intro h
  obtain ⟨s, hs, hregistry, hlimit, hstored⟩ := exists_reaches_stored [] (by decide +kernel)
  have hvalid : (TableCall.upsert (.single zeroUid ⟨some [], [1]⟩)).signed.ValidFor s :=
    (TableCall.validFor_withOneIndex (by decide +kernel)).of_registry_eq hregistry hlimit
  have hnew := h s hs _ zeroUid [] [1] hvalid rfl hstored
  obtain ⟨-, -, hreference, -⟩ :=
    respond_follows (hs.coherent rfl) (hs.inOrder rfl inOrder_withOneIndex) hvalid
  rw [hreference] at hnew
  -- The old value arrives as none, and something is stored.
  have hkept : s.reference.after onlyIndex.publicId
      (.upsert (.single zeroUid ⟨some [], [1]⟩)) onlyIndex.publicId .entries zeroUid = some [] := by
    rw [Reference.after, Reference.set, if_pos ⟨rfl, rfl⟩, hstored]
    rfl
  cases hkept.symm.trans hnew

end Service
end IndexVault
