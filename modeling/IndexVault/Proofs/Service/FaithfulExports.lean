import IndexVault.Proofs.RecordedFetches
import IndexVault.Proofs.Service.EntryRecovery
import IndexVault.Proofs.Service.FreshIndexes

namespace IndexVault

open Json (Value)

/-- The line that a member of an export spells in base 64. -/
def exportedLine? : String × Value → Option (Uid × Bytes)
  | (name, .text text) => do
    let key ← Text.unbase64? (Bytes.ofText name)
    let uid ← (Uid.ofBytes key).toOption
    let value ← Text.unbase64? (Bytes.ofText text)
    some (uid, value)
  | _ => none

/-- Members that spell a table, under names that are all different and in whatever order. -/
structure SpellTable (members : List (String × Value)) (t : EncryptedTable) : Prop where
  distinct : (members.map Prod.fst).Nodup
  lines : ∃ lines, members.mapM exportedLine? = some lines ∧ lines.Perm t.toList

/-- The member for a line. -/
def exportedMember (line : Uid × Bytes) : String × Value :=
  (Text.base64Text line.1.bytes, .text (Text.base64Text line.2))

/-- The member of a line spells the line. -/
theorem exportedLine?_exportedMember (line : Uid × Bytes) :
    exportedLine? (exportedMember line) = some line := by
  have huid : Uid.ofBytes line.1.bytes = .ok line.1 := Uid.ofBytes_eq_ok_iff.2 rfl
  simp only [exportedMember, exportedLine?, Text.unbase64?_base64Text, huid, Except.toOption,
    Option.bind_eq_bind, Option.bind_some]

/-- The members of an export, in the order of their names. -/
def exportedMembers (t : EncryptedTable) : List (String × Value) :=
  (SortedMap.ofList (t.toList.map exportedMember)).toList

theorem exportTable_eq (t : EncryptedTable) :
    RequestLog.exportTable t = .object (exportedMembers t) := rfl

/-- Sorting the members by name loses none of them, since their names are all different. -/
theorem exportedMembers_perm (t : EncryptedTable) :
    (exportedMembers t).Perm (t.toList.map exportedMember) := by
  apply SortedMap.toList_ofList_perm
  have hkeys : ((t.toList.map Prod.fst).map fun uid => Text.base64Text uid.bytes).Nodup := by
    -- An identifier can be read back from its name in base 64.
    apply (SortedMap.nodup_keys t).map
    intro uid uid' heq
    exact Uid.ext_bytes (Text.base64Text_injective heq)
  rw [SortedMap.DistinctKeys, List.map_map]
  rwa [List.map_map] at hkeys

/-- The members of some lines spell them, one by one. -/
theorem mapM_exportedLine? (lines : List (Uid × Bytes)) :
    (lines.map exportedMember).mapM exportedLine? = some lines := by
  induction lines with
  | nil => rfl
  | cons line rest ih =>
    rw [List.map_cons, List.mapM_cons, exportedLine?_exportedMember, ih]
    rfl

theorem length_exportedMembers (t : EncryptedTable) : (exportedMembers t).length = t.size :=
  (exportedMembers_perm t).length_eq.trans (List.length_map _)

/-- The object that is answered has one member for every stored line, and the names and the texts of its
members spell the lines. -/
theorem spellTable_exportedMembers (t : EncryptedTable) : SpellTable (exportedMembers t) t := by
  -- The members are those of the lines in another order.
  obtain ⟨lines, hmembers, hlines⟩ :
      Relation.Comp (· = List.map exportedMember ·) List.Perm (exportedMembers t) t.toList := by
    rw [List.eq_map_comp_perm]
    exact exportedMembers_perm t
  refine ⟨SortedMap.distinctKeys_toList _, lines, ?_, hlines⟩
  rw [hmembers]
  exact mapM_exportedLine? lines

theorem readsBack_exportTable (t : EncryptedTable) :
    (RequestLog.exportTable t).ReadsBack Json.maxDepth := by
  rw [exportTable_eq]
  refine .object (fun m hm => ?_) (SortedMap.ascending _) (fun m hm => ?_)
  · obtain ⟨line, -, rfl⟩ := List.mem_map.1 ((exportedMembers_perm t).mem_iff.1 hm)
    exact .text _ _
  · have hmem := (exportedMembers_perm t).mem_iff.1 (List.mem_of_mem_head? hm)
    obtain ⟨line, -, rfl⟩ := List.mem_map.1 hmem
    exact RecordedFetch.base64Text_ne_embeddingName line.1.bytes

namespace Service

variable {start s : Service} {w : Surroundings} {r : Http.Request} {publicId : String}
  {index : Index} {kind : TableKind} {id : Bytes}

/-- A store that is whole at the start stays whole. -/
theorem Reaches.usable (h : start.Reaches s) (hstart : start.storage.Usable) : s.storage.Usable := by
  induction h with
  | start => exact hstart
  | respond _ w r ih => exact usable_respond ih w r

theorem Reaches.isSome_log (h : start.Reaches s) : s.log.isSome = start.log.isSome := by
  induction h with
  | start => rfl
  | @respond s' _ w r ih => exact (recordsStep_respond s' w r).isLogged.trans ih

/-- An export of a live index answers with the table as it is stored. -/
theorem run_exportTable (hs : s.Coherent) (hready : s.registry.ready = .ok ())
    (husable : s.storage.Usable) (hlive : s.registry.findLive publicId = some index) :
    (LogAccess.exportTable kind publicId).run s =
      (.ok (.ok (RequestLog.exportTable (s.storage.contents.table index.id kind))),
        s.looked publicId) := by
  have hindex : (Action.cachedIndex publicId).run s = (.ok index, s.looked publicId) := by
    rw [Action.run_cachedIndex, IndexCache.Coherent.lookup_of_ready hs hready, hlive]
  have htable : (s.looked publicId).storage.fetchAll index.id kind =
      .ok (s.storage.contents.table index.id kind) := Storage.fetchAll_eq husable index.id kind
  have hstate : Attempt.state.run (s.looked publicId) =
      ((.ok (s.looked publicId), s.looked publicId) : Except Http.Refusal Service × Service) := rfl
  rw [LogAccess.exportTable, Attempt.run_bind_of_ok hindex, Attempt.run_bind_of_ok hstate, htable]
  rfl

/-- The router answers an export with the members of the table. -/
theorem respond_export (hs : s.Coherent) (hready : s.registry.ready = .ok ())
    (husable : s.storage.Usable) (hlive : s.registry.findLive publicId = some index)
    (hmethod : r.method = "GET")
    (hroute : Http.Route.ofPath? s.log.isSome r.path = some (.exportTable kind id))
    (hid : Http.Route.parameter? id = some publicId) :
    s.respond w r = (s.looked publicId,
      { Http.Response.ok (RequestLog.exportTable (s.storage.contents.table index.id kind)) with
        allowOrigin := some "*" }) := by
  have ha : action? w r "GET" (.exportTable kind id) =
      some (Action.parameter id >>= LogAccess.exportTable kind) := rfl
  rw [respond_of_action? hmethod (by decide) hroute ha,
    Attempt.run_bind_of_ok (Action.run_parameter hid s), run_exportTable hs hready husable hlive]
  rfl

/-- A fetch of all identifiers of a table, and of others perhaps, answers the table. -/
theorem readTable_fetch_of_covers {c : SignedCall} (hs : s.Coherent) (ho : s.InOrder)
    (hc : c.ValidFor s) (hlive : s.registry.findLive c.publicId = some index) {uids : UidSet}
    (hcall : c.call = .fetch kind uids)
    (hcovers : ∀ uid, (s.storage.contents.table index.id kind).contains uid = true →
      uids.contains uid = true) :
    (s.respond c.surroundings c.request).2.status = 200 ∧
      Wire.readTable (s.respond c.surroundings c.request).2.body =
        .ok (s.storage.contents.table index.id kind) := by
  obtain ⟨hstatus, hanswers, -⟩ := respond_follows hs ho hc
  rw [hcall] at hanswers
  obtain ⟨found, hread, hfound⟩ := hanswers
  refine ⟨hstatus, hread.trans (congrArg Except.ok ?_)⟩
  apply SortedMap.ext_get?
  intro uid
  rw [hfound, reference_of_live hlive]
  split
  · rfl
  · -- What was not asked for is not stored.
    rename_i hasked
    symm
    rw [← Option.not_isSome_iff_eq_none]
    intro hstored
    exact hasked (hcovers uid hstored)

/-- Exports are faithful. Whatever a service that logs its fetches and started in order was asked before,
an export of a live index is answered with an object that has one member for each stored line of the
table and spells these lines, and every signed fetch of this table that asks for all that is stored there
is answered with the same lines. -/
theorem exports_faithful (hstart : start.cache.entries = ∅) (ho : start.InOrder)
    (husable : start.storage.Usable) (hlog : start.log.isSome = true) (hs : start.Reaches s)
    (hlive : s.registry.findLive publicId = some index) (w : Surroundings)
    (hmethod : r.method = "GET")
    (hroute : Http.Route.ofPath? true r.path = some (.exportTable kind id))
    (hid : Http.Route.parameter? id = some publicId) :
    ∃ members, (s.respond w r).2.status = 200 ∧
      (s.respond w r).2.contentType = some "application/json" ∧
      Json.readValue (s.respond w r).2.body = some (.object members) ∧
      members.length = (s.storage.contents.table index.id kind).size ∧
      SpellTable members (s.storage.contents.table index.id kind) ∧
      ∀ (c : SignedCall) (uids : UidSet), c.ValidFor s → c.publicId = publicId →
        c.call = .fetch kind uids →
        (∀ uid, (s.storage.contents.table index.id kind).contains uid = true →
          uids.contains uid = true) →
        (s.respond c.surroundings c.request).2.status = 200 ∧
          Wire.readTable (s.respond c.surroundings c.request).2.body =
            .ok (s.storage.contents.table index.id kind) := by
  have hcoherent := hs.coherent hstart
  have hinOrder := hs.inOrder hstart ho
  rw [← hlog, ← hs.isSome_log] at hroute
  rw [respond_export hcoherent hinOrder.ready (hs.usable husable) hlive hmethod hroute hid]
  refine ⟨_, rfl, rfl, Json.readValue_compact (readsBack_exportTable _), length_exportedMembers _,
    spellTable_exportedMembers _, fun c uids hc hpublicId hcall hcovers => ?_⟩
  subst hpublicId
  exact readTable_fetch_of_covers hcoherent hinOrder hc hlive hcall hcovers

def loggingOneIndex : Service := { withOneIndex with log := some {} }

theorem inOrder_loggingOneIndex : loggingOneIndex.InOrder :=
  ⟨inOrder_withOneIndex.ready, inOrder_withOneIndex.numbered, inOrder_withOneIndex.sound,
    inOrder_withOneIndex.limitFits⟩

def entriesExport : Http.Request := ⟨"GET", "/export_entries_for_index/abcde", [], []⟩

/-- The service after the upsert of one entry. -/
theorem exists_reaches_oneEntry :
    ∃ s, loggingOneIndex.Reaches s ∧ s.registry = loggingOneIndex.registry ∧
      s.bodyLimit = loggingOneIndex.bodyLimit ∧
      ∀ uid, s.reference onlyIndex.publicId .entries uid =
        if uid = zeroUid then some [7] else none := by
  have hvalid : (TableCall.upsert (.single zeroUid ⟨none, [7]⟩)).signed.ValidFor loggingOneIndex :=
    (TableCall.validFor_withOneIndex (by decide +kernel)).of_registry_eq rfl rfl
  obtain ⟨s, hs, hregistry, hlimit, hreference⟩ :=
    exists_reaches_after rfl inOrder_loggingOneIndex hvalid
  refine ⟨s, hs, hregistry, hlimit, fun uid => ?_⟩
  have hafter : s.reference onlyIndex.publicId .entries uid =
      Reference.swapped none (((SortedMap.single zeroUid (⟨none, [7]⟩ : UpsertLine)).get? uid).map
        UpsertLine.received) := by
    rw [hreference]
    rfl
  rw [hafter, SortedMap.get?_single]
  split <;> rfl

theorem exports_faithful_oneEntry :
    loggingOneIndex.cache.entries = ∅ ∧ loggingOneIndex.InOrder ∧
      loggingOneIndex.storage.Usable ∧ loggingOneIndex.log.isSome = true ∧
      ∃ (s : Service) (members : List (String × Value)) (t : EncryptedTable),
        loggingOneIndex.Reaches s ∧
        Json.readValue (s.respond atEpoch entriesExport).2.body = some (.object members) ∧
        members.length = t.size ∧ SpellTable members t ∧ t.get? zeroUid = some [7] ∧
        Wire.readTable (s.respond atEpoch
            (TableCall.fetch .entries (.ofUids [zeroUid])).signed.request).2.body = .ok t := by
  have husable : loggingOneIndex.storage.Usable := Storage.usable_keyValue {}
  -- the state in which a signed upsert has stored one entry
  obtain ⟨s, hs, hregistry, hlimit, hentries⟩ := exists_reaches_oneEntry
  have hlive : s.registry.findLive onlyIndex.publicId = some onlyIndex := by
    rw [hregistry]
    rfl
  rw [reference_of_live hlive] at hentries
  have hid : Http.Route.parameter? (Bytes.ofText "abcde") = some onlyIndex.publicId := by
    decide +kernel
  have hroute : Http.Route.ofPath? true entriesExport.path =
      some (.exportTable .entries (Bytes.ofText "abcde")) := by
    decide +kernel
  obtain ⟨members, -, -, hread, hlength, hspell, hfetch⟩ := exports_faithful rfl
    inOrder_loggingOneIndex husable rfl hs hlive atEpoch rfl hroute hid
  have hvalid : (TableCall.fetch .entries (.ofUids [zeroUid])).signed.ValidFor s :=
    (TableCall.validFor_withOneIndex (by decide +kernel)).of_registry_eq hregistry hlimit
  refine ⟨rfl, inOrder_loggingOneIndex, husable, rfl, s, members, _, hs, hread, hlength, hspell,
    hentries zeroUid, (hfetch _ _ hvalid rfl rfl fun uid hstored => ?_).2⟩
  rw [SortedMap.contains, hentries uid] at hstored
  split at hstored
  · rename_i huid
    rw [huid]
    rfl
  · cases hstored

end Service
end IndexVault
