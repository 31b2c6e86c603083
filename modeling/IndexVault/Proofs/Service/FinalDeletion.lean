import IndexVault.Proofs.Service.RecordsSteps

/-! Deletion is final. In a service for one tenant whose databases answer, an index that was deleted
keeps its row and its lines, but nothing leads to them any more: every route that takes its public id
answers that there is no such index, no listing has it, and no index that is created later gets its
public id (`deletion_final`). -/
namespace IndexVault

open IndexVault.Action

namespace Service

/-- A service as it is set up for one tenant, with empty stores and a log of requests. -/
structure StartsEmpty (s : Service) : Prop where
  registry : s.registry = {}
  cache : s.cache.entries = ∅
  storage : ∃ kind, s.storage = Storage.empty kind
  tenancy : s.tenancy = none
  logged : s.log.isSome = true

/-- What such a service keeps to, whatever it is asked. -/
structure SingleTenant (s : Service) : Prop where
  tenancy : s.tenancy = none
  owners : ∀ i ∈ s.registry.rows, i.authzId = Tenancy.soleOwner.authzId
  logged : s.log.isSome = true
  ready : s.registry.ready = .ok ()
  numbered : s.registry.Numbered
  distinctIds : s.registry.DistinctIds
  coherent : s.Coherent
  sound : s.storage.Sound

variable {s s' start : Service} {w : Surroundings} {r : Http.Request} {id : Bytes}
  {publicId : String} {index : Index}

theorem StartsEmpty.singleTenant (h : s.StartsEmpty) : s.SingleTenant := by
  obtain ⟨kind, hstorage⟩ := h.storage
  have hrows : s.registry.rows = [] := congrArg Registry.rows h.registry
  refine ⟨h.tenancy, ?_, h.logged, ?_, ?_, ?_, IndexCache.coherent_of_empty h.cache _, ?_⟩
  · intro i hi
    rw [hrows] at hi
    cases hi
  · rw [h.registry]
    rfl
  · intro n i hi
    rw [hrows] at hi
    cases hi
  · rw [Registry.DistinctIds, hrows]
    exact List.nodup_nil
  · rw [hstorage]
    exact Storage.sound_empty kind

/-- With one tenant all rows have one owner. -/
theorem owners_of_recordsStep {x : Records} (h : RecordsStep s w r x) (htenancy : s.tenancy = none)
    (howners : ∀ i ∈ s.registry.rows, i.authzId = Tenancy.soleOwner.authzId) :
    ∀ i ∈ x.registry.rows, i.authzId = Tenancy.soleOwner.authzId := by
  cases h with
  | kept => exact howners
  | identified => exact howners
  | created _ _ hcreates =>
    obtain ⟨-, hrows, p, -, -, rfl⟩ := Registry.create_rows hcreates.placed
    -- the new row has the caller for its owner, and there is only one
    have hcaller := hcreates.identified
    rw [htenancy] at hcaller
    cases hcaller
    intro i hi
    dsimp only at hi
    rw [hrows] at hi
    rcases List.mem_append.1 hi with hold | hnew
    · exact howners i hold
    · cases List.mem_singleton.1 hnew
      rfl
  | deleted _ _ hdeletes =>
    obtain ⟨-, hrows, -⟩ := Registry.delete_rows hdeletes.marked
    intro i hi
    dsimp only at hi
    rw [hrows] at hi
    obtain ⟨j, hj, rfl⟩ := List.mem_map.1 hi
    split
    · exact howners j hj
    · exact howners j hj

namespace SingleTenant

/-- A service for one tenant stays one. -/
theorem respond (h : s.SingleTenant) (w : Surroundings) (r : Http.Request) :
    (s.respond w r).1.SingleTenant := by
  have hcontinues := Continues.of_respond h.coherent w r
  have hstep := recordsStep_respond s w r
  refine ⟨?_, owners_of_recordsStep hstep h.tenancy h.owners, hstep.isLogged.trans h.logged,
    hcontinues.ready.trans h.ready, hcontinues.numbered h.numbered,
    hstep.evolves.distinctIds h.distinctIds, hcontinues.coherent h.coherent,
    hcontinues.sound h.sound⟩
  have htenancy := hstep.tenancy
  rw [h.tenancy] at htenancy
  exact htenancy.elim id id

theorem reaches (h : s.SingleTenant) (hs : s.Reaches s') : s'.SingleTenant := by
  induction hs with
  | start => exact h
  | respond _ w r ih => exact ih.respond w r

end SingleTenant

/-- An index has a row, and is not found under its public id. -/
structure Gone (s : Service) (index : Index) : Prop where
  row : ∃ i ∈ s.registry.rows, i.undeleted = index
  dead : s.registry.findLive index.publicId = none

namespace Gone

theorem isTaken (h : s.Gone index) : s.registry.isTaken index.publicId = true := by
  obtain ⟨i, hi, rfl⟩ := h.row
  exact Registry.isTaken_iff.2 ⟨i, hi, rfl⟩

/-- A deleted index keeps its row, and no later request gives its public id to another. -/
theorem respond (h : s.Gone index) (w : Surroundings) (r : Http.Request) :
    (s.respond w r).1.Gone index := by
  have hevolves := (recordsStep_respond s w r).evolves
  obtain ⟨i, hi, hindex⟩ := h.row
  obtain ⟨i', hi', hsame⟩ := hevolves.rows i hi
  exact ⟨⟨i', hi', hsame.trans hindex⟩, hevolves.findLive_eq_none h.isTaken h.dead⟩

/-- So the index stays gone. -/
theorem reaches (h : s.Gone index) (hs : s.Reaches s') : s'.Gone index := by
  induction hs with
  | start => exact h
  | respond _ w r ih => exact ih.respond w r

/-- Every row of the public id is the row of the index. -/
theorem rows (h : s.Gone index) (hs : s.SingleTenant) {i : Index} (hi : i ∈ s.registry.rows)
    (hid : i.publicId = index.publicId) : i.undeleted = index ∧ i.isLive = false := by
  refine ⟨?_, Registry.findLive_eq_none_iff.1 h.dead i hi hid⟩
  obtain ⟨j, hj, rfl⟩ := h.row
  rw [hs.distinctIds.eq_of_publicId_eq hi hj hid]

/-- A live index has another internal number. -/
theorem ne_of_live (h : s.Gone index) (hs : s.SingleTenant) {i : Index} (hi : i ∈ s.registry.rows)
    (hlive : i.isLive = true) : i.id ≠ index.id := by
  intro hid
  obtain ⟨j, hj, rfl⟩ := h.row
  -- Numbers are places among the rows, so this one would be the row that was deleted.
  have hsame : i = j := hs.numbered.eq_of_mem hi hj hid
  subst hsame
  rw [Registry.findLive_eq_none_iff.1 h.dead i hi rfl] at hlive
  cases hlive

/-- A request changes no line of a deleted index. -/
theorem storage_respond (h : s.Gone index) (hs : s.SingleTenant) (w : Surroundings)
    (r : Http.Request) :
    (∀ kind, (s.respond w r).1.storage.contents.table index.id kind =
        s.storage.contents.table index.id kind) ∧
      (s.respond w r).1.storage.contents.size index.id = s.storage.contents.size index.id :=
  storage_of_no_live hs.coherent (fun _ hi hlive => h.ne_of_live hs hi hlive) w r

/-- The lines and the size of a deleted index stay for good. -/
theorem storage_reaches (h : s.Gone index) (hs : s.SingleTenant) (hreaches : s.Reaches s') :
    (∀ kind, s'.storage.contents.table index.id kind = s.storage.contents.table index.id kind) ∧
      s'.storage.contents.size index.id = s.storage.contents.size index.id := by
  induction hreaches with
  | start => exact ⟨fun _ => rfl, rfl⟩
  | respond hreaches w r ih =>
    obtain ⟨htable, hsize⟩ := (h.reaches hreaches).storage_respond (hs.reaches hreaches) w r
    exact ⟨fun kind => (htable kind).trans (ih.1 kind), hsize.trans ih.2⟩

end Gone

/-- The answer to a request for an index that is not there. -/
def unknownIndexAnswer (publicId : String) : Http.Response where
  status := 400
  contentType := some "application/json"
  body := (Json.Value.object [("error", .text ("Unknown index for ID " ++ publicId))]).compact
  allowOrigin := some "*"

/-- The answer to a deletion. -/
def deletedAnswer : Http.Response where
  status := 200
  contentType := some "application/json"
  body := Bytes.ofText "null"
  allowOrigin := some "*"

theorem answered_unknownIndex (publicId : String) :
    { Http.answered (.error (.failure (.unknownIndex publicId))) with allowOrigin := some "*" } =
      unknownIndexAnswer publicId := by
  have hmessage : (Failure.unknownIndex publicId).message = "Unknown index for ID " ++ publicId := by
    rfl
  rw [unknownIndexAnswer, ← hmessage]
  rfl

namespace SingleTenant

variable (h : s.SingleTenant)

include h

theorem run_caller (w : Surroundings) (r : Http.Request) :
    (Management.caller w r).run s = (.ok Tenancy.soleOwner, s) := by
  rw [Management.run_caller, identified_of_single h.tenancy, h.tenancy]
  rfl

/-- A request is answered by the action of its route, the routes on the log included. -/
theorem respond_eq {method : String} {route : Http.Route} {a : Action Http.Response}
    (hmethod : r.method = method) (hother : method ≠ "OPTIONS" ∧ method ≠ "HEAD")
    (hroute : Http.Route.ofPath? true r.path = some route)
    (ha : action? w r method route = some a) :
    s.respond w r = ((a.run s).2, { Http.answered (a.run s).1 with allowOrigin := some "*" }) := by
  have hlogged : Http.Route.ofPath? s.log.isSome r.path = some route := by
    rw [h.logged]
    exact hroute
  exact respond_of_action? hmethod hother hlogged ha

theorem found_of_dead (hdead : s.registry.findLive publicId = none) :
    s.found publicId = .ok none := by
  rw [found, IndexCache.Coherent.lookup_of_ready h.coherent h.ready, hdead]

/-- A route that takes the public id of a deleted index answers that there is no such index;
`callback_of_dead` and `exportTable_of_dead` say so of the others. -/
theorem show_of_dead (hdead : s.registry.findLive publicId = none) (hmethod : r.method = "GET")
    (hroute : Http.Route.ofPath? true r.path = some (.index id))
    (hid : Http.Route.parameter? id = some publicId) :
    (s.respond w r).2 = unknownIndexAnswer publicId := by
  have hget : s.registry.get? publicId = .ok none := Registry.get?_eq_ok_iff.2 ⟨h.ready, hdead⟩
  have hrun : (Management.show? w r id).run s = (.error (.failure (.unknownIndex publicId)), s) := by
    rw [Management.show?, Attempt.run_bind_of_ok (h.run_caller w r),
      Attempt.run_bind_of_ok (run_parameter hid s)]
    change (ofResult (s.registry.get? publicId) >>= _).run s = _
    rw [hget]
    rfl
  rw [h.respond_eq hmethod (by decide) hroute rfl, hrun]
  exact answered_unknownIndex publicId

theorem callback_of_dead (hdead : s.registry.findLive publicId = none) {c : Http.Callback}
    (hmethod : r.method = "POST") (hroute : Http.Route.ofPath? true r.path = some (.callback c id))
    (hid : Http.Route.parameter? id = some publicId) (hlimit : r.body.length ≤ s.bodyLimit) :
    (s.respond w r).2 = unknownIndexAnswer publicId := by
  have hfound := h.found_of_dead hdead
  rw [h.respond_eq hmethod (by decide) hroute rfl, Http.Callback.run_answer hid hlimit,
    Http.Callback.run_perform_of_unknown hfound]
  exact answered_unknownIndex publicId

theorem exportTable_of_dead (hdead : s.registry.findLive publicId = none) {kind : TableKind}
    (hmethod : r.method = "GET")
    (hroute : Http.Route.ofPath? true r.path = some (.exportTable kind id))
    (hid : Http.Route.parameter? id = some publicId) :
    (s.respond w r).2 = unknownIndexAnswer publicId := by
  have hcached : (cachedIndex publicId).run s =
      (.error (.failure (.unknownIndex publicId)), s.looked publicId) := by
    have hlookup := h.found_of_dead hdead
    rw [found] at hlookup
    rw [run_cachedIndex, hlookup]
  rw [h.respond_eq hmethod (by decide) hroute rfl,
    Attempt.run_bind_of_ok (run_parameter hid s), LogAccess.exportTable,
    Attempt.run_bind_of_error hcached]
  exact answered_unknownIndex publicId

/-- With one tenant a deletion is answered whether or not it finds a row. -/
theorem run_delete (w : Surroundings) (r : Http.Request)
    (hid : Http.Route.parameter? id = some publicId) :
    ∃ registry done,
      s.registry.delete publicId Tenancy.soleOwner.authzId w.moment = .ok (registry, done) ∧
        (Management.delete w r id).run s =
          (.ok (.ok .null), { s with registry := registry, cache := s.cache.evict publicId }) := by
  obtain ⟨⟨registry, done⟩, hdelete⟩ : ∃ deleted,
      s.registry.delete publicId Tenancy.soleOwner.authzId w.moment = .ok deleted := by
    rw [Registry.delete, h.ready]
    exact ⟨_, rfl⟩
  refine ⟨registry, done, hdelete, ?_⟩
  rw [Management.delete, Attempt.run_bind_of_ok (h.run_caller w r),
    Attempt.run_bind_of_ok (run_parameter hid s)]
  change (ofResult (s.registry.delete publicId Tenancy.soleOwner.authzId w.moment) >>= _).run s = _
  rw [hdelete]
  rfl

theorem delete_answer (hmethod : r.method = "DELETE")
    (hroute : Http.Route.ofPath? true r.path = some (.index id))
    (hid : Http.Route.parameter? id = some publicId) :
    (s.respond w r).2 = deletedAnswer := by
  obtain ⟨registry, done, -, hrun⟩ := h.run_delete w r hid
  rw [h.respond_eq hmethod (by decide) hroute rfl, hrun]
  rfl

/-- A listing shows live indexes, unless its query gives a project twice. -/
theorem list_answer (hmethod : r.method = "GET")
    (hroute : Http.Route.ofPath? true r.path = some .indexes) :
    (1 < ((Text.formFields r.query).filter (·.1 == "project_uuid")).length ∧
        (s.respond w r).2.status = 400) ∨
      ∃ listed : List (Index × Nat), (s.respond w r).2 = Http.listingAnswer listed ∧
        ∀ x ∈ listed, x.1 ∈ s.registry.rows ∧ x.1.isLive = true := by
  rw [h.respond_eq hmethod (by decide) hroute rfl, Management.list,
    Attempt.run_bind_of_ok (h.run_caller w r)]
  rcases run_bind_cases (Management.inert_queriedProject r s) _ with
    ⟨e, hrejected, hrun⟩ | ⟨requested, -, hrun⟩
  · obtain ⟨htwice, hstatus⟩ := Management.twice_of_queriedProject hrejected
    rw [hrun]
    exact Or.inl ⟨htwice, hstatus⟩
  · rw [hrun]
    -- with one tenant every request is for its one project
    have hproject : (Management.project w Tenancy.soleOwner requested).run s =
        (.ok Tenancy.soleProject, s) := by
      change (ofResult (Tenancy.resolveProject s.tenancy w.projects _ requested)).run s = _
      rw [h.tenancy]
      rfl
    rw [Attempt.run_bind_of_ok hproject]
    -- the rows are read, and then their sizes, and neither fails
    have hlist := Registry.list_of_ready h.ready Tenancy.soleProject
    generalize (s.registry.rows.filter _).mergeSort _ = indexes at hlist
    have hsizes := Storage.sizes_eq h.sound.isOpen (indexes.map (·.id))
    change _ ∨ ∃ listed, { Http.answered ((ofResult (s.registry.list _) >>= _).run s).1 with
      allowOrigin := some "*" } = _ ∧ _
    rw [hlist]
    change _ ∨ ∃ listed, { Http.answered ((ofResult (s.storage.sizes _) >>= _).run s).1 with
      allowOrigin := some "*" } = _ ∧ _
    rw [hsizes]
    refine Or.inr ⟨_, rfl, fun x hx => ?_⟩
    obtain ⟨hmem, -, hlive⟩ := Registry.mem_of_list hlist (List.of_mem_zip hx).1
    exact ⟨hmem, hlive⟩

/-- A live index is gone once a request has deleted it. -/
theorem gone_of_delete (hlive : s.registry.findLive index.publicId = some index)
    (hmethod : r.method = "DELETE") (hroute : Http.Route.ofPath? true r.path = some (.index id))
    (hid : Http.Route.parameter? id = some index.publicId) : (s.respond w r).1.Gone index := by
  obtain ⟨registry, done, hdelete, hrun⟩ := h.run_delete w r hid
  have hregistry : (s.respond w r).1.registry = registry := by
    rw [h.respond_eq hmethod (by decide) hroute rfl, hrun]
  obtain ⟨hmem, -, hlives⟩ := Registry.findLive_spec hlive
  obtain ⟨-, hrows, hdone⟩ := Registry.delete_rows hdelete
  -- Every row is the sole owner's, so the deletion does find this one.
  have hdeletable : Registry.isDeletable index.publicId Tenancy.soleOwner.authzId index = true := by
    rw [Registry.isDeletable, h.owners index hmem, hlives, beq_self_eq_true, beq_self_eq_true]
    rfl
  have htrue : done = true := hdone.trans (List.any_eq_true.2 ⟨index, hmem, hdeletable⟩)
  subst htrue
  obtain ⟨i, hi, hsame⟩ := (Registry.evolves_of_delete hdelete).rows index hmem
  refine ⟨⟨i, ?_, ?_⟩, ?_⟩
  · rw [hregistry]
    exact hi
  · rw [hsame]
    exact Index.undeleted_of_isLive hlives
  · rw [hregistry]
    exact (Registry.findLive_of_deleted h.distinctIds hdelete).2

end SingleTenant

/-- An index that is not there for anyone who asks: not to be shown, used, exported or listed, though
it may be deleted again; and every row of its public id is its own. -/
structure AnswersAsGone (s : Service) (index : Index) : Prop where
  /-- It is not shown. -/
  shown : ∀ w r id, r.method = "GET" → Http.Route.ofPath? true r.path = some (.index id) →
    Http.Route.parameter? id = some index.publicId →
    (s.respond w r).2 = unknownIndexAnswer index.publicId
  /-- No callback reaches it, whatever its body is signed with. -/
  used : ∀ w r c id, r.method = "POST" → Http.Route.ofPath? true r.path = some (.callback c id) →
    Http.Route.parameter? id = some index.publicId → r.body.length ≤ s.bodyLimit →
    (s.respond w r).2 = unknownIndexAnswer index.publicId
  /-- Neither of its tables is exported. -/
  exported : ∀ w r kind id, r.method = "GET" →
    Http.Route.ofPath? true r.path = some (.exportTable kind id) →
    Http.Route.parameter? id = some index.publicId →
    (s.respond w r).2 = unknownIndexAnswer index.publicId
  /-- No listing has it; a query that gives a project twice gets no listing. -/
  listed : ∀ w r, r.method = "GET" → Http.Route.ofPath? true r.path = some .indexes →
    (1 < ((Text.formFields r.query).filter (·.1 == "project_uuid")).length ∧
        (s.respond w r).2.status = 400) ∨
      ∃ listed : List (Index × Nat), (s.respond w r).2 = Http.listingAnswer listed ∧
        ∀ x ∈ listed, x.1.publicId ≠ index.publicId
  /-- Deleting it again is answered as the first time. -/
  deleted : ∀ w r id, r.method = "DELETE" → Http.Route.ofPath? true r.path = some (.index id) →
    Http.Route.parameter? id = some index.publicId → (s.respond w r).2 = deletedAnswer
  /-- No other index has its public id. -/
  rows : ∀ i ∈ s.registry.rows, i.publicId = index.publicId →
    i.undeleted = index ∧ i.isLive = false

/-- An index that is gone is gone for every route and every listing. -/
theorem Gone.answersAsGone (h : s.Gone index) (hs : s.SingleTenant) : s.AnswersAsGone index where
  shown _ _ _ hmethod hroute hid := hs.show_of_dead h.dead hmethod hroute hid
  used _ _ _ _ hmethod hroute hid hlimit := hs.callback_of_dead h.dead hmethod hroute hid hlimit
  exported _ _ _ _ hmethod hroute hid := hs.exportTable_of_dead h.dead hmethod hroute hid
  listed w r hmethod hroute := by
    rcases hs.list_answer hmethod hroute with htwice | ⟨listed, hanswer, hlive⟩
    · exact Or.inl htwice
    · refine Or.inr ⟨listed, hanswer, fun x hx hid => ?_⟩
      obtain ⟨hmem, hlives⟩ := hlive x hx
      rw [(h.rows hs hmem hid).2] at hlives
      cases hlives
  deleted _ _ _ hmethod hroute hid := hs.delete_answer hmethod hroute hid
  rows _ hi hid := h.rows hs hi hid

/-- Whatever a service for one tenant was asked since it started with empty stores, the deletion of a live
index is answered, and whatever it is asked after that, the index stays gone for everyone, and its lines and
size stay as they were. Sizes are taken to stay below `2 ^ 63`. -/
theorem deletion_final (hstart : start.StartsEmpty) (hs : start.Reaches s)
    (hlive : s.registry.findLive index.publicId = some index) (hmethod : r.method = "DELETE")
    (hroute : Http.Route.ofPath? true r.path = some (.index id))
    (hid : Http.Route.parameter? id = some index.publicId) (w : Surroundings) :
    (s.respond w r).2 = deletedAnswer ∧
      ∀ s', (s.respond w r).1.Reaches s' → s'.AnswersAsGone index ∧
        (∀ kind, s'.storage.contents.table index.id kind =
          (s.respond w r).1.storage.contents.table index.id kind) ∧
        s'.storage.contents.size index.id = (s.respond w r).1.storage.contents.size index.id := by
  have hsingle := hstart.singleTenant.reaches hs
  have hafter := hsingle.respond w r
  have hgone : (s.respond w r).1.Gone index := hsingle.gone_of_delete hlive hmethod hroute hid
  refine ⟨hsingle.delete_answer hmethod hroute hid, fun s' hs' => ⟨?_, ?_⟩⟩
  · exact (hgone.reaches hs').answersAsGone (hafter.reaches hs')
  · exact hgone.storage_reaches hafter hs'

/-- A service for one tenant that has just started. -/
def justStarted : Service where
  log := some {}

/-- A request that creates an index with a short name. -/
def creation : Http.Request where
  method := "POST"
  target := "/indexes"
  headers := [("content-type", Bytes.ofText "application/json")]
  body := Bytes.ofText "\x7b\"name\":\"a\"\x7d"

def deletion : Http.Request where
  method := "DELETE"
  target := "/indexes/AAAAA"

theorem deletion_final_justStarted :
    justStarted.StartsEmpty ∧ ∃ index : Index, index.publicId = "AAAAA" ∧
      (justStarted.respond atEpoch creation).1.registry.findLive index.publicId = some index ∧
      ((justStarted.respond atEpoch creation).1.respond atEpoch deletion).2 = deletedAnswer ∧
      ∀ s', ((justStarted.respond atEpoch creation).1.respond atEpoch deletion).1.Reaches s' →
        s'.AnswersAsGone index := by
  have hstart : justStarted.StartsEmpty := ⟨rfl, rfl, ⟨.keyValue, rfl⟩, rfl, rfl⟩
  have hcreated : ((justStarted.respond atEpoch creation).1.registry.findLive "AAAAA").isSome := by
    decide +kernel
  obtain ⟨index, hlive⟩ := Option.isSome_iff_exists.1 hcreated
  have hindex := Registry.publicId_of_findLive hlive
  rw [← hindex] at hlive
  have hroute : Http.Route.ofPath? true deletion.path = some (.index (Bytes.ofText "AAAAA")) := by
    decide +kernel
  have hid : Http.Route.parameter? (Bytes.ofText "AAAAA") = some index.publicId := by
    rw [hindex]
    decide +kernel
  obtain ⟨hanswer, hlater⟩ :=
    deletion_final hstart (.respond .start atEpoch creation) hlive rfl hroute hid atEpoch
  exact ⟨hstart, index, hindex, hlive, hanswer, fun s' hs' => (hlater s' hs').1⟩

end Service
end IndexVault
