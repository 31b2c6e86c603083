import IndexVault.Proofs.Service.ReferenceTables
import IndexVault.Proofs.Storage.AgreeingLines

/-! Indexes and tables do not interfere. A callback is answered from the one table that it names of the
one index that it names, and it changes that table and the size of that index at most. So the callbacks
on an index, or on one of its tables, are answered as if the others in the run had not been sent
(`callbacks_isolated`). -/
namespace IndexVault

/-- The same lines in the tables seen of an index, and the same size if all its tables are seen. -/
structure Contents.AgreeOn (i : IndexId) (seen : TableKind → Bool) (c d : Contents) : Prop where
  table : ∀ kind, seen kind → c.table i kind = d.table i kind
  size : (∀ kind, seen kind) → c.size i = d.size i

namespace Contents.AgreeOn

variable {i : IndexId} {seen : TableKind → Bool} {c d e : Contents}

theorem refl (c : Contents) : c.AgreeOn i seen c := ⟨fun _ _ => rfl, fun _ => rfl⟩

theorem symm (h : c.AgreeOn i seen d) : d.AgreeOn i seen c :=
  ⟨fun kind hseen => (h.table kind hseen).symm, fun hall => (h.size hall).symm⟩

theorem trans (h : c.AgreeOn i seen d) (h' : d.AgreeOn i seen e) : c.AgreeOn i seen e where
  table kind hseen := (h.table kind hseen).trans (h'.table kind hseen)
  size hall := (h.size hall).trans (h'.size hall)

/-- An upsert answers the same and leaves the same where the table it writes is the same. -/
theorem upsertEntries (h : c.AgreeOn i seen d) (hseen : seen .entries) (data : UpsertData) :
    (c.upsertEntries i data).2 = (d.upsertEntries i data).2 ∧
      (c.upsertEntries i data).1.AgreeOn i seen (d.upsertEntries i data).1 := by
  have hentries := h.table .entries hseen
  refine ⟨congrArg (EncryptedTable.rejections · data) hentries, ?_, ?_⟩
  · intro kind hkind
    by_cases hk : kind = .entries
    · subst hk
      rw [table_upsertEntries, table_upsertEntries, hentries]
    · have hne : ¬(i = i ∧ kind = .entries) := fun h => hk h.2
      rw [table_upsertEntries_of_ne c hne, table_upsertEntries_of_ne d hne]
      exact h.table kind hkind
  · intro hall
    have hsize := h.size hall
    simp only [Contents.upsertEntries, size_grow, size_setTable, if_true, hentries, hsize]

/-- So does an insertion. -/
theorem insertChains (h : c.AgreeOn i seen d) (hseen : seen .chains) (data : EncryptedTable) :
    (c.insertChains i data).AgreeOn i seen (d.insertChains i data) := by
  constructor
  · intro kind hkind
    by_cases hk : kind = .chains
    · subst hk
      rw [table_insertChains, table_insertChains, h.table .chains hseen]
    · have hne : ¬(i = i ∧ kind = .chains) := fun h => hk h.2
      rw [table_insertChains_of_ne c hne, table_insertChains_of_ne d hne]
      exact h.table kind hkind
  · intro hall
    have hsize := h.size hall
    simp only [Contents.insertChains, size_grow, size_setTable, if_true, hsize]

end Contents.AgreeOn

namespace Storage

/-- Both are open or both are closed, and what they hold agrees. -/
structure AgreeOn (i : IndexId) (seen : TableKind → Bool) (s t : Storage) : Prop where
  isOpen : s.isOpen = t.isOpen
  contents : s.contents.AgreeOn i seen t.contents

/-- A change to another table, or to one that is not looked at, is not seen. -/
theorem ChangesOnly.agreeOn {s s' : Storage} {i i' : IndexId} {kind : TableKind}
    {seen : TableKind → Bool} (h : s.ChangesOnly s' i' kind) (hopen : s'.isOpen = s.isOpen)
    (hunseen : i' = i → seen kind = false) : s.AgreeOn i seen s' := by
  refine ⟨hopen.symm, ?_, ?_⟩
  · intro k hk
    have hne : ¬(i = i' ∧ k = kind) := by
      rintro ⟨hi, rfl⟩
      rw [hunseen hi.symm] at hk
      cases hk
    exact (h.table i k hne).symm
  · -- The size counts both tables, so it is compared only where both are seen.
    intro hall
    have hne : i ≠ i' := by
      intro hi
      have hseen := hall kind
      rw [hunseen hi.symm] at hseen
      cases hseen
    exact (h.size i hne).symm

namespace AgreeOn

variable {i : IndexId} {seen : TableKind → Bool} {s t u : Storage}

theorem refl (s : Storage) : s.AgreeOn i seen s := ⟨rfl, .refl _⟩

theorem symm (h : s.AgreeOn i seen t) : t.AgreeOn i seen s := ⟨h.isOpen.symm, h.contents.symm⟩

theorem trans (h : s.AgreeOn i seen t) (h' : t.AgreeOn i seen u) : s.AgreeOn i seen u :=
  ⟨h.isOpen.trans h'.isOpen, h.contents.trans h'.contents⟩

theorem fetch (h : s.AgreeOn i seen t) {kind : TableKind} (hseen : seen kind) (uids : UidSet) :
    s.fetch i kind uids = t.fetch i kind uids := by
  apply fetch_congr h.isOpen
  intro uid _
  rw [h.contents.table kind hseen]

theorem upsertEntries (h : s.AgreeOn i seen t) (hseen : seen .entries) (data : UpsertData) :
    (∃ e, s.upsertEntries i data = .error e ∧ t.upsertEntries i data = .error e) ∨
      ∃ s' t' rejected, s.upsertEntries i data = .ok (s', rejected) ∧
        t.upsertEntries i data = .ok (t', rejected) ∧ s'.AgreeOn i seen t' := by
  rcases upsertEntries_both h.isOpen i data with
    ⟨hclosed, hclosed'⟩ | ⟨s', t', hopen, hdone, hdone', hcontents, hcontents'⟩
  · exact Or.inl ⟨closed, hclosed, hclosed'⟩
  · obtain ⟨hrejected, hagree⟩ := h.contents.upsertEntries hseen data
    rw [← hcontents, ← hcontents'] at hagree
    refine Or.inr ⟨s', t', _, hdone, ?_, hopen, hagree⟩
    rw [h.contents.table .entries hseen]
    exact hdone'

theorem insertChains (h : s.AgreeOn i seen t) (hseen : seen .chains) (data : EncryptedTable) :
    (∃ e, s.insertChains i data = .error e ∧ t.insertChains i data = .error e) ∨
      ∃ s' t', s.insertChains i data = .ok s' ∧ t.insertChains i data = .ok t' ∧
        s'.AgreeOn i seen t' := by
  rcases insertChains_both h.isOpen i data with
    ⟨hclosed, hclosed'⟩ | ⟨s', t', hopen, hdone, hdone', hcontents, hcontents'⟩
  · exact Or.inl ⟨closed, hclosed, hclosed'⟩
  · refine Or.inr ⟨s', t', hdone, hdone', hopen, ?_⟩
    rw [hcontents, hcontents']
    exact h.contents.insertChains hseen data

end AgreeOn
end Storage

namespace Http.Callback

/-- The table that a callback reads or writes. -/
def table : Callback → TableKind
  | fetchEntries | upsertEntries => .entries
  | fetchChains | insertChains => .chains

/-- What a callback on a public id may change: one table of the index that is found, and its size. -/
structure Touches (c : Callback) (publicId : String) (s s' : Service) : Prop where
  registry : s'.registry = s.registry
  bodyLimit : s'.bodyLimit = s.bodyLimit
  found : ∀ other, s'.found other = s.found other
  isOpen : s'.storage.isOpen = s.storage.isOpen
  storage : s'.storage = s.storage ∨ ∃ index, s.found publicId = .ok (some index) ∧
    s.storage.ChangesOnly s'.storage index.id c.table

end Http.Callback

theorem Service.found_looked (s : Service) (publicId other : String) :
    (s.looked other).found publicId = s.found publicId :=
  s.cache.lookup_after_lookup s.registry publicId other

namespace Http.Callback

theorem touches_refl (c : Callback) (publicId : String) (s : Service) : c.Touches publicId s s :=
  ⟨rfl, rfl, fun _ => rfl, rfl, Or.inl rfl⟩

theorem touches_looked (c : Callback) (publicId : String) (s : Service) :
    c.Touches publicId s (s.looked publicId) :=
  ⟨rfl, rfl, fun other => s.found_looked other publicId, rfl, Or.inl rfl⟩

theorem touches_fetch (w : Surroundings) (kind : TableKind) (publicId : String) (body : Bytes)
    (s : Service) :
    (fetching kind).Touches publicId s ((fetch w kind publicId body).run s).2 := by
  have hlooked := (fetching kind).touches_looked publicId s
  rw [run_fetch]
  split
  · exact hlooked
  · rename_i index uids hopened
    split
    · exact hlooked
    · rename_i found hfound
      obtain ⟨log, hlog⟩ := recorded_eq w kind uids found (s.looked publicId)
      rw [hlog]
      exact ⟨hlooked.registry, hlooked.bodyLimit, hlooked.found, hlooked.isOpen, hlooked.storage⟩

theorem touches_upsert (w : Surroundings) (publicId : String) (body : Bytes) (s : Service) :
    upsertEntries.Touches publicId s ((upsert w publicId body).run s).2 := by
  have hlooked := upsertEntries.touches_looked publicId s
  rw [run_upsert]
  split
  · exact hlooked
  · rename_i index batch hopened
    split
    · exact hlooked
    · rename_i storage rejected hdone
      have hfound := (openedBy_eq_ok_iff.1 hopened).1
      have hopen := (Storage.upsertEntries_eq_ok hdone).1
      exact ⟨hlooked.registry, hlooked.bodyLimit, hlooked.found,
        hopen.trans (Storage.isOpen_of_upsertEntries hdone).symm,
        Or.inr ⟨index, hfound, Storage.changesOnly_of_upsertEntries hdone⟩⟩

theorem touches_insert (w : Surroundings) (publicId : String) (body : Bytes) (s : Service) :
    insertChains.Touches publicId s ((insert w publicId body).run s).2 := by
  have hlooked := insertChains.touches_looked publicId s
  rw [run_insert]
  split
  · exact hlooked
  · rename_i index chains hopened
    split
    · exact hlooked
    · rename_i storage hdone
      have hfound := (openedBy_eq_ok_iff.1 hopened).1
      have hopen := (Storage.insertChains_eq_ok hdone).1
      exact ⟨hlooked.registry, hlooked.bodyLimit, hlooked.found,
        hopen.trans (Storage.isOpen_of_insertChains hdone).symm,
        Or.inr ⟨index, hfound, Storage.changesOnly_of_insertChains hdone⟩⟩

/-- A callback touches the one table that it names of the one index that it names. -/
theorem touches_perform (w : Surroundings) (c : Callback) (publicId : String) (body : Bytes)
    (s : Service) : c.Touches publicId s ((c.perform w publicId body).run s).2 := by
  cases c with
  | fetchEntries => exact touches_fetch w .entries publicId body s
  | fetchChains => exact touches_fetch w .chains publicId body s
  | upsertEntries => exact touches_upsert w publicId body s
  | insertChains => exact touches_insert w publicId body s

end Http.Callback

namespace Service

/-- What callbacks on the tables seen of an index are answered from is the same. -/
structure AgreeOn (publicId : String) (i : IndexId) (seen : TableKind → Bool) (s t : Service) :
    Prop where
  found : s.found publicId = t.found publicId
  bodyLimit : s.bodyLimit = t.bodyLimit
  storage : s.storage.AgreeOn i seen t.storage

/-- A public id is found as one index, if it is found at all. -/
structure Hosts (s : Service) (publicId : String) (index : Index) : Prop where
  coherent : s.Coherent
  numbered : s.registry.Numbered
  live : s.registry.findLive publicId = some index

namespace Hosts

variable {s : Service} {publicId other : String} {index found : Index}

/-- A lookup of a public id finds the index that is hosted under it. -/
theorem eq_of_found (h : s.Hosts publicId index) (hfound : s.found publicId = .ok (some found)) :
    found = index := by
  have hlive := IndexCache.Coherent.eq_findLive h.coherent hfound
  rw [h.live] at hlive
  exact Option.some.inj hlive

/-- Other public ids lead to other numbers. -/
theorem eq_of_id_eq (h : s.Hosts publicId index) (hfound : s.found other = .ok (some found))
    (hid : found.id = index.id) : other = publicId := by
  have hlive := IndexCache.Coherent.eq_findLive h.coherent hfound
  exact h.numbered.eq_of_id_eq hlive.symm h.live hid

end Hosts

namespace AgreeOn

variable {publicId other : String} {i : IndexId} {seen : TableKind → Bool} {s s' t u : Service}
  {c : Http.Callback}

theorem refl (s : Service) : AgreeOn publicId i seen s s := ⟨rfl, rfl, .refl _⟩

theorem symm (h : AgreeOn publicId i seen s t) : AgreeOn publicId i seen t s :=
  ⟨h.found.symm, h.bodyLimit.symm, h.storage.symm⟩

theorem trans (h : AgreeOn publicId i seen s t) (h' : AgreeOn publicId i seen t u) :
    AgreeOn publicId i seen s u :=
  ⟨h.found.trans h'.found, h.bodyLimit.trans h'.bodyLimit, h.storage.trans h'.storage⟩

theorem looked (h : AgreeOn publicId i seen s t) (other : String) :
    AgreeOn publicId i seen (s.looked other) (t.looked other) := by
  refine ⟨?_, h.bodyLimit, h.storage⟩
  rw [found_looked, found_looked, h.found]

/-- A callback on a table that is not looked at changes nothing that is seen. -/
theorem of_touches (h : c.Touches other s s')
    (hunseen : ∀ index, s.found other = .ok (some index) → index.id = i → seen c.table = false) :
    AgreeOn publicId i seen s s' := by
  refine ⟨(h.found publicId).symm, h.bodyLimit.symm, ?_⟩
  rcases h.storage with hsame | ⟨index, hfound, honly⟩
  · rw [hsame]
    exact .refl _
  · exact honly.agreeOn h.isOpen (hunseen index hfound)

variable (h : AgreeOn publicId i seen s t)
  (hi : ∀ index, s.found publicId = .ok (some index) → index.id = i)

include h hi

theorem fetch {kind : TableKind} (hseen : seen kind) (w : Surroundings) (body : Bytes) :
    ((Http.Callback.fetch w kind publicId body).run s).1 =
        ((Http.Callback.fetch w kind publicId body).run t).1 ∧
      AgreeOn publicId i seen ((Http.Callback.fetch w kind publicId body).run s).2
        ((Http.Callback.fetch w kind publicId body).run t).2 := by
  have hlooked := h.looked publicId
  rw [Http.Callback.run_fetch, Http.Callback.run_fetch, ← h.found]
  split
  · exact ⟨rfl, hlooked⟩
  · rename_i index uids hopened
    rw [hi index (Http.Callback.openedBy_eq_ok_iff.1 hopened).1, ← h.storage.fetch hseen uids]
    split
    · exact ⟨rfl, hlooked⟩
    · rename_i found hfound
      -- The logs may differ, but nothing is answered from them here.
      obtain ⟨log, hlog⟩ := Http.Callback.recorded_eq w kind uids found (s.looked publicId)
      obtain ⟨log', hlog'⟩ := Http.Callback.recorded_eq w kind uids found (t.looked publicId)
      rw [hlog, hlog']
      exact ⟨rfl, hlooked.found, hlooked.bodyLimit, hlooked.storage⟩

theorem upsert (hseen : seen .entries) (w : Surroundings) (body : Bytes) :
    ((Http.Callback.upsert w publicId body).run s).1 =
        ((Http.Callback.upsert w publicId body).run t).1 ∧
      AgreeOn publicId i seen ((Http.Callback.upsert w publicId body).run s).2
        ((Http.Callback.upsert w publicId body).run t).2 := by
  have hlooked := h.looked publicId
  rw [Http.Callback.run_upsert, Http.Callback.run_upsert, ← h.found]
  split
  · exact ⟨rfl, hlooked⟩
  · rename_i index batch hopened
    rw [hi index (Http.Callback.openedBy_eq_ok_iff.1 hopened).1]
    rcases h.storage.upsertEntries hseen batch with
      ⟨e, hfailed, hfailed'⟩ | ⟨storage, storage', rejected, hdone, hdone', hagree⟩
    · rw [hfailed, hfailed']
      exact ⟨rfl, hlooked⟩
    · rw [hdone, hdone']
      exact ⟨rfl, hlooked.found, hlooked.bodyLimit, hagree⟩

theorem insert (hseen : seen .chains) (w : Surroundings) (body : Bytes) :
    ((Http.Callback.insert w publicId body).run s).1 =
        ((Http.Callback.insert w publicId body).run t).1 ∧
      AgreeOn publicId i seen ((Http.Callback.insert w publicId body).run s).2
        ((Http.Callback.insert w publicId body).run t).2 := by
  have hlooked := h.looked publicId
  rw [Http.Callback.run_insert, Http.Callback.run_insert, ← h.found]
  split
  · exact ⟨rfl, hlooked⟩
  · rename_i index chains hopened
    rw [hi index (Http.Callback.openedBy_eq_ok_iff.1 hopened).1]
    rcases h.storage.insertChains hseen chains with
      ⟨e, hfailed, hfailed'⟩ | ⟨storage, storage', hdone, hdone', hagree⟩
    · rw [hfailed, hfailed']
      exact ⟨rfl, hlooked⟩
    · rw [hdone, hdone']
      exact ⟨rfl, hlooked.found, hlooked.bodyLimit, hagree⟩

/-- A callback on a table that is looked at answers the same where that is the same, and leaves it the same.
-/
theorem perform (hseen : seen c.table) (w : Surroundings) (body : Bytes) :
    ((c.perform w publicId body).run s).1 = ((c.perform w publicId body).run t).1 ∧
      AgreeOn publicId i seen ((c.perform w publicId body).run s).2
        ((c.perform w publicId body).run t).2 := by
  cases c with
  | fetchEntries => exact h.fetch hi hseen w body
  | fetchChains => exact h.fetch hi hseen w body
  | upsertEntries => exact h.upsert hi hseen w body
  | insertChains => exact h.insert hi hseen w body

end AgreeOn
end Service

/-- The public id and the callback that a request is for, if it is for one. -/
def Http.Request.callback? (r : Http.Request) : Option (String × Http.Callback) :=
  if r.method = "POST" then
    match Http.Route.ofPath? false r.path with
    | some (.callback c id) => (Http.Route.parameter? id).map (·, c)
    | _ => none
  else none

/-- A request is sent to the path of a callback. -/
def Http.Request.IsCallback (r : Http.Request) : Prop :=
  r.method = "POST" ∧ ∃ (c : Callback) (id : Bytes),
    Route.segments r.path = [Bytes.ofText "indexes", id, Bytes.ofText c.name]

/-- A request is a callback on one of some tables of an index. -/
def Http.Request.concerns (publicId : String) (seen : TableKind → Bool) (r : Http.Request) : Bool :=
  match r.callback? with
  | some (p, c) => p == publicId && seen c.table
  | none => false

/-- The path of a callback names its public id, if that is text. -/
theorem Http.Request.callback?_of_path {r : Http.Request} {id : Bytes} {c : Http.Callback}
    (hmethod : r.method = "POST")
    (hpath : Http.Route.segments r.path = [Bytes.ofText "indexes", id, Bytes.ofText c.name]) :
    r.callback? = (Http.Route.parameter? id).map (·, c) := by
  have hroute : Http.Route.ofPath? false r.path = some (.callback c id) :=
    Http.Route.ofPath?_eq_callback_iff.2 hpath
  rw [callback?, if_pos hmethod, hroute]

theorem Http.Request.of_callback? {r : Http.Request} {publicId : String} {c : Http.Callback}
    (h : r.callback? = some (publicId, c)) :
    r.method = "POST" ∧ ∃ id, Http.Route.parameter? id = some publicId ∧
      Http.Route.segments r.path = [Bytes.ofText "indexes", id, Bytes.ofText c.name] := by
  unfold callback? at h
  split at h
  · rename_i hmethod
    split at h
    · rename_i c' id hroute
      obtain ⟨p, hid, hp⟩ := Option.map_eq_some_iff.1 h
      cases hp
      exact ⟨hmethod, id, hid, Http.Route.ofPath?_eq_callback_iff.1 hroute⟩
    · cases h
  · cases h

namespace Service

/-- The answers to those requests of a run that are selected. -/
def answersTo (s : Service) (selects : Http.Request → Bool)
    (calls : List (Surroundings × Http.Request)) : List Http.Response :=
  ((calls.zip (s.respondAll calls).2).filter fun answered => selects answered.1.2).map Prod.snd

variable {s t : Service} {publicId : String} {seen : TableKind → Bool} {w : Surroundings}
  {r : Http.Request} {c : Http.Callback} {index : Index}

theorem answersTo_cons_of_pos {selects : Http.Request → Bool} (h : selects r = true)
    (later : List (Surroundings × Http.Request)) :
    s.answersTo selects ((w, r) :: later) =
      (s.respond w r).2 :: (s.respond w r).1.answersTo selects later := by
  rw [answersTo, respondAll, List.zip_cons_cons, List.filter_cons]
  exact congrArg (List.map Prod.snd) (if_pos h)

theorem answersTo_cons_of_neg {selects : Http.Request → Bool} (h : selects r = false)
    (later : List (Surroundings × Http.Request)) :
    s.answersTo selects ((w, r) :: later) = (s.respond w r).1.answersTo selects later := by
  rw [answersTo, respondAll, List.zip_cons_cons, List.filter_cons]
  exact congrArg (List.map Prod.snd) (if_neg (Bool.eq_false_iff.1 h))

/-- A callback is answered as it performs, if its body is within the limit. -/
theorem respond_of_callback? (h : r.callback? = some (publicId, c)) (s : Service)
    (w : Surroundings) :
    s.respond w r =
      if r.body.length ≤ s.bodyLimit then
        (((c.perform w publicId r.body).run s).2,
          { Http.answered ((c.perform w publicId r.body).run s).1 with allowOrigin := some "*" })
      else (s, { Http.Response.text "length limit exceeded" 413 with allowOrigin := some "*" }) := by
  obtain ⟨hmethod, id, hid, hpath⟩ := Http.Request.of_callback? h
  rw [respond_callback hmethod hpath, carryOut_eq]
  by_cases hlimit : r.body.length ≤ s.bodyLimit
  · rw [if_pos hlimit, Http.Callback.run_answer hid hlimit]
  · rw [if_neg hlimit, Http.Callback.run_answer_of_long hid (by omega)]
    rfl

/-- A callback is for a public id, or its path names none and it is refused at once. -/
theorem respond_of_isCallback {r : Http.Request} (hr : r.IsCallback) :
    (∃ publicId c, r.callback? = some (publicId, c)) ∨
      ∃ answer, ∀ (s : Service) w, s.respond w r = (s, answer) := by
  obtain ⟨hmethod, c, id, hpath⟩ := hr
  have hcallback := Http.Request.callback?_of_path hmethod hpath
  cases hid : Http.Route.parameter? id with
  | some publicId =>
    rw [hid] at hcallback
    exact Or.inl ⟨publicId, c, hcallback⟩
  | none =>
    refine Or.inr ⟨{ Http.answered (.error (.rejection 400 "Invalid UTF-8 in path parameter")) with
      allowOrigin := some "*" }, fun s w => ?_⟩
    rw [respond_callback hmethod hpath, carryOut_eq, Http.Callback.run_answer_of_unnamed hid]

/-- No callback changes more than it names. -/
theorem touches_respond (h : r.callback? = some (publicId, c)) (s : Service) (w : Surroundings) :
    c.Touches publicId s (s.respond w r).1 := by
  rw [respond_of_callback? h]
  split
  · exact c.touches_perform w publicId r.body s
  · exact c.touches_refl publicId s

/-- The answer to a callback depends on what is looked at, and on nothing else. -/
theorem AgreeOn.respond {i : IndexId} (hagree : AgreeOn publicId i seen s t)
    (hi : ∀ index, s.found publicId = .ok (some index) → index.id = i)
    (h : r.callback? = some (publicId, c)) (hseen : seen c.table) (w : Surroundings) :
    (s.respond w r).2 = (t.respond w r).2 ∧
      AgreeOn publicId i seen (s.respond w r).1 (t.respond w r).1 := by
  rw [respond_of_callback? h, respond_of_callback? h, ← hagree.bodyLimit]
  split
  · obtain ⟨hanswer, hafter⟩ := hagree.perform hi hseen w r.body
    rw [hanswer]
    exact ⟨rfl, hafter⟩
  · exact ⟨rfl, hagree⟩

/-- A hosted index stays hosted. -/
theorem Hosts.respond (hs : s.Hosts publicId index) {p : String} (h : r.callback? = some (p, c))
    (w : Surroundings) : (s.respond w r).1.Hosts publicId index := by
  have hregistry := (touches_respond h s w).registry
  refine ⟨(Continues.of_respond hs.coherent w r).coherent hs.coherent, ?_, ?_⟩
  · rw [hregistry]
    exact hs.numbered
  · rw [hregistry]
    exact hs.live

/-- A callback on another index, or on a table that is not seen, changes nothing that is seen. -/
theorem AgreeOn.of_unconcerned (hs : s.Hosts publicId index) {p : String}
    (h : r.callback? = some (p, c)) (hr : r.concerns publicId seen = false) (w : Surroundings) :
    AgreeOn publicId index.id seen s (s.respond w r).1 := by
  apply AgreeOn.of_touches (touches_respond h s w)
  intro found hfound hid
  have hp := hs.eq_of_id_eq hfound hid
  rw [Http.Request.concerns, h, hp] at hr
  simpa using hr

/-- By induction on the run: a callback that is left out was not seen, and one that is kept is answered the
same. -/
theorem respondAll_agreeOn {calls : List (Surroundings × Http.Request)}
    {keep : Surroundings × Http.Request → Bool} (hagree : AgreeOn publicId index.id seen s t)
    (hs : s.Hosts publicId index) (ht : t.Hosts publicId index)
    (hcalls : ∀ call ∈ calls, call.2.callback?.isSome)
    (hkeep : ∀ call ∈ calls, call.2.concerns publicId seen → keep call) :
    s.answersTo (Http.Request.concerns publicId seen) calls =
        t.answersTo (Http.Request.concerns publicId seen) (calls.filter keep) ∧
      AgreeOn publicId index.id seen (s.respondAll calls).1 (t.respondAll (calls.filter keep)).1 := by
  induction calls generalizing s t with
  | nil => exact ⟨rfl, hagree⟩
  | cons call later ih =>
    obtain ⟨w, r⟩ := call
    obtain ⟨⟨p, c⟩, hr⟩ := Option.isSome_iff_exists.1 (hcalls (w, r) List.mem_cons_self)
    have hlater := fun call hmem => hcalls call (List.mem_cons_of_mem (w, r) hmem)
    have hkept := fun call hmem => hkeep call (List.mem_cons_of_mem (w, r) hmem)
    have hs' := hs.respond hr w
    have ht' := ht.respond hr w
    cases hconcerns : r.concerns publicId seen with
    | true =>
      -- The request is in both runs: it is answered alike, and the services go on to agree.
      have hfor : p = publicId ∧ seen c.table = true := by
        rw [Http.Request.concerns, hr] at hconcerns
        simpa using hconcerns
      obtain ⟨rfl, hseen⟩ := hfor
      obtain ⟨hanswer, hafter⟩ :=
        hagree.respond (fun found hfound => congrArg Index.id (hs.eq_of_found hfound)) hr hseen w
      obtain ⟨hanswers, hlast⟩ := ih hafter hs' ht' hlater hkept
      rw [List.filter_cons_of_pos (hkeep (w, r) List.mem_cons_self hconcerns),
        answersTo_cons_of_pos hconcerns, answersTo_cons_of_pos hconcerns, hanswer, hanswers]
      exact ⟨rfl, hlast⟩
    | false =>
      -- The request is seen in neither run, whether it is kept or not.
      have hstep := (AgreeOn.of_unconcerned hs hr hconcerns w).symm
      rw [answersTo_cons_of_neg hconcerns]
      cases hkeeps : keep (w, r) with
      | true =>
        have hstep' := AgreeOn.of_unconcerned ht hr hconcerns w
        rw [List.filter_cons_of_pos hkeeps, answersTo_cons_of_neg hconcerns]
        exact ih ((hstep.trans hagree).trans hstep') hs' ht' hlater hkept
      | false =>
        rw [List.filter_cons_of_neg (by simp [hkeeps])]
        exact ih (hstep.trans hagree) hs' ht hlater hkept

theorem Reaches.numbered {start s : Service} (h : start.Reaches s)
    (hstart : start.cache.entries = ∅) (hnumbered : start.registry.Numbered) :
    s.registry.Numbered := by
  induction h with
  | start => exact hnumbered
  | respond hs w r ih => exact (Continues.of_respond (hs.coherent hstart) w r).numbered ih

/-- Whatever a service that started with an empty cache was asked before, take a run of callbacks and leave
out any of them that are for other indexes: the other ones are answered the same, and the tables and the
size of their index end the same. Leave out any of them that are for other tables too: those on the one
table are answered the same, and it ends the same. Sizes are taken to stay below `2 ^ 63`. -/
theorem callbacks_isolated {start s : Service} (hstart : start.cache.entries = ∅)
    (hnumbered : start.registry.Numbered) (hs : start.Reaches s) {publicId : String} {index : Index}
    (hlive : s.registry.findLive publicId = some index)
    {calls : List (Surroundings × Http.Request)}
    (hcalls : ∀ call ∈ calls, call.2.callback?.isSome) (keep : Surroundings × Http.Request → Bool) :
    ((∀ call ∈ calls, call.2.concerns publicId (fun _ => true) → keep call) →
      s.answersTo (Http.Request.concerns publicId fun _ => true) calls =
          s.answersTo (Http.Request.concerns publicId fun _ => true) (calls.filter keep) ∧
        (∀ kind, (s.respondAll calls).1.storage.contents.table index.id kind =
          (s.respondAll (calls.filter keep)).1.storage.contents.table index.id kind) ∧
        (s.respondAll calls).1.storage.contents.size index.id =
          (s.respondAll (calls.filter keep)).1.storage.contents.size index.id) ∧
    ∀ kind, (∀ call ∈ calls, call.2.concerns publicId (· == kind) → keep call) →
      s.answersTo (Http.Request.concerns publicId (· == kind)) calls =
          s.answersTo (Http.Request.concerns publicId (· == kind)) (calls.filter keep) ∧
        (s.respondAll calls).1.storage.contents.table index.id kind =
          (s.respondAll (calls.filter keep)).1.storage.contents.table index.id kind := by
  have hhosts : s.Hosts publicId index :=
    ⟨hs.coherent hstart, hs.numbered hstart hnumbered, hlive⟩
  constructor
  · intro hkeep
    obtain ⟨hanswers, hlast⟩ := respondAll_agreeOn (.refl s) hhosts hhosts hcalls hkeep
    exact ⟨hanswers, fun kind => hlast.storage.contents.table kind rfl,
      hlast.storage.contents.size fun _ => rfl⟩
  · intro kind hkeep
    obtain ⟨hanswers, hlast⟩ := respondAll_agreeOn (.refl s) hhosts hhosts hcalls hkeep
    exact ⟨hanswers, hlast.storage.contents.table kind (beq_self_eq_true kind)⟩

/-- A service with two live indexes and empty tables. -/
def withTwoIndexes : Service where
  registry.rows := [onlyIndex, { onlyIndex with id := 2, publicId := "fghij" }]

/-- Callbacks on both tables of one index, and the second one again on another index. -/
def mixedCalls : List (Surroundings × Http.Request) :=
  let upsert := (TableCall.upsert (.ofList [(zeroUid, ⟨none, [7]⟩)])).signed.sent
  let insert := (TableCall.insert (.ofList [(zeroUid, [8])])).signed.sent
  [upsert, insert, (atEpoch, { insert.2 with target := "/indexes/fghij/insert_chains" })]

theorem callbacks_isolated_withTwoIndexes :
    withTwoIndexes.cache.entries = ∅ ∧ withTwoIndexes.registry.Numbered ∧
      withTwoIndexes.Reaches withTwoIndexes ∧
      withTwoIndexes.registry.findLive "abcde" = some onlyIndex ∧
      (∀ call ∈ mixedCalls, call.2.callback?.isSome) ∧
      withTwoIndexes.answersTo (Http.Request.concerns "abcde" fun _ => true) mixedCalls =
        withTwoIndexes.answersTo (Http.Request.concerns "abcde" fun _ => true)
          (mixedCalls.filter fun call => call.2.concerns "abcde" fun _ => true) ∧
      withTwoIndexes.answersTo (Http.Request.concerns "abcde" (· == .entries)) mixedCalls =
        withTwoIndexes.answersTo (Http.Request.concerns "abcde" (· == .entries))
          (mixedCalls.filter fun call => call.2.concerns "abcde" (· == .entries)) := by
  have hnumbered : withTwoIndexes.registry.Numbered := by
    intro n i hi
    match n, hi with
    | 0, rfl => rfl
    | 1, rfl => rfl
  have hcalls : ∀ call ∈ mixedCalls, call.2.callback?.isSome := by decide +kernel
  refine ⟨rfl, hnumbered, .start, rfl, hcalls, ?_, ?_⟩
  · exact ((callbacks_isolated rfl hnumbered .start rfl hcalls _).1 fun _ _ h => h).1
  · exact ((callbacks_isolated rfl hnumbered .start rfl hcalls _).2 .entries fun _ _ h => h).1

end Service
end IndexVault
