import IndexVault.Proofs.Service.QuietActions
import IndexVault.Proofs.SignedBody

namespace IndexVault

open IndexVault.Action
open Service (LeavesStorage)

namespace Http

namespace Callback

theorem ofName?_name (c : Callback) : ofName? (Bytes.ofText c.name) = some c := by
  cases c <;> rfl

/-- The last word of a path names one callback at most. -/
theorem ofName?_eq_some_iff {name : Bytes} {c : Callback} :
    ofName? name = some c ↔ name = Bytes.ofText c.name := by
  constructor
  · intro h
    rw [ofName?] at h
    have hname := List.find?_some h
    exact (of_decide_eq_true hname).symm
  · rintro rfl
    exact ofName?_name c

end Callback

/-- The paths of callbacks are the same whether requests are logged or not. -/
theorem Route.ofPath?_eq_callback_iff {logged : Bool} {path id : Bytes} {c : Callback} :
    ofPath? logged path = some (.callback c id) ↔
      segments path = [Bytes.ofText "indexes", id, Bytes.ofText c.name] := by
  unfold ofPath?
  constructor
  · intro h
    -- Of the shapes of a path only the one of three parts leads to a callback.
    split at h
    · split_ifs at h <;> cases h
    · split_ifs at h <;> cases h
    · rename_i a b last hsegments
      split at h
      · rename_i hword
        obtain ⟨c', hname, hroute⟩ := Option.map_eq_some_iff.1 h
        cases hroute
        rw [hsegments, ← eq_of_beq hword, Callback.ofName?_eq_some_iff.1 hname]
      · cases h
    · cases h
  · intro h
    rw [h]
    simp only [word, beq_self_eq_true, if_true, Callback.ofName?_name]
    rfl

namespace Callback

/-- A body that a callback takes: it is for a live index, it was signed for that index with the seed of
the callback, and it is not expired. -/
structure Admits (c : Callback) (w : Surroundings) (s : Service) (publicId : String)
    (body : Bytes) (index : Index) (data : Bytes) : Prop where
  live : s.registry.findLive publicId = some index
  signed : SignedBody.check body index.publicId (c.seed index) w.seconds = .ok data

variable {α : Type} {w : Surroundings} {c : Callback} {publicId : String} {body data : Bytes}
  {read : Bytes → Except PayloadError α} {s s' : Service} {index : Index} {lines : α}

/-- What a body opens to, once the index of its public id was looked up. -/
def openedBy (w : Surroundings) (c : Callback) (read : Bytes → Except PayloadError α)
    (publicId : String) (body : Bytes) :
    Except Failure (Option Index) → Except Refusal (Index × α)
  | .error e => .error (.failure e)
  | .ok none => .error (.failure (.unknownIndex publicId))
  | .ok (some index) =>
    match SignedBody.check body index.publicId (c.seed index) w.seconds with
    | .error e => .error (.failure (.ofSignature e))
    | .ok data =>
      match read data with
      | .error e => .error (.failure (.payload e))
      | .ok lines => .ok (index, lines)

/-- A body is opened only for a live index, for which it was signed and not yet expired, and only when its
data reads completely. -/
theorem openedBy_eq_ok_iff {row : Except Failure (Option Index)} :
    openedBy w c read publicId body row = .ok (index, lines) ↔
      row = .ok (some index) ∧
        ∃ data, SignedBody.check body index.publicId (c.seed index) w.seconds = .ok data ∧
          read data = .ok lines := by
  constructor
  · intro h
    unfold openedBy at h
    split at h
    · cases h
    · cases h
    · split at h
      · cases h
      · rename_i hcheck
        split at h
        · cases h
        · rename_i hread
          cases h
          exact ⟨rfl, _, hcheck, hread⟩
  · rintro ⟨rfl, data, hcheck, hread⟩
    simp only [openedBy, hcheck, hread]

/-- Whatever a body opens to, the index that was looked up stays cached. -/
theorem run_opened (w : Surroundings) (c : Callback) (read : Bytes → Except PayloadError α)
    (publicId : String) (body : Bytes) (s : Service) :
    (opened w c read publicId body).run s =
      (openedBy w c read publicId body (s.found publicId), s.looked publicId) := by
  -- `opened` stops at the look-up, at the check, or at the reading of what was signed
  have hindex := run_cachedIndex s publicId
  rw [Service.found]
  cases hrow : (s.cache.lookup s.registry publicId).2 with
  | error e =>
    rw [hrow] at hindex
    rw [opened, verified, Attempt.run_bind_of_error (Attempt.run_bind_of_error hindex)]
    rfl
  | ok row =>
    rw [hrow] at hindex
    cases row with
    | none =>
      rw [opened, verified, Attempt.run_bind_of_error (Attempt.run_bind_of_error hindex)]
      rfl
    | some index =>
      cases hcheck : SignedBody.check body index.publicId (c.seed index) w.seconds with
      | error e =>
        have hverified : (verified w c publicId body).run s =
            (.error (.failure (.ofSignature e)), s.looked publicId) := by
          rw [verified, Attempt.run_bind_of_ok hindex, hcheck]
          rfl
        rw [opened, Attempt.run_bind_of_error hverified]
        simp only [openedBy, hcheck]
      | ok data =>
        have hverified : (verified w c publicId body).run s =
            (.ok (index, data), s.looked publicId) := by
          rw [verified, Attempt.run_bind_of_ok hindex, hcheck]
          rfl
        rw [opened, Attempt.run_bind_of_ok hverified]
        cases hread : read data with
        | error e =>
          simp only [openedBy, hcheck, hread]
          rfl
        | ok lines =>
          simp only [openedBy, hcheck, hread]
          rfl

/-- A body that is admitted and whose data reads is opened. -/
theorem openedBy_of_admits (hs : s.Coherent) (hr : s.registry.ready = .ok ())
    (h : c.Admits w s publicId body index data) (hread : read data = .ok lines) :
    openedBy w c read publicId body (s.found publicId) = .ok (index, lines) := by
  have hfound : s.found publicId = .ok (some index) := by
    rw [Service.found, IndexCache.Coherent.lookup_of_ready hs hr publicId, h.live]
  exact openedBy_eq_ok_iff.2 ⟨hfound, data, h.signed, hread⟩

/-- The lines of a body can be had only from one that the callback admits. -/
theorem admits_of_openedBy (hs : s.Coherent)
    (h : openedBy w c read publicId body (s.found publicId) = .ok (index, lines)) :
    ∃ data, c.Admits w s publicId body index data ∧ read data = .ok lines := by
  obtain ⟨hfound, data, hcheck, hread⟩ := openedBy_eq_ok_iff.1 h
  have hlive := IndexCache.Coherent.eq_findLive hs hfound
  exact ⟨data, ⟨hlive.symm, hcheck⟩, hread⟩

/-- A record changes nothing but the log. -/
theorem recorded_eq (w : Surroundings) (kind : TableKind) (uids : UidSet) (found : EncryptedTable)
    (s : Service) : ∃ log, recorded w kind uids found s = { s with log := log } := by
  unfold recorded
  split
  · exact ⟨s.log, rfl⟩
  · exact ⟨some _, rfl⟩

/-- A fetch by what its body opens to, and by what the storage does in the state that the lookup has left;
`run_upsert` and `run_insert` say the same of the other two kinds. -/
theorem run_fetch (w : Surroundings) (kind : TableKind) (publicId : String) (body : Bytes)
    (s : Service) :
    (fetch w kind publicId body).run s =
      match openedBy w (fetching kind) Wire.readUidSet publicId body (s.found publicId) with
      | .error e => (.error e, s.looked publicId)
      | .ok (index, uids) =>
        match s.storage.fetch index.id kind uids with
        | .error e => (.error (.failure e), s.looked publicId)
        | .ok found =>
          (.ok (.octets (Wire.writeTable found w.order)),
            recorded w kind uids found (s.looked publicId)) := by
  have hrun := run_opened w (fetching kind) Wire.readUidSet publicId body s
  cases hopened : openedBy w (fetching kind) Wire.readUidSet publicId body (s.found publicId) with
  | error e =>
    rw [hopened] at hrun
    rw [fetch, Attempt.run_bind_of_error hrun]
  | ok x =>
    obtain ⟨index, uids⟩ := x
    rw [hopened] at hrun
    dsimp only
    rw [fetch, Attempt.run_bind_of_ok hrun]
    change (ofResult (s.storage.fetch index.id kind uids) >>= _).run (s.looked publicId) = _
    cases s.storage.fetch index.id kind uids <;> rfl

theorem run_upsert (w : Surroundings) (publicId : String) (body : Bytes) (s : Service) :
    (upsert w publicId body).run s =
      match openedBy w .upsertEntries Wire.readUpsertData publicId body (s.found publicId) with
      | .error e => (.error e, s.looked publicId)
      | .ok (index, batch) =>
        match s.storage.upsertEntries index.id batch with
        | .error e => (.error (.failure e), s.looked publicId)
        | .ok (storage, rejected) =>
          (.ok (.octets (Wire.writeTable rejected w.order)),
            { s.looked publicId with storage := storage }) := by
  have hrun := run_opened w .upsertEntries Wire.readUpsertData publicId body s
  cases hopened : openedBy w .upsertEntries Wire.readUpsertData publicId body
      (s.found publicId) with
  | error e =>
    rw [hopened] at hrun
    rw [upsert, Attempt.run_bind_of_error hrun]
  | ok x =>
    obtain ⟨index, batch⟩ := x
    rw [hopened] at hrun
    dsimp only
    rw [upsert, Attempt.run_bind_of_ok hrun]
    change (ofResult (s.storage.upsertEntries index.id batch) >>= _).run (s.looked publicId) = _
    cases s.storage.upsertEntries index.id batch <;> rfl

theorem run_insert (w : Surroundings) (publicId : String) (body : Bytes) (s : Service) :
    (insert w publicId body).run s =
      match openedBy w .insertChains Wire.readTable publicId body (s.found publicId) with
      | .error e => (.error e, s.looked publicId)
      | .ok (index, chains) =>
        match s.storage.insertChains index.id chains with
        | .error e => (.error (.failure e), s.looked publicId)
        | .ok storage => (.ok (.ok .null), { s.looked publicId with storage := storage }) := by
  have hrun := run_opened w .insertChains Wire.readTable publicId body s
  cases hopened : openedBy w .insertChains Wire.readTable publicId body (s.found publicId) with
  | error e =>
    rw [hopened] at hrun
    rw [insert, Attempt.run_bind_of_error hrun]
  | ok x =>
    obtain ⟨index, chains⟩ := x
    rw [hopened] at hrun
    dsimp only
    rw [insert, Attempt.run_bind_of_ok hrun]
    change (ofResult (s.storage.insertChains index.id chains) >>= _).run (s.looked publicId) = _
    cases s.storage.insertChains index.id chains <;> rfl

/-- A fetch answers the lines that the storage finds, once its body is admitted and read. -/
theorem run_fetch_of_admits (hs : s.Coherent) (hr : s.registry.ready = .ok ()) {kind : TableKind}
    {uids : UidSet} {found : EncryptedTable}
    (h : (fetching kind).Admits w s publicId body index data)
    (hread : Wire.readUidSet data = .ok uids)
    (hdone : s.storage.fetch index.id kind uids = .ok found) :
    (fetch w kind publicId body).run s =
      (.ok (.octets (Wire.writeTable found w.order)),
        recorded w kind uids found (s.looked publicId)) := by
  rw [run_fetch, openedBy_of_admits hs hr h hread]
  simp only [hdone]

/-- An insertion stores what its body reads as, once that is admitted. -/
theorem run_insert_of_admits (hs : s.Coherent) (hr : s.registry.ready = .ok ())
    {chains : EncryptedTable} {storage : Storage} (h : insertChains.Admits w s publicId body index data)
    (hread : Wire.readTable data = .ok chains)
    (hdone : s.storage.insertChains index.id chains = .ok storage) :
    (insert w publicId body).run s =
      (.ok (.ok .null), { s.looked publicId with storage := storage }) := by
  rw [run_insert, openedBy_of_admits hs hr h hread]
  simp only [hdone]

/-- Without an index every callback ends alike. -/
theorem run_perform_of_unknown (h : s.found publicId = .ok none) :
    (c.perform w publicId body).run s =
      (.error (.failure (.unknownIndex publicId)), s.looked publicId) := by
  cases c with
  | fetchEntries => rw [perform, run_fetch, h]; rfl
  | fetchChains => rw [perform, run_fetch, h]; rfl
  | upsertEntries => rw [perform, run_upsert, h]; rfl
  | insertChains => rw [perform, run_insert, h]; rfl

/-- A fetch writes no lines. -/
theorem quiet_fetch (w : Surroundings) (kind : TableKind) (publicId : String) (body : Bytes) :
    Quiet (fetch w kind publicId body) := by
  intro s
  have hlooked := s.leavesStorage_looked publicId
  rw [run_fetch]
  split
  · exact hlooked
  · rename_i index uids _
    split
    · exact hlooked
    · rename_i found _
      obtain ⟨log, hlog⟩ := recorded_eq w kind uids found (s.looked publicId)
      rw [hlog]
      exact hlooked.trans (Service.leavesStorage_log _ log)

/-- An upsert writes only a batch that it could open, and answers when it has written. -/
theorem run_upsert_cases (w : Surroundings) (publicId : String) (body : Bytes) (hs : s.Coherent) :
    LeavesStorage s ((upsert w publicId body).run s).2 ∨
      ∃ index data batch storage rejected, upsertEntries.Admits w s publicId body index data ∧
        Wire.readUpsertData data = .ok batch ∧
        s.storage.upsertEntries index.id batch = .ok (storage, rejected) ∧
        (upsert w publicId body).run s =
          (.ok (.octets (Wire.writeTable rejected w.order)),
            { s.looked publicId with storage := storage }) := by
  have hlooked := s.leavesStorage_looked publicId
  rw [run_upsert]
  split
  · exact Or.inl hlooked
  · rename_i index batch hopened
    obtain ⟨data, hadmits, hread⟩ := admits_of_openedBy hs hopened
    split
    · exact Or.inl hlooked
    · rename_i storage rejected hdone
      exact Or.inr ⟨index, data, batch, storage, rejected, hadmits, hread, hdone, rfl⟩

/-- An insertion leaves the storage alone, or it was admitted and has written its chains. -/
theorem run_insert_cases (w : Surroundings) (publicId : String) (body : Bytes) (hs : s.Coherent) :
    LeavesStorage s ((insert w publicId body).run s).2 ∨
      ∃ index data chains storage, insertChains.Admits w s publicId body index data ∧
        Wire.readTable data = .ok chains ∧
        s.storage.insertChains index.id chains = .ok storage ∧
        (insert w publicId body).run s =
          (.ok (.ok .null), { s.looked publicId with storage := storage }) := by
  have hlooked := s.leavesStorage_looked publicId
  rw [run_insert]
  split
  · exact Or.inl hlooked
  · rename_i index chains hopened
    obtain ⟨data, hadmits, hread⟩ := admits_of_openedBy hs hopened
    split
    · exact Or.inl hlooked
    · rename_i storage hdone
      exact Or.inr ⟨index, data, chains, storage, hadmits, hread, hdone, rfl⟩

end Callback
end Http
end IndexVault
