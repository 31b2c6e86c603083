import IndexVault.Proofs.Storage.Equivalence

namespace IndexVault

open SortedMap (VisitOrder nodup_toList)

theorem valueBytes_filter_add (p : Uid × Bytes → Bool) (l : List (Uid × Bytes)) :
    valueBytes (l.filter p) + valueBytes (l.filter fun x => !p x) = valueBytes l := by
  rw [← valueBytes_append]
  exact valueBytes_perm (List.filter_append_perm p l)

/-- Lists that hold the same lines, each once, hold the same number of bytes. -/
theorem valueBytes_eq_of_mem_iff {l l' : List (Uid × Bytes)} (h : l.Nodup) (h' : l'.Nodup)
    (hmem : ∀ x, x ∈ l ↔ x ∈ l') : valueBytes l = valueBytes l' :=
  valueBytes_perm ((List.perm_ext_iff_of_nodup h h').2 hmem)

namespace EncryptedTable

/-- How many bytes the values of a table take. -/
def bytes (t : EncryptedTable) : Nat := valueBytes t.toList

/-- The bytes of a table are those under the identifiers of another map and those beside them. -/
theorem bytes_restrict_add {β : Type} (t : EncryptedTable) (among : SortedMap Uid β) :
    bytes (t.restrict among) + valueBytes (t.toList.filter fun x => !among.contains x.1) =
      bytes t := by
  rw [bytes, SortedMap.restrict_eq_filter, SortedMap.toList_filter]
  exact valueBytes_filter_add (fun x => among.contains x.1) t.toList

theorem restrict_of_contains {β : Type} {t : EncryptedTable} {among : SortedMap Uid β}
    (h : ∀ uid, t.contains uid = true → among.contains uid = true) : t.restrict among = t := by
  apply SortedMap.ext_get?
  intro uid
  rw [SortedMap.get?_restrict]
  cases hvalue : t.get? uid with
  | none => split <;> rfl
  | some value =>
    have hcontains : t.contains uid = true := by rw [SortedMap.contains, hvalue]; rfl
    rw [if_pos (h uid hcontains)]

theorem restrict_congr {β γ : Type} {t : EncryptedTable} {among : SortedMap Uid β}
    {among' : SortedMap Uid γ} (h : ∀ uid, among.contains uid = among'.contains uid) :
    t.restrict among = t.restrict among' := by
  apply SortedMap.ext_get?
  intro uid
  rw [SortedMap.get?_restrict, SortedMap.get?_restrict, h]

/-- Writing one table over another replaces the values of the lines that both have. -/
theorem bytes_insertAll (t data : EncryptedTable) :
    bytes (t.insertAll data.toList) + bytes (t.restrict data) = bytes t + bytes data := by
  have hget := SortedMap.get?_insertAll_toList t data
  -- The lines of `data` stay, and of `t` the lines whose identifiers `data` lacks.
  have hdata : bytes ((t.insertAll data.toList).restrict data) = bytes data := by
    refine valueBytes_eq_of_mem_iff (nodup_toList _) (nodup_toList data) fun x => ?_
    rw [← SortedMap.get?_eq_some_iff, ← SortedMap.get?_eq_some_iff, SortedMap.get?_restrict, hget,
      SortedMap.contains]
    cases data.get? x.1 <;> simp
  have hrest : valueBytes ((t.insertAll data.toList).toList.filter fun x => !data.contains x.1) =
      valueBytes (t.toList.filter fun x => !data.contains x.1) := by
    refine valueBytes_eq_of_mem_iff ((nodup_toList _).filter _) ((nodup_toList t).filter _)
      fun x => ?_
    rw [List.mem_filter, List.mem_filter, ← SortedMap.get?_eq_some_iff,
      ← SortedMap.get?_eq_some_iff, hget, SortedMap.contains]
    cases data.get? x.1 <;> simp
  have hafter := bytes_restrict_add (t.insertAll data.toList) data
  have hbefore := bytes_restrict_add t data
  omega

/-- A batch adds the lines that are new; the other lines of the table keep their identifiers. -/
theorem bytes_swapped (t : EncryptedTable) (data : UpsertData) :
    bytes ((t.swapped data).restrict t) + valueBytes (t.newLines data.toList) =
      bytes (t.swapped data) := by
  have hnew : valueBytes ((t.swapped data).toList.filter fun x => !t.contains x.1) =
      valueBytes (t.newLines data.toList) := by
    have hkeys := t.distinctKeys_writtenLines (SortedMap.distinctKeys_toList data)
    have hwritten := hkeys.nodup
    refine valueBytes_eq_of_mem_iff ((nodup_toList _).filter _) (hwritten.filter _) fun x => ?_
    obtain ⟨uid, value⟩ := x
    rw [newLines, List.mem_filter, List.mem_filter, ← SortedMap.get?_eq_some_iff, swapped,
      SortedMap.get?_insertAll t hkeys, SortedMap.contains,
      ← SortedMap.lineValue?_eq_some_iff_mem hkeys]
    -- Both sides ask that nothing was stored before; then a line is there only if it was written.
    cases t.get? uid <;> simp
  rw [← hnew]
  exact bytes_restrict_add (t.swapped data) t

/-- An upsert takes no line away. -/
theorem contains_swapped {t : EncryptedTable} {uid : Uid} (h : t.contains uid = true)
    (data : UpsertData) : (t.swapped data).contains uid = true := by
  rw [SortedMap.contains] at h ⊢
  rw [get?_swapped]
  split
  · split
    · rfl
    · exact h
  · exact h

end EncryptedTable

open EncryptedTable (bytes bytes_insertAll bytes_swapped contains_swapped restrict_of_contains
  restrict_congr)

/-- The bytes of stored chain values that a call writes over. -/
def StorageCall.overwritten (call : StorageCall) (index : IndexId) (c : Contents) : Nat :=
  match call with
  | .insertChains i data =>
    if i = index then bytes ((c.table index .chains).restrict data) else 0
  | _ => 0

namespace Contents

variable (c : Contents) (call : StorageCall) (index : IndexId)

/-- Entries never go away. -/
theorem contains_perform {uid : Uid} (h : (c.table index .entries).contains uid = true) :
    ((c.perform call).1.table index .entries).contains uid = true := by
  cases call with
  | upsertEntries i data =>
    by_cases hi : index = i
    · subst hi
      rw [perform, table_upsertEntries]
      exact contains_swapped h data
    · rw [perform, table_upsertEntries_of_ne c fun h => hi h.1]
      exact h
  | insertChains i data =>
    rw [perform, table_insertChains_of_ne c (by simp)]
    exact h
  | fetch | fetchAll | size | sizes => exact h

/-- A call adds to the size what it adds to the chains, the entries that are new, and what it writes
over. -/
theorem size_perform :
    (c.perform call).1.size index + bytes (c.table index .chains) +
        bytes (((c.perform call).1.table index .entries).restrict (c.table index .entries)) =
      c.size index + bytes ((c.perform call).1.table index .chains) +
        bytes ((c.perform call).1.table index .entries) + call.overwritten index c := by
  have hself (t : EncryptedTable) : t.restrict t = t := restrict_of_contains fun _ h => h
  cases call with
  | upsertEntries i data =>
    have hchains : (c.upsertEntries i data).1.table index .chains = c.table index .chains :=
      table_upsertEntries_of_ne c (by simp) data
    simp only [perform, StorageCall.overwritten, hchains]
    by_cases hi : index = i
    · subst hi
      have hsize : (c.upsertEntries index data).1.size index =
          c.size index + valueBytes ((c.table index .entries).newLines data.toList) := if_pos rfl
      have hentries := bytes_swapped (c.table index .entries) data
      rw [table_upsertEntries, hsize]
      omega
    · rw [table_upsertEntries_of_ne c fun h => hi h.1, size_upsertEntries_of_ne c hi, hself]
      omega
  | insertChains i data =>
    have hentries : (c.insertChains i data).table index .entries = c.table index .entries :=
      table_insertChains_of_ne c (by simp) data
    simp only [perform, StorageCall.overwritten, hentries, hself]
    by_cases hi : index = i
    · subst hi
      have hsize : (c.insertChains index data).size index = c.size index + bytes data := if_pos rfl
      have hchains := bytes_insertAll (c.table index .chains) data
      rw [table_insertChains, hsize, if_pos rfl]
      omega
    · rw [table_insertChains_of_ne c fun h => hi h.1, size_insertChains_of_ne c hi,
        if_neg fun h => hi h.symm]
      omega
  -- The other calls read only.
  | fetch | fetchAll | size | sizes =>
    simp only [perform, StorageCall.overwritten, hself]
    omega

end Contents

/-- An account of an index: the first value of each of its entries, and how many bytes of chain
values were written over. -/
structure SizeAccount where
  first : EncryptedTable := ∅
  overwritten : Nat := 0

namespace SizeAccount

/-- The account after a call: an entry that was there keeps the value it had first. -/
def record (a : SizeAccount) (index : IndexId) (c : Contents) (call : StorageCall) : SizeAccount where
  first := ((c.perform call).1.table index .entries).insertAll a.first.toList
  overwritten := a.overwritten + call.overwritten index c

def recordAll (index : IndexId) : SizeAccount → Contents → List StorageCall → SizeAccount
  | a, _, [] => a
  | a, c, call :: rest => (a.record index c call).recordAll index (c.perform call).1 rest

/-- The account of a run from empty tables. -/
def ofRun (index : IndexId) (calls : List StorageCall) : SizeAccount :=
  recordAll index {} Contents.empty calls

/-- The first value of an entry is recorded once and for all. -/
theorem get?_first_record (a : SizeAccount) (index : IndexId) (c : Contents) (call : StorageCall)
    (uid : Uid) : (a.record index c call).first.get? uid =
      (a.first.get? uid).or (((c.perform call).1.table index .entries).get? uid) :=
  SortedMap.get?_insertAll_toList _ a.first uid

/-- The account has a first value for every entry, and it explains the size. -/
structure Balances (a : SizeAccount) (index : IndexId) (c : Contents) : Prop where
  contains_first : ∀ uid, a.first.contains uid = (c.table index .entries).contains uid
  size : c.size index = bytes (c.table index .chains) + bytes a.first + a.overwritten

variable {a : SizeAccount} {index : IndexId} {c : Contents}

/-- One call keeps the account of a run balanced with the contents. -/
theorem Balances.record (h : a.Balances index c) (call : StorageCall) :
    (a.record index c call).Balances index (c.perform call).1 := by
  constructor
  · intro uid
    rw [SortedMap.contains, get?_first_record, Option.isSome_or]
    change (a.first.contains uid || ((c.perform call).1.table index .entries).contains uid) = _
    rw [h.contains_first]
    cases hbefore : (c.table index .entries).contains uid with
    | false => rfl
    | true => exact (c.contains_perform call index hbefore).symm
  · -- The first values grow by the entries that are new, which is what the call adds for entries.
    have hsize := h.size
    have hcall := c.size_perform call index
    have hfirst := bytes_insertAll ((c.perform call).1.table index .entries) a.first
    rw [restrict_congr h.contains_first] at hfirst
    have hrecord : bytes (a.record index c call).first + bytes (((c.perform call).1.table index
        .entries).restrict (c.table index .entries)) =
          bytes ((c.perform call).1.table index .entries) + bytes a.first := hfirst
    have hover : (a.record index c call).overwritten =
        a.overwritten + call.overwritten index c := rfl
    omega

theorem Balances.recordAll (h : a.Balances index c) (calls : List StorageCall) :
    (a.recordAll index c calls).Balances index (c.run calls).1 := by
  induction calls generalizing a c with
  | nil => exact h
  | cons call rest ih => exact ih (h.record call)

/-- The account of every run from empty is balanced with what the run leaves. -/
theorem balances_ofRun (index : IndexId) (calls : List StorageCall) :
    (ofRun index calls).Balances index (Contents.empty.run calls).1 := by
  apply Balances.recordAll
  exact ⟨fun _ => rfl, rfl⟩

end SizeAccount

/-- After every run from empty, on either store, the size of an index is what a full fetch of its chains
holds, plus the first values of the entries that a full fetch shows, plus the bytes of chain values that
were written over. Sizes are taken to stay below `2 ^ 63`. -/
theorem size_eq_stored_add_overwritten (kind : StorageKind)
    (calls : List (VisitOrder Uid × StorageCall)) (index : IndexId) :
    ∃ entries chains, ((Storage.empty kind).run calls).1.fetchAll index .entries = .ok entries ∧
      ((Storage.empty kind).run calls).1.fetchAll index .chains = .ok chains ∧
      (∀ uid, (SizeAccount.ofRun index (calls.map Prod.snd)).first.contains uid =
        entries.contains uid) ∧
      ((Storage.empty kind).run calls).1.size index =
        .ok (bytes chains + bytes (SizeAccount.ofRun index (calls.map Prod.snd)).first +
          (SizeAccount.ofRun index (calls.map Prod.snd)).overwritten) := by
  obtain ⟨s, hrun, hcontents, husable⟩ := Storage.run_eq (Storage.usable_empty kind) calls
  rw [Storage.contents_empty] at hrun hcontents
  have hbalances := SizeAccount.balances_ofRun index (calls.map Prod.snd)
  rw [← hcontents] at hbalances
  rw [hrun]
  refine ⟨s.contents.table index .entries, s.contents.table index .chains,
    Storage.fetchAll_eq husable index .entries, Storage.fetchAll_eq husable index .chains,
    hbalances.contains_first, ?_⟩
  rw [Storage.size_eq husable.isOpen, hbalances.size]

/-- One chain of one byte. -/
def oneChain : EncryptedTable := .ofList [(.repeating 0, [7])]

/-- On neither store is the size what is stored: after a chain was written twice it counts two bytes,
of which one is stored. -/
theorem size_not_eq_stored :
    ¬ ∃ kind, ∀ calls index entries chains,
      ((Storage.empty kind).run calls).1.fetchAll index .entries = .ok entries →
      ((Storage.empty kind).run calls).1.fetchAll index .chains = .ok chains →
      ((Storage.empty kind).run calls).1.size index =
        .ok (bytes chains + bytes (SizeAccount.ofRun index (calls.map Prod.snd)).first) := by
  rintro ⟨kind, h⟩
  have htwice := h [(VisitOrder.ascending, .insertChains 1 oneChain),
    (VisitOrder.ascending, .insertChains 1 oneChain)] 1 ∅ oneChain
  cases kind with
  | keyValue => exact absurd (htwice rfl rfl) (by decide)
  | rows => exact absurd (htwice rfl rfl) (by decide)

end IndexVault
