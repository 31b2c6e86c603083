import IndexVault.Proofs.Storage.StoredBytes
import IndexVault.Proofs.Storage.SwapHistory

namespace IndexVault

open SortedMap (VisitOrder DistinctKeys lineValue?)
open EncryptedTable (contains_swapped)

/-- The chain lines that a call writes for an index. -/
def StorageCall.inserted (index : IndexId) : StorageCall → List (Uid × Bytes)
  | .insertChains i data => if i = index then data.toList else []
  | _ => []

/-- The index that a call writes, if it writes one. -/
def StorageCall.written? : StorageCall → Option IndexId
  | .upsertEntries i _ | .insertChains i _ => some i
  | .fetch _ _ _ | .fetchAll _ _ | .size _ | .sizes _ => none

/-- All chain lines that a run writes for an index, those that are written over included. -/
def insertedLines (index : IndexId) (calls : List (VisitOrder Uid × StorageCall)) :
    List (Uid × Bytes) :=
  calls.flatMap fun visited => visited.2.inserted index

namespace Storage

/-- The lines of a call that the storage accepts as entries of an index. -/
def accepted (s : Storage) (index : IndexId) (o : VisitOrder Uid) :
    StorageCall → List (Uid × UpsertLine)
  | .upsertEntries i data => if i = index then s.acceptedLines i (o.lines data) else []
  | _ => []

/-- The lines that a run accepts as entries of an index, first to last. -/
def acceptedInRun (s : Storage) (index : IndexId) :
    List (VisitOrder Uid × StorageCall) → List (Uid × UpsertLine)
  | [] => []
  | (o, call) :: rest => s.accepted index o call ++ (s.perform o call).1.acceptedInRun index rest

end Storage

/-- Accepted lines that gave no old value, with their new values. -/
def acceptedAsNew (accepted : List (Uid × UpsertLine)) : List (Uid × Bytes) :=
  (accepted.filter fun line => line.2.old.isNone).map fun line => (line.1, line.2.new)

/-- What each of some identifiers was given by the first line that was accepted for it. -/
def firstLines (uids : List Uid) (accepted : List (Uid × UpsertLine)) : List (Uid × Bytes) :=
  uids.filterMap fun uid => (lineValue? uid accepted).map fun line => (uid, line.new)

theorem mem_firstLines {uids : List Uid} {accepted : List (Uid × UpsertLine)} {uid : Uid}
    {value : Bytes} : (uid, value) ∈ firstLines uids accepted ↔
      uid ∈ uids ∧ ∃ line, lineValue? uid accepted = some line ∧ line.new = value := by
  simp only [firstLines, List.mem_filterMap, Option.map_eq_some_iff, Prod.mk.injEq]
  constructor
  · rintro ⟨u, hu, line, hline, rfl, hvalue⟩
    exact ⟨hu, line, hline, hvalue⟩
  · rintro ⟨hu, line, hline, hvalue⟩
    exact ⟨uid, hu, line, hline, rfl, hvalue⟩

theorem nodup_firstLines {uids : List Uid} (h : uids.Nodup) (accepted : List (Uid × UpsertLine)) :
    (firstLines uids accepted).Nodup := by
  apply h.filterMap
  intro uid uid' line hline hline'
  obtain ⟨_, -, rfl⟩ := Option.map_eq_some_iff.1 hline
  obtain ⟨_, -, heq⟩ := Option.map_eq_some_iff.1 hline'
  exact (congrArg Prod.fst heq).symm

/-- A line is accepted as new where it gives no old value. -/
theorem mem_acceptedAsNew {accepted : List (Uid × UpsertLine)} {uid : Uid} {value : Bytes} :
    (uid, value) ∈ acceptedAsNew accepted ↔
      ∃ line, (uid, line) ∈ accepted ∧ line.old = none ∧ line.new = value := by
  simp only [acceptedAsNew, List.mem_map, List.mem_filter, Option.isNone_iff_eq_none, Prod.exists,
    Prod.mk.injEq]
  constructor
  · rintro ⟨u, line, ⟨hmem, hold⟩, rfl, hvalue⟩
    exact ⟨line, hmem, hold, hvalue⟩
  · rintro ⟨line, hmem, hold, hvalue⟩
    exact ⟨uid, line, ⟨hmem, hold⟩, rfl, hvalue⟩

theorem nodup_acceptedAsNew {accepted : List (Uid × UpsertLine)} (h : DistinctKeys accepted) :
    (acceptedAsNew accepted).Nodup := by
  have hkeys : DistinctKeys (acceptedAsNew accepted) :=
    SortedMap.distinctKeys_mapValues UpsertLine.new (h.sublist (List.filter_sublist.map Prod.fst))
  exact hkeys.nodup

namespace EncryptedTable

variable {t : EncryptedTable} {data : UpsertData} {history accepted : List (Uid × UpsertLine)}

theorem mem_keys_iff {uid : Uid} : uid ∈ t.keys ↔ t.contains uid = true := by
  rw [SortedMap.contains, SortedMap.keys, Option.isSome_iff_exists, List.mem_map]
  simp only [SortedMap.get?_eq_some_iff, Prod.exists, exists_and_right, exists_eq_right]

theorem contains_eq_false_iff {uid : Uid} : t.contains uid = false ↔ t.get? uid = none := by
  rw [SortedMap.contains, Option.isSome_eq_false_iff, Option.isNone_iff_eq_none]

/-- A batch writes a new line where nothing is stored and the line gives no old value. -/
theorem mem_newLines {uid : Uid} {value : Bytes} : (uid, value) ∈ t.newLines data.toList ↔
    t.get? uid = none ∧ ∃ line, data.get? uid = some line ∧ line.old = none ∧ line.new = value := by
  rw [newLines, List.mem_filter, mem_writtenLines, Option.isNone_iff_eq_none]
  simp only [SortedMap.get?_eq_some_iff]
  constructor
  · rintro ⟨⟨line, hmem, hold, hvalue⟩, hnone⟩
    exact ⟨hnone, line, hmem, hold.symm.trans hnone, hvalue⟩
  · rintro ⟨hnone, line, hmem, hold, hvalue⟩
    exact ⟨⟨line, hmem, hnone.trans hold.symm, hvalue⟩, hnone⟩

section

variable (haccepted : Storage.AcceptedFrom t data accepted)

include haccepted

/-- The lines that are accepted as new are those that are written where nothing was stored. -/
theorem mem_acceptedAsNew_iff_newLines {uid : Uid} {value : Bytes} :
    (uid, value) ∈ acceptedAsNew accepted ↔ (uid, value) ∈ t.newLines data.toList := by
  rw [mem_acceptedAsNew, mem_newLines]
  simp only [haccepted.mem_iff]
  constructor
  · rintro ⟨line, ⟨hline, hstored⟩, hold, hvalue⟩
    exact ⟨hstored.trans hold, line, hline, hold, hvalue⟩
  · rintro ⟨hnone, line, hline, hold, hvalue⟩
    exact ⟨line, ⟨hline, hnone.trans hold.symm⟩, hold, hvalue⟩

/-- The bytes of the lines accepted as new are those that the size grows by. -/
theorem bytes_acceptedAsNew :
    valueBytes (acceptedAsNew accepted) = valueBytes (t.newLines data.toList) := by
  have hkeys := t.distinctKeys_writtenLines (SortedMap.distinctKeys_toList data)
  have hwritten := hkeys.nodup
  exact valueBytes_eq_of_mem_iff (nodup_acceptedAsNew haccepted.distinct) (hwritten.filter _)
    fun _ => mem_acceptedAsNew_iff_newLines haccepted

/-- An identifier has an entry after a batch if it had one before, or a line for it was accepted. -/
theorem contains_swapped_iff {uid : Uid} :
    (t.swapped data).contains uid = true ↔
      t.contains uid = true ∨ uid ∈ accepted.map Prod.fst := by
  rw [List.mem_map]
  simp only [Prod.exists, exists_and_right, exists_eq_right, haccepted.mem_iff]
  cases hbefore : t.contains uid with
  | true => simp [contains_swapped hbefore data]
  | false =>
    rw [contains_eq_false_iff] at hbefore
    rw [SortedMap.contains, get?_swapped, hbefore]
    cases data.get? uid with
    | none => simp
    | some line =>
      by_cases hold : none = line.old
      · simp [← hold]
      · simp [hold]

/-- A batch extends the first values by the lines that it accepts as new. -/
theorem bytes_firstLines_swapped
    (hhistory : ∀ uid, t.contains uid = true ↔ uid ∈ history.map Prod.fst) :
    valueBytes (firstLines (t.swapped data).keys (history ++ accepted)) =
      valueBytes (firstLines t.keys history) + valueBytes (acceptedAsNew accepted) := by
  rw [← valueBytes_append]
  have hfirst := nodup_firstLines (SortedMap.nodup_keys t) history
  have hnew := nodup_acceptedAsNew haccepted.distinct
  have hdisjoint : (firstLines t.keys history).Disjoint (acceptedAsNew accepted) := by
    rintro ⟨uid, value⟩ hbefore hafter
    rw [mem_acceptedAsNew_iff_newLines haccepted, mem_newLines] at hafter
    have hcontains := mem_keys_iff.1 (mem_firstLines.1 hbefore).1
    rw [contains_eq_false_iff.2 hafter.1] at hcontains
    cases hcontains
  refine valueBytes_eq_of_mem_iff (nodup_firstLines (SortedMap.nodup_keys _) _)
    (hfirst.append hnew hdisjoint) fun x => ?_
  obtain ⟨uid, value⟩ := x
  rw [List.mem_append, mem_firstLines, mem_firstLines, mem_keys_iff, mem_keys_iff,
    contains_swapped_iff haccepted, mem_acceptedAsNew, SortedMap.lineValue?_append]
  cases hbefore : t.contains uid with
  | true =>
    -- The identifier has its first value already, and a line for it gives an old value.
    obtain ⟨first, hfirst⟩ : ∃ first, lineValue? uid history = some first := by
      rw [← Option.ne_none_iff_exists', Ne, SortedMap.lineValue?_eq_none_iff]
      exact not_not_intro ((hhistory uid).1 hbefore)
    have hnone : ¬∃ line, (uid, line) ∈ accepted ∧ line.old = none ∧ line.new = value := by
      rintro ⟨line, hmem, hold, -⟩
      have hstored := ((haccepted.mem_iff uid line).1 hmem).2.trans hold
      rw [contains_eq_false_iff.2 hstored] at hbefore
      cases hbefore
    simp only [hfirst, Option.some_or, hnone, true_or, or_false, true_and]
  | false =>
    -- Its first line is the one that this batch accepts, if there is one.
    have hfirst : lineValue? uid history = none := by
      rw [SortedMap.lineValue?_eq_none_iff, ← hhistory uid, hbefore]
      exact Bool.false_ne_true
    rw [contains_eq_false_iff] at hbefore
    simp only [hfirst, Option.none_or, Bool.false_eq_true, false_or, false_and,
      SortedMap.lineValue?_eq_some_iff_mem haccepted.distinct]
    constructor
    · rintro ⟨-, line, hmem, hvalue⟩
      exact ⟨line, hmem, ((haccepted.mem_iff uid line).1 hmem).2.symm.trans hbefore, hvalue⟩
    · rintro ⟨line, hmem, -, hvalue⟩
      exact ⟨List.mem_map_of_mem hmem, line, hmem, hvalue⟩

end

end EncryptedTable

open EncryptedTable (bytes_acceptedAsNew contains_swapped_iff bytes_firstLines_swapped)

theorem StorageCall.inserted_of_ne {call : StorageCall} {index : IndexId}
    (h : call.written? ≠ some index) : call.inserted index = [] := by
  cases call with
  | insertChains i data => exact if_neg fun hi => h (congrArg some hi)
  | upsertEntries | fetch | fetchAll | size | sizes => rfl

namespace Storage

variable {s s' : Storage} {index : IndexId} {call : StorageCall}

/-- A call on another index accepts no line of this one. -/
theorem accepted_of_ne (h : call.written? ≠ some index) (s : Storage) (o : VisitOrder Uid) :
    s.accepted index o call = [] := by
  cases call with
  | upsertEntries i data => exact if_neg fun hi => h (congrArg some hi)
  | insertChains | fetch | fetchAll | size | sizes => rfl

/-- A call adds to the size the chain lines that it writes, and the lines that it accepts as new. -/
theorem size_perform (h : s.Usable) (index : IndexId) (o : VisitOrder Uid) (call : StorageCall) :
    (s.perform o call).1.contents.size index = s.contents.size index +
      valueBytes (call.inserted index) + valueBytes (acceptedAsNew (s.accepted index o call)) := by
  obtain ⟨s', hperform, hcontents, -⟩ := perform_eq h o call
  rw [hperform, hcontents]
  -- Only a call that writes this index adds to its size.
  by_cases hwritten : call.written? = some index
  · cases call with
    | upsertEntries i data =>
      obtain rfl : i = index := Option.some.inj hwritten
      have hsize : (s.contents.upsertEntries i data).1.size i = s.contents.size i +
          valueBytes ((s.contents.table i .entries).newLines data.toList) := if_pos rfl
      have haccepted : s.accepted i o (.upsertEntries i data) =
          s.acceptedLines i (o.lines data) := if_pos rfl
      rw [haccepted, bytes_acceptedAsNew (acceptedFrom h.isOpen i o data)]
      exact hsize
    | insertChains i data =>
      obtain rfl : i = index := Option.some.inj hwritten
      have hinserted : (StorageCall.insertChains i data).inserted i = data.toList := if_pos rfl
      have hsize : (s.contents.insertChains i data).size i =
          s.contents.size i + valueBytes data.toList := if_pos rfl
      rw [hinserted]
      exact hsize
    | fetch | fetchAll | size | sizes => cases hwritten
  · rw [StorageCall.inserted_of_ne hwritten, accepted_of_ne hwritten]
    cases call with
    | upsertEntries i data =>
      exact s.contents.size_upsertEntries_of_ne (fun hi => hwritten (congrArg some hi.symm)) data
    | insertChains i data =>
      exact s.contents.size_insertChains_of_ne (fun hi => hwritten (congrArg some hi.symm)) data
    | fetch | fetchAll | size | sizes => rfl

/-- A storage whose entries of an index, and whose size, are explained by what was written to it. -/
structure Tallies (s : Storage) (index : IndexId) (inserted : List (Uid × Bytes))
    (accepted : List (Uid × UpsertLine)) : Prop where
  usable : s.Usable
  contains_iff : ∀ uid, (s.contents.table index .entries).contains uid = true ↔
    uid ∈ accepted.map Prod.fst
  size : s.contents.size index = valueBytes inserted +
    valueBytes (firstLines (s.contents.table index .entries).keys accepted)

theorem tallies_empty (kind : StorageKind) (index : IndexId) : (empty kind).Tallies index [] [] := by
  refine ⟨usable_empty kind, fun uid => ?_, ?_⟩
  · rw [contents_empty]
    exact iff_of_false Bool.false_ne_true List.not_mem_nil
  · rw [contents_empty]
    rfl

namespace Tallies

variable {inserted : List (Uid × Bytes)} {accepted : List (Uid × UpsertLine)}

/-- A call after which the entries are the same adds its chain lines alone. -/
theorem of_same_entries (h : s.Tallies index inserted accepted) (hs' : s'.Usable)
    {lines : List (Uid × Bytes)}
    (htable : s'.contents.table index .entries = s.contents.table index .entries)
    (hsize : s'.contents.size index = s.contents.size index + valueBytes lines) :
    s'.Tallies index (inserted ++ lines) accepted := by
  refine ⟨hs', fun uid => ?_, ?_⟩
  · rw [htable]
    exact h.contains_iff uid
  · have hbefore := h.size
    rw [htable, hsize, valueBytes_append]
    omega

/-- One call adds its chain values and the lines that it accepts, and the size keeps in step. -/
theorem perform (h : s.Tallies index inserted accepted) (o : VisitOrder Uid) (call : StorageCall) :
    (s.perform o call).1.Tallies index (inserted ++ call.inserted index)
      (accepted ++ s.accepted index o call) := by
  have hsize := size_perform h.usable index o call
  obtain ⟨s', hperform, hcontents, husable⟩ := perform_eq h.usable o call
  rw [hperform] at hsize ⊢
  dsimp only at hsize ⊢
  by_cases hentries : ∃ data, call = .upsertEntries index data
  -- An upsert of this index extends the first values by the lines that it accepts as new.
  · obtain ⟨data, rfl⟩ := hentries
    have hlines : s.accepted index o (.upsertEntries index data) =
        s.acceptedLines index (o.lines data) := if_pos rfl
    have hfrom := acceptedFrom h.usable.isOpen index o data
    have htable : s'.contents.table index .entries =
        (s.contents.table index .entries).swapped data := by
      rw [hcontents]
      exact s.contents.table_upsertEntries data
    rw [hlines] at hsize ⊢
    refine ⟨husable, fun uid => ?_, ?_⟩
    · rw [htable, contains_swapped_iff hfrom, h.contains_iff, List.map_append, List.mem_append]
    · have hbefore := h.size
      rw [htable, bytes_firstLines_swapped hfrom h.contains_iff, valueBytes_append]
      omega
  · -- Without an upsert of this index there is no accepted line, and its entries stay.
    have haccepted : s.accepted index o call = [] := by
      cases call with
      | upsertEntries i data => exact if_neg fun hi => hentries ⟨data, by rw [hi]⟩
      | insertChains | fetch | fetchAll | size | sizes => rfl
    rw [haccepted] at hsize
    rw [haccepted, List.append_nil]
    apply h.of_same_entries husable ?_ hsize
    rw [hcontents]
    cases call with
    | upsertEntries i data =>
      apply s.contents.table_upsertEntries_of_ne
      rintro ⟨rfl, -⟩
      exact hentries ⟨data, rfl⟩
    | insertChains i data => exact s.contents.table_insertChains_of_ne (by simp) data
    | fetch | fetchAll | size | sizes => rfl

/-- Nothing that a run does takes anything off the size. -/
theorem run (h : s.Tallies index inserted accepted) (calls : List (VisitOrder Uid × StorageCall)) :
    (s.run calls).1.Tallies index (inserted ++ insertedLines index calls)
      (accepted ++ s.acceptedInRun index calls) := by
  -- By induction on the calls: what one of them adds stands behind what was written before.
  induction calls generalizing s inserted accepted with
  | nil =>
    rw [insertedLines, List.flatMap_nil, List.append_nil, acceptedInRun, List.append_nil]
    exact h
  | cons visited rest ih =>
    obtain ⟨o, call⟩ := visited
    have hrest := ih (h.perform o call)
    rw [List.append_assoc, List.append_assoc] at hrest
    exact hrest

end Tallies

theorem usable_run (h : s.Usable) (calls : List (VisitOrder Uid × StorageCall)) :
    (s.run calls).1.Usable := by
  obtain ⟨s', hrun, -, husable⟩ := run_eq h calls
  rw [hrun]
  exact husable

/-- Sizes never fall. -/
theorem size_le_run (h : s.Usable) (index : IndexId)
    (calls : List (VisitOrder Uid × StorageCall)) :
    s.contents.size index ≤ (s.run calls).1.contents.size index := by
  induction calls generalizing s with
  | nil => exact Nat.le_refl _
  | cons visited rest ih =>
    obtain ⟨o, call⟩ := visited
    obtain ⟨s', hperform, -, husable⟩ := perform_eq h o call
    have hcall := size_perform h index o call
    rw [hperform] at hcall
    dsimp only at hcall
    calc s.contents.size index ≤ s'.contents.size index := by omega
      _ ≤ (s'.run rest).1.contents.size index := ih husable
      _ = (s.run ((o, call) :: rest)).1.contents.size index := by
        rw [run, hperform]

theorem unwritten_of_ne {calls : List (VisitOrder Uid × StorageCall)}
    (h : ∀ visited ∈ calls, visited.2.written? ≠ some index) (s : Storage) :
    insertedLines index calls = [] ∧ s.acceptedInRun index calls = [] := by
  induction calls generalizing s with
  | nil => exact ⟨rfl, rfl⟩
  | cons visited rest ih =>
    obtain ⟨o, call⟩ := visited
    have hcall : call.written? ≠ some index := h (o, call) List.mem_cons_self
    obtain ⟨hinserted, haccepted⟩ :=
      ih (fun x hx => h x (List.mem_cons_of_mem _ hx)) (s.perform o call).1
    rw [insertedLines] at hinserted
    constructor
    · rw [insertedLines, List.flatMap_cons, StorageCall.inserted_of_ne hcall, hinserted]
      rfl
    · rw [acceptedInRun, accepted_of_ne hcall, haccepted]
      rfl

/-- What the size of an index tells of the lines that were written for it: the chain lines inserted and
the entries accepted, in the order of the calls. -/
structure SizeTells (s : Storage) (index : IndexId) (inserted : List (Uid × Bytes))
    (accepted : List (Uid × UpsertLine)) (size : Nat) : Prop where
  reported : s.size index = .ok size
  /-- The size is the bytes of all chain values ever inserted, and of the first value of each entry. -/
  explained : ∃ entries, s.fetchAll index .entries = .ok entries ∧
    (∀ uid, entries.contains uid = true ↔ uid ∈ accepted.map Prod.fst) ∧
    size = valueBytes inserted + valueBytes (firstLines entries.keys accepted)
  /-- The next call adds the chain lines that it writes and the lines that it accepts as new. -/
  grows : ∀ o call, (s.perform o call).1.size index = .ok (size +
    valueBytes (call.inserted index) + valueBytes (acceptedAsNew (s.accepted index o call)))
  /-- An index for which no line was ever written has size zero. -/
  unwritten : inserted = [] → accepted = [] → size = 0
  never_less : ∀ calls, ∃ later, (s.run calls).1.size index = .ok later ∧ size ≤ later
  /-- Accepted updates count nothing, and neither do lines that are rejected or dropped. -/
  updates_free : ∀ o data, (∀ line ∈ s.accepted index o (.upsertEntries index data),
    line.2.old ≠ none) → (s.perform o (.upsertEntries index data)).1.size index = .ok size
  others_free : ∀ o call, call.written? ≠ some index → (s.perform o call).1.size index = .ok size

/-- The tally of a run tells the size. -/
theorem Tallies.sizeTells {inserted : List (Uid × Bytes)} {accepted : List (Uid × UpsertLine)}
    (h : s.Tallies index inserted accepted) :
    s.SizeTells index inserted accepted (s.contents.size index) := by
  -- the answer to one more call, from which the last two parts follow
  have hgrows (o : VisitOrder Uid) (call : StorageCall) :
      (s.perform o call).1.size index = .ok (s.contents.size index +
        valueBytes (call.inserted index) +
        valueBytes (acceptedAsNew (s.accepted index o call))) := by
    obtain ⟨s', hperform, -, husable⟩ := perform_eq h.usable o call
    rw [← size_perform h.usable index o call, hperform]
    exact size_eq husable.isOpen index
  refine ⟨size_eq h.usable.isOpen index, ?_, hgrows, ?_, fun calls => ?_,
    fun o data hupdates => ?_, fun o call hother => ?_⟩
  · exact ⟨s.contents.table index .entries, fetchAll_eq h.usable index .entries, h.contains_iff,
      h.size⟩
  · rintro rfl rfl
    have hfirst (uids : List Uid) : firstLines uids [] = [] := by
      rw [firstLines, List.filterMap_eq_nil_iff]
      intro uid _
      rfl
    rw [h.size, hfirst]
    rfl
  · exact ⟨_, size_eq (usable_run h.usable calls).isOpen index, size_le_run h.usable index calls⟩
  · have hnone : acceptedAsNew (s.accepted index o (.upsertEntries index data)) = [] := by
      rw [acceptedAsNew, List.map_eq_nil_iff, List.filter_eq_nil_iff]
      intro line hline hold
      exact hupdates line hline (Option.isNone_iff_eq_none.1 hold)
    rw [hgrows, hnone]
    rfl
  · rw [hgrows, StorageCall.inserted_of_ne hother, accepted_of_ne hother]
    rfl

end Storage

/-- After every run from empty, on either store and in whatever order lines are visited, the size of an
index counts all chain values that were ever inserted and the value that each entry was first given; an
index that was never written has size zero. Sizes are taken to stay below `2 ^ 63`. -/
theorem size_tells_history (kind : StorageKind) (calls : List (VisitOrder Uid × StorageCall))
    (index : IndexId) :
    ∃ size, ((Storage.empty kind).run calls).1.SizeTells index (insertedLines index calls)
        ((Storage.empty kind).acceptedInRun index calls) size ∧
      ((∀ visited ∈ calls, visited.2.written? ≠ some index) → size = 0) := by
  have htallies := (Storage.tallies_empty kind index).run calls
  rw [List.nil_append, List.nil_append] at htallies
  have htells := htallies.sizeTells
  refine ⟨_, htells, fun hunwritten => ?_⟩
  obtain ⟨hinserted, haccepted⟩ := Storage.unwritten_of_ne hunwritten (Storage.empty kind)
  exact htells.unwritten hinserted haccepted

end IndexVault
