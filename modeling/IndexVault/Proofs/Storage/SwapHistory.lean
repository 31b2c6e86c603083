import Mathlib.Data.List.Chain
import IndexVault.Proofs.Storage.Equivalence

/-! The history of compare-and-swaps. Clients send batches, whatever their number; what reaches a
store is one sequence of batches, each of which takes effect whole or, when its request is dropped,
not at all. Along every such sequence the accepted lines of an identifier form a chain, so no update
is lost (`no_update_is_lost`). -/
namespace IndexVault

open SortedMap (VisitOrder DistinctKeys)

/-- The lines that a run of steps writes, by a test made just before each step. -/
def linesPassing {σ : Type} (step : σ → Uid × UpsertLine → σ) (writes : σ → Uid × UpsertLine → Bool) :
    σ → List (Uid × UpsertLine) → List (Uid × UpsertLine)
  | _, [] => []
  | b, line :: rest =>
    let later := linesPassing step writes (step b line) rest
    if writes b line then line :: later else later

theorem linesPassing_hom {σ τ : Type} (f : σ → τ) {step : σ → Uid × UpsertLine → σ}
    {step' : τ → Uid × UpsertLine → τ} {writes : σ → Uid × UpsertLine → Bool}
    {writes' : τ → Uid × UpsertLine → Bool} (hstep : ∀ b line, f (step b line) = step' (f b) line)
    (hwrites : ∀ b line, writes b line = writes' (f b) line) (b : σ)
    (lines : List (Uid × UpsertLine)) :
    linesPassing step writes b lines = linesPassing step' writes' (f b) lines := by
  induction lines generalizing b with
  | nil => rfl
  | cons line rest ih => simp only [linesPassing, hwrites, ih, hstep]

namespace KeyValueStore

/-- A line is written when the stored value is the old value given. -/
def writesLine (b : BatchState) (line : Uid × UpsertLine) : Bool :=
  b.lines.get? line.1 = line.2.old

/-- A swap leaves what is stored under other identifiers. -/
theorem get?_swap_of_ne (b : BatchState) {uid u : Uid} (h : u ≠ uid) (line : UpsertLine) :
    (b.swap uid line).lines.get? u = b.lines.get? u := by
  cases hout : line.outcome (b.lines.get? uid) with
  | written =>
    rw [swap_of_written hout]
    exact SortedMap.get?_insert_of_ne b.lines h line.new
  | rejected stored => rw [swap_of_rejected hout]
  | dropped => rw [swap_of_dropped hout]

/-- The lines written are those whose old value was stored before the batch. -/
theorem linesPassing_swap (b : BatchState) {lines : List (Uid × UpsertLine)}
    (h : DistinctKeys lines) :
    linesPassing (fun b line => b.swap line.1 line.2) writesLine b lines =
      lines.filter fun line => b.lines.get? line.1 = line.2.old := by
  induction lines generalizing b with
  | nil => rfl
  | cons x rest ih =>
    obtain ⟨hx, hrest⟩ := h.of_cons
    -- The first line does not change what the later ones are compared with.
    have hsame : (rest.filter fun line => (b.swap x.1 x.2).lines.get? line.1 = line.2.old) =
        rest.filter fun line => b.lines.get? line.1 = line.2.old := by
      apply List.filter_congr
      intro y hy
      have hne : y.1 ≠ x.1 := fun heq => hx (heq ▸ List.mem_map_of_mem hy)
      rw [get?_swap_of_ne b hne]
    rw [linesPassing, ih (b.swap x.1 x.2) hrest, hsame, List.filter_cons]
    rfl

end KeyValueStore

namespace RowStore

/-- A line is written when its statement changes a row. -/
def writesLine (index : IndexId) (b : BatchState) (line : Uid × UpsertLine) : Bool :=
  0 < (b.store.writeEntry (RowKey.ofUid index .entries line.1) line.2).2

theorem writesLine_eq (index : IndexId) (b : BatchState) (line : Uid × UpsertLine) :
    writesLine index b line = KeyValueStore.writesLine (b.mapView index) line := by
  have hget : (b.mapView index).lines.get? line.1 =
      b.store.lines.get? (RowKey.ofUid index .entries line.1) :=
    get?_table b.store index .entries line.1
  rw [writesLine, KeyValueStore.writesLine, hget]
  by_cases h : b.store.lines.get? (RowKey.ofUid index .entries line.1) = line.2.old
  · simp only [writeEntry_of_eq h, h, Nat.lt_one_iff]
  · simp only [writeEntry_of_ne h, h, Nat.lt_irrefl]

/-- A transaction: the rows it started from, and its batch so far. -/
structure Transaction where
  start : RowStore
  batch : BatchState

namespace Transaction

def begin (s : RowStore) : Transaction := ⟨s, { store := s }⟩

def swap (index : IndexId) (t : Transaction) (line : Uid × UpsertLine) : Transaction :=
  { t with batch := t.batch.swap index line.1 line.2 }

/-- Makes the batch lasting, with the size it adds; answers the rejected lines. -/
def commit (index : IndexId) (t : Transaction) : RowStore × EncryptedTable :=
  (t.batch.store.addSize index t.batch.added, t.batch.rejected)

def rollback (t : Transaction) : RowStore := t.start

theorem foldl_swap (index : IndexId) (t : Transaction) (lines : List (Uid × UpsertLine)) :
    lines.foldl (swap index) t =
      { t with batch := lines.foldl (fun b line => b.swap index line.1 line.2) t.batch } := by
  induction lines generalizing t with
  | nil => rfl
  | cons x rest ih => exact ih (t.swap index x)

/-- A transaction that is made lasting is the upsert of its lines. -/
theorem commit_foldl_swap (s : RowStore) (index : IndexId) (lines : List (Uid × UpsertLine)) :
    (lines.foldl (swap index) (begin s)).commit index = s.upsertInOrder index lines := by
  rw [foldl_swap]
  rfl

/-- Whatever it has written so far, a transaction that is rolled back leaves what it found. -/
theorem rollback_foldl_swap (s : RowStore) (index : IndexId) (lines : List (Uid × UpsertLine)) :
    (lines.foldl (swap index) (begin s)).rollback = s := by
  rw [foldl_swap]
  rfl

end Transaction
end RowStore

namespace Storage

/-- The lines of a batch that the storage writes, in the order of visits. -/
def acceptedLines (s : Storage) (index : IndexId) (lines : List (Uid × UpsertLine)) :
    List (Uid × UpsertLine) :=
  match s with
  | keyValue store =>
    linesPassing (fun b line => b.swap line.1 line.2) KeyValueStore.writesLine
      { lines := store.table index .entries } lines
  | rows store =>
    linesPassing (fun b line => b.swap index line.1 line.2) (RowStore.writesLine index)
      { store := store } lines
  | closedRows _ => []

/-- The lines that a batch accepts, decided one by one while the store changes, are those whose old value
was stored before it. -/
theorem acceptedLines_eq {s : Storage} (h : s.isOpen = true) (index : IndexId)
    {lines : List (Uid × UpsertLine)} (hlines : DistinctKeys lines) :
    s.acceptedLines index lines =
      lines.filter fun line => (s.contents.table index .entries).get? line.1 = line.2.old := by
  cases s with
  | keyValue store =>
    exact KeyValueStore.linesPassing_swap { lines := store.table index .entries } hlines
  | rows store =>
    let start : RowStore.BatchState := { store := store }
    have hhom : (rows store).acceptedLines index lines =
        linesPassing (fun b line => b.swap line.1 line.2) KeyValueStore.writesLine
          (start.mapView index) lines :=
      linesPassing_hom (RowStore.BatchState.mapView index)
        (fun b line => RowStore.mapView_swap index b line.1 line.2) (RowStore.writesLine_eq index)
        start lines
    exact hhom.trans (KeyValueStore.linesPassing_swap (start.mapView index) hlines)
  | closedRows store => cases h

/-- Lines that a batch has accepted from the lines given, on meeting a table: those whose old value is
stored there. -/
structure AcceptedFrom (t : EncryptedTable) (data : UpsertData) (accepted : List (Uid × UpsertLine)) :
    Prop where
  distinct : DistinctKeys accepted
  mem_iff : ∀ uid line, (uid, line) ∈ accepted ↔
    data.get? uid = some line ∧ t.get? uid = line.old

theorem acceptedFrom {s : Storage} (h : s.isOpen = true) (index : IndexId) (o : VisitOrder Uid)
    (data : UpsertData) : AcceptedFrom (s.contents.table index .entries) data
      (s.acceptedLines index (o.lines data)) := by
  have hlines := o.distinctKeys data
  refine ⟨?_, fun uid line => ?_⟩
  · rw [acceptedLines_eq h index hlines]
    exact hlines.sublist (List.filter_sublist.map Prod.fst)
  · rw [acceptedLines_eq h index hlines, List.mem_filter, (o.perm data).mem_iff,
      ← SortedMap.get?_eq_some_iff]
    simp only [decide_eq_true_eq]

/-- A batch whose request is dropped after some lines. The store of rows rolls its transaction back;
the store of maps has no point at which a batch could end early, so there the batch never began. -/
def abandonUpsert (s : Storage) (index : IndexId) (lines : List (Uid × UpsertLine)) : Storage :=
  match s with
  | rows store =>
    rows (lines.foldl (RowStore.Transaction.swap index) (.begin store)).rollback
  | s => s

/-- An upsert that is given up before its end leaves the store as it was. -/
theorem abandonUpsert_eq (s : Storage) (index : IndexId) (lines : List (Uid × UpsertLine)) :
    s.abandonUpsert index lines = s := by
  cases s with
  | keyValue store => rfl
  | rows store => exact congrArg rows (RowStore.Transaction.rollback_foldl_swap store index lines)
  | closedRows store => rfl

end Storage

/-- A batch that some client sends: its index and lines, the order in which they are visited, and
after how many of them its request is dropped, if it is. -/
structure Submission where
  index : IndexId
  data : UpsertData
  order : VisitOrder Uid
  droppedAfter : Option Nat

/-- A batch that took effect: the lines written, and the lines reported as rejected. -/
structure BatchRecord where
  index : IndexId
  data : UpsertData
  accepted : List (Uid × UpsertLine)
  rejected : EncryptedTable

namespace Storage

/-- Takes a batch, and records it if it takes effect. -/
def submit (s : Storage) (b : Submission) : Storage × List BatchRecord :=
  let lines := b.order.lines b.data
  match b.droppedAfter with
  | some count => (s.abandonUpsert b.index (lines.take count), [])
  | none =>
    match s.upsertInOrder b.index lines with
    | .ok (s', rejected) => (s', [⟨b.index, b.data, s.acceptedLines b.index lines, rejected⟩])
    | .error _ => (s, [])

def submitAll (s : Storage) : List Submission → Storage × List BatchRecord
  | [] => (s, [])
  | b :: rest =>
    let (s', records) := s.submit b
    let (last, later) := s'.submitAll rest
    (last, records ++ later)

end Storage

/-- The lines accepted for an identifier of an index, in the order of the records. -/
def acceptedAt (index : IndexId) (uid : Uid) (records : List BatchRecord) : List UpsertLine :=
  records.flatMap fun r =>
    if r.index = index then
      r.accepted.filterMap fun line => if line.1 = uid then some line.2 else none
    else []

def latestValue (accepted : List UpsertLine) : Option Bytes :=
  accepted.getLast?.map UpsertLine.new

/-- A record tells what a batch does to the contents it met. -/
structure BatchRecord.AgreesWith (r : BatchRecord) (c : Contents) : Prop where
  rejected_eq : r.rejected = (c.upsertEntries r.index r.data).2
  distinct : DistinctKeys r.accepted
  mem_accepted_iff : ∀ uid line, (uid, line) ∈ r.accepted ↔
    r.data.get? uid = some line ∧ (c.table r.index .entries).get? uid = line.old

/-- Records that lead from some contents to others. -/
inductive Explains : Contents → List BatchRecord → Contents → Prop where
  | nil (c : Contents) : Explains c [] c
  | cons {c last : Contents} {r : BatchRecord} {rest : List BatchRecord} (hr : r.AgreesWith c)
      (hrest : Explains (c.upsertEntries r.index r.data).1 rest last) : Explains c (r :: rest) last

/-- Records that are cut somewhere meet some contents there. -/
theorem Explains.split {c last : Contents} {before after : List BatchRecord}
    (h : Explains c (before ++ after) last) :
    ∃ mid, Explains c before mid ∧ Explains mid after last := by
  induction before generalizing c with
  | nil => exact ⟨c, .nil c, h⟩
  | cons r rest ih =>
    cases h with
    | cons hr hrest =>
      obtain ⟨mid, hbefore, hafter⟩ := ih hrest
      exact ⟨mid, .cons hr hbefore, hafter⟩

/-- Each submission adds the record that explains what it made of the contents. -/
theorem Storage.submit_explained {s : Storage} (h : s.isOpen = true) (b : Submission)
    {records : List BatchRecord} {last : Contents}
    (hlater : Explains (s.submit b).1.contents records last) :
    Explains s.contents ((s.submit b).2 ++ records) last ∧ (s.submit b).1.isOpen = true := by
  cases hdropped : b.droppedAfter with
  | some count =>
    have hsubmit : s.submit b = (s, []) := by
      simp only [submit, hdropped, abandonUpsert_eq]
    rw [hsubmit] at hlater ⊢
    exact ⟨hlater, h⟩
  | none =>
    obtain ⟨s', hs', hc, hopen, -⟩ := upsertInOrder_eq h b.index (b.order.perm b.data)
    have hsubmit : s.submit b = (s', [⟨b.index, b.data,
        s.acceptedLines b.index (b.order.lines b.data),
        (s.contents.upsertEntries b.index b.data).2⟩]) := by
      simp only [submit, hdropped, hs']
    -- The batch took effect, so it has one record, which tells what it did to the contents.
    rw [hsubmit] at hlater ⊢
    rw [hc] at hlater
    have haccepted := acceptedFrom h b.index b.order b.data
    exact ⟨.cons ⟨rfl, haccepted.distinct, haccepted.mem_iff⟩ hlater, hopen⟩

/-- The records of all submissions explain what these made of the contents, one after the other. -/
theorem Storage.submitAll_explained {s : Storage} (h : s.isOpen = true)
    (batches : List Submission) :
    Explains s.contents (s.submitAll batches).2 (s.submitAll batches).1.contents := by
  induction batches generalizing s with
  | nil => exact .nil s.contents
  | cons b rest ih =>
    have hopen : (s.submit b).1.isOpen = true :=
      (s.submit_explained h b (.nil _)).2
    exact (s.submit_explained h b (ih hopen)).1

/-- Lines that lead from a stored value to another: each gives as its old value what is stored when
its turn comes. -/
inductive Leads : Option Bytes → List UpsertLine → Option Bytes → Prop where
  | nil (stored : Option Bytes) : Leads stored [] stored
  | cons {stored last : Option Bytes} {line : UpsertLine} {rest : List UpsertLine}
      (hold : line.old = stored) (hrest : Leads (some line.new) rest last) :
      Leads stored (line :: rest) last

theorem Leads.append {stored mid last : Option Bytes} {l l' : List UpsertLine}
    (h : Leads stored l mid) (h' : Leads mid l' last) : Leads stored (l ++ l') last := by
  induction h with
  | nil => exact h'
  | cons hold _ ih => exact .cons hold (ih h')

/-- A chain of accepted lines ends at the new value of the last one. -/
theorem Leads.last_eq {stored last : Option Bytes} {l : List UpsertLine} (h : Leads stored l last) :
    last = (latestValue l).or stored := by
  induction h with
  | nil => rfl
  | @cons stored last line rest hold hrest ih =>
    rw [ih, latestValue, latestValue]
    cases rest with
    | nil => rfl
    | cons next rest =>
      rw [List.getLast?_cons_cons, List.getLast?_eq_getLast_of_ne_nil (List.cons_ne_nil next rest)]
      rfl

theorem Leads.old_head {stored last : Option Bytes} {l : List UpsertLine}
    (h : Leads stored l last) : ∀ line ∈ l.head?, line.old = stored := by
  cases h with
  | nil => simp
  | cons hold _ => simpa using hold

/-- In a chain of accepted lines, the old value of each is the new value of the one before. -/
theorem Leads.isChain {stored last : Option Bytes} {l : List UpsertLine} (h : Leads stored l last) :
    l.IsChain fun earlier later => later.old = some earlier.new := by
  induction h with
  | nil => exact List.isChain_nil
  | cons hold hrest ih =>
    apply List.isChain_cons.2
    exact ⟨hrest.old_head, ih⟩

/-- At most one line of a chain is accepted as new. -/
theorem Leads.filter_new {stored last : Option Bytes} {l : List UpsertLine}
    (h : Leads stored l last) :
    (l.filter fun line => line.old.isNone).length ≤ if stored = none then 1 else 0 := by
  induction h with
  | nil => simp
  | @cons stored last line rest hold hrest ih =>
    have hnone : (rest.filter fun line => line.old.isNone).length = 0 := by
      simpa using ih
    rw [List.filter_cons]
    -- After the first line something is stored, so no later line gives no old value.
    cases stored with
    | none => simp [hold, hnone]
    | some value => simp [hold, hnone]

theorem filterMap_eq_toList {lines : List (Uid × UpsertLine)} (h : DistinctKeys lines) (uid : Uid) :
    (lines.filterMap fun line => if line.1 = uid then some line.2 else none) =
      (SortedMap.lineValue? uid lines).toList := by
  induction lines with
  | nil => rfl
  | cons x rest ih =>
    obtain ⟨hx, hrest⟩ := h.of_cons
    rw [List.filterMap_cons]
    by_cases hu : x.1 = uid
    · subst hu
      have hnone : SortedMap.lineValue? x.1 rest = none := SortedMap.lineValue?_eq_none_iff.2 hx
      rw [if_pos rfl, ih hrest, hnone, SortedMap.lineValue?_cons_self x.1 x.2 rest]
      rfl
    · rw [if_neg hu, ih hrest, SortedMap.lineValue?_cons_of_ne (Ne.symm hu)]

theorem BatchRecord.AgreesWith.lineValue?_accepted {r : BatchRecord} {c : Contents}
    (h : r.AgreesWith c) (uid : Uid) :
    SortedMap.lineValue? uid r.accepted =
      (r.data.get? uid).filter fun line => (c.table r.index .entries).get? uid = line.old := by
  apply Option.ext
  intro line
  rw [SortedMap.lineValue?_eq_some_iff_mem h.distinct, h.mem_accepted_iff,
    Option.filter_eq_some_iff, decide_eq_true_iff]

/-- What one record says of an identifier leads from the value it met to the value it left. -/
theorem BatchRecord.AgreesWith.leads {r : BatchRecord} {c : Contents} (h : r.AgreesWith c)
    (index : IndexId) (uid : Uid) :
    Leads ((c.table index .entries).get? uid) (acceptedAt index uid [r])
      (((c.upsertEntries r.index r.data).1.table index .entries).get? uid) := by
  have hsingle : acceptedAt index uid [r] =
      if r.index = index then (SortedMap.lineValue? uid r.accepted).toList else [] := by
    rw [acceptedAt, List.flatMap_singleton, filterMap_eq_toList h.distinct]
  rw [hsingle]
  by_cases hindex : r.index = index
  · subst hindex
    rw [if_pos rfl, h.lineValue?_accepted, Contents.table_upsertEntries]
    -- A batch has at most one line for the identifier, so the chain gets one link or none.
    cases hdata : r.data.get? uid with
    | none =>
      have hkept := EncryptedTable.get?_swapped (c.table r.index .entries) r.data uid
      simp only [hdata] at hkept
      rw [hkept]
      exact .nil _
    | some line =>
      have hafter := EncryptedTable.get?_swapped (c.table r.index .entries) r.data uid
      simp only [hdata] at hafter
      by_cases hold : (c.table r.index .entries).get? uid = line.old
      · rw [if_pos hold] at hafter
        rw [hafter]
        simp only [Option.filter_some, hold, decide_true, if_true, Option.toList_some]
        exact .cons rfl (.nil _)
      · rw [if_neg hold] at hafter
        rw [hafter]
        simp only [Option.filter_some, hold, decide_false, Bool.false_eq_true, if_false,
          Option.toList_none]
        exact .nil _
  · have hother : ¬(index = r.index ∧ TableKind.entries = .entries) := fun h => hindex h.1.symm
    rw [if_neg hindex, c.table_upsertEntries_of_ne hother]
    exact .nil _

/-- The accepted lines of an identifier lead from what was stored first to what is stored last. -/
theorem Explains.leads {c last : Contents} {records : List BatchRecord}
    (h : Explains c records last) (index : IndexId) (uid : Uid) :
    Leads ((c.table index .entries).get? uid) (acceptedAt index uid records)
      ((last.table index .entries).get? uid) := by
  induction h with
  | nil => exact .nil _
  | @cons c last r rest hr hrest ih =>
    have happend : acceptedAt index uid (r :: rest) =
        acceptedAt index uid [r] ++ acceptedAt index uid rest := by
      simp [acceptedAt]
    rw [happend]
    exact (hr.leads index uid).append ih

/-- What holds of the records of a run from empty storage, and of the contents it ends with. -/
structure NoUpdateLost (records : List BatchRecord) (last : Contents) : Prop where
  /-- The first line accepted for an identifier gives no old value. -/
  first_is_new : ∀ index uid, ∀ line ∈ (acceptedAt index uid records).head?, line.old = none
  /-- Every later one gives the new value of the one before. -/
  linked : ∀ index uid,
    (acceptedAt index uid records).IsChain fun earlier later => later.old = some earlier.new
  stored_eq : ∀ index uid,
    (last.table index .entries).get? uid = latestValue (acceptedAt index uid records)
  /-- Of all lines that give no old value, one at most is accepted. -/
  one_winner : ∀ index uid,
    ((acceptedAt index uid records).filter fun line => line.old.isNone).length ≤ 1
  /-- A line is accepted when it gives what the last accepted line left; else that is reported. -/
  decided : ∀ before r after, records = before ++ r :: after → ∀ uid line,
    r.data.get? uid = some line →
      ((uid, line) ∈ r.accepted ↔ line.old = latestValue (acceptedAt r.index uid before)) ∧
      r.rejected.get? uid =
        if line.old = latestValue (acceptedAt r.index uid before) then none
        else latestValue (acceptedAt r.index uid before)
  /-- Nothing else is reported. -/
  reported_sent : ∀ r ∈ records, ∀ uid, r.data.get? uid = none → r.rejected.get? uid = none

theorem BatchRecord.AgreesWith.get?_rejected {r : BatchRecord} {c : Contents} (h : r.AgreesWith c)
    (uid : Uid) :
    r.rejected.get? uid =
      match r.data.get? uid with
      | some line =>
        if line.old = (c.table r.index .entries).get? uid then none
        else (c.table r.index .entries).get? uid
      | none => none := by
  apply Option.ext
  intro value
  rw [h.rejected_eq, Contents.upsertEntries, EncryptedTable.get?_rejections_eq_some_iff]
  cases hdata : r.data.get? uid with
  | none => simp
  | some line =>
    simp only [Option.some.injEq, exists_eq_left']
    split
    -- a line with the right old value is written, and so not rejected
    · rename_i hold
      simp only [← hold]
      exact iff_of_false (fun h => h.2 h.1) (by simp)
    · rename_i hold
      constructor
      · exact fun h => h.1
      · intro hstored
        exact ⟨hstored, fun hv => hold (hv.trans hstored.symm)⟩

/-- Records that explain what is stored lose no update. -/
theorem Explains.noUpdateLost {records : List BatchRecord} {last : Contents}
    (h : Explains Contents.empty records last) : NoUpdateLost records last := by
  have hleads (index : IndexId) (uid : Uid) := h.leads index uid
  refine ⟨fun index uid => (hleads index uid).old_head, fun index uid => (hleads index uid).isChain,
    fun index uid => ?_, fun index uid => (hleads index uid).filter_new, ?_, ?_⟩
  · rw [(hleads index uid).last_eq]
    exact Option.or_none
  · intro before r after heq uid line hdata
    subst heq
    -- The batch meets the contents that the records before it lead to.
    obtain ⟨mid, hbefore, hafter⟩ := h.split
    have hmid : (mid.table r.index .entries).get? uid =
        latestValue (acceptedAt r.index uid before) := by
      rw [(hbefore.leads r.index uid).last_eq]
      exact Option.or_none
    cases hafter with
    | cons hr _ =>
      rw [hr.mem_accepted_iff, hr.get?_rejected, hdata, hmid]
      exact ⟨⟨fun h => h.2.symm, fun h => ⟨rfl, h.symm⟩⟩, rfl⟩
  · intro r hr uid hdata
    obtain ⟨before, after, rfl⟩ := List.append_of_mem hr
    obtain ⟨mid, -, hafter⟩ := h.split
    cases hafter with
    | cons hagrees _ => rw [hagrees.get?_rejected, hdata]

/-- The submissions that are recorded are those that were not given up, in their order. -/
theorem Storage.records_submitAll {s : Storage} (h : s.isOpen = true) (batches : List Submission) :
    (s.submitAll batches).2.map (fun r => (r.index, r.data)) =
      (batches.filter fun b => b.droppedAfter.isNone).map fun b => (b.index, b.data) := by
  induction batches generalizing s with
  | nil => rfl
  | cons b rest ih =>
    have hopen : (s.submit b).1.isOpen = true := (s.submit_explained h b (.nil _)).2
    have hrest := ih hopen
    cases hdropped : b.droppedAfter with
    | some count =>
      have hnone : (s.submit b).2 = [] := by simp only [submit, hdropped]
      simpa [submitAll, hnone, hdropped] using hrest
    | none =>
      obtain ⟨s', hs', -⟩ := upsertInOrder_eq h b.index (b.order.perm b.data)
      have hone : (s.submit b).2.map (fun r => (r.index, r.data)) = [(b.index, b.data)] := by
        simp only [submit, hdropped, hs', List.map_cons, List.map_nil]
      simp only [submitAll, List.map_append, hone, hrest, List.filter_cons, hdropped,
        Option.isNone_none, if_true, List.map_cons, List.singleton_append]

/-- Whatever batches clients send and in whatever order they run, every batch that is not dropped
takes effect, and no update is lost. -/
theorem no_update_is_lost (kind : StorageKind) (batches : List Submission) :
    ((Storage.empty kind).submitAll batches).2.map (fun r => (r.index, r.data)) =
        (batches.filter fun b => b.droppedAfter.isNone).map (fun b => (b.index, b.data)) ∧
      NoUpdateLost ((Storage.empty kind).submitAll batches).2
        ((Storage.empty kind).submitAll batches).1.contents := by
  have hopen : (Storage.empty kind).isOpen = true := (Storage.usable_empty kind).isOpen
  refine ⟨Storage.records_submitAll hopen batches, ?_⟩
  have hexplained := Storage.submitAll_explained hopen batches
  rw [Storage.contents_empty] at hexplained
  exact hexplained.noUpdateLost

end IndexVault
