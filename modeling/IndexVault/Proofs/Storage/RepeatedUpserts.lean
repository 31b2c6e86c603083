import IndexVault.Proofs.Storage.AgreeingLines
import IndexVault.Proofs.Storage.DisjointBatches
import IndexVault.Proofs.Storage.UpsertOutcomes

namespace IndexVault

open SortedMap (VisitOrder)

namespace SortedMap

variable {α β : Type} [Ord α] [Std.TransOrd α] [Std.LawfulEqOrd α]

/-- To write what is there already changes nothing. -/
theorem insert_of_get? {m : SortedMap α β} {k : α} {v : β} (h : m.get? k = some v) :
    m.insert k v = m := by
  apply ext_get?
  intro j
  rw [get?_insert]
  split
  · rename_i hj
    rw [compare_eq_iff.1 hj, h]
  · rfl

/-- Lines that a map holds already leave it as it is. -/
theorem insertAll_of_get? {m : SortedMap α β} {lines : List (α × β)}
    (h : ∀ x ∈ lines, m.get? x.1 = some x.2) : m.insertAll lines = m := by
  induction lines with
  | nil => rfl
  | cons x rest ih =>
    have hrest := ih fun y hy => h y (List.mem_cons_of_mem x hy)
    calc m.insertAll (x :: rest)
        = (m.insert x.1 x.2).insertAll rest := rfl
      _ = m := by rw [insert_of_get? (h x List.mem_cons_self), hrest]

end SortedMap

/-- What becomes of a line that is sent once more, by what became of it the time before. -/
def UpsertLine.again (line : UpsertLine) : LineOutcome → LineOutcome
  | .written => if line.old = some line.new then .written else .rejected line.new
  | .rejected stored => .rejected stored
  | .dropped => .dropped

/-- What the answer tells of a line, by what becomes of it. -/
def LineOutcome.told : LineOutcome → Option Bytes
  | .written => none
  | .rejected stored => some stored
  | .dropped => none

namespace UpsertLine.Becomes

variable {line : UpsertLine} {before after told : Option Bytes} {outcome : LineOutcome}

/-- What a line leaves under its identifier decides what becomes of it when it is sent again. -/
theorem outcome_after (h : line.Becomes before after told outcome) :
    line.outcome after = line.again outcome := by
  cases h with
  | written hold hnew htold =>
    rw [again]
    split
    · rename_i hself
      exact outcome_eq_written_iff.2 (hnew.trans hself.symm)
    · rename_i hself
      exact outcome_eq_rejected_iff.2 ⟨hnew, fun heq => hself (heq.symm.trans hnew)⟩
  | rejected hbefore hold hstays htold =>
    exact outcome_eq_rejected_iff.2 ⟨hstays, fun heq => hold (heq.symm.trans hstays)⟩
  | dropped hbefore hold hstays htold => exact outcome_eq_dropped_iff.2 ⟨hstays, hold⟩

theorem told_eq (h : line.Becomes before after told outcome) : told = outcome.told := by
  cases h with
  | written _ _ htold => exact htold
  | rejected _ _ _ htold => exact htold
  | dropped _ _ _ htold => exact htold

end UpsertLine.Becomes

namespace EncryptedTable

variable (t : EncryptedTable) (data : UpsertData)

/-- What a batch writes the second time is what it wrote the first time. -/
theorem get?_of_mem_writtenLines_swapped {x : Uid × Bytes}
    (hx : x ∈ EncryptedTable.writtenLines (t.swapped data) data.toList) :
    (t.swapped data).get? x.1 = some x.2 := by
  obtain ⟨line, hline, hold, hnew⟩ := mem_writtenLines.1 hx
  have hline : data.get? x.1 = some line := SortedMap.get?_eq_some_iff.2 hline
  have hbefore := t.get?_swapped data x.1
  simp only [hline] at hbefore
  by_cases hwritten : t.get? x.1 = line.old
  · rw [hbefore, if_pos hwritten, hnew]
  · -- A line that was not written the first time meets the same value again.
    rw [if_neg hwritten] at hbefore
    exact absurd (hbefore.symm.trans hold) hwritten

/-- A batch that is sent again writes no line where nothing was stored. -/
theorem newLines_swapped : EncryptedTable.newLines (t.swapped data) data.toList = [] := by
  apply List.filter_eq_nil_iff.2
  intro x hx
  rw [t.get?_of_mem_writtenLines_swapped data hx]
  exact Bool.false_ne_true

/-- A batch that is sent again leaves the table as it is. -/
theorem swapped_swapped : EncryptedTable.swapped (t.swapped data) data = t.swapped data :=
  SortedMap.insertAll_of_get? fun _ hx => t.get?_of_mem_writtenLines_swapped data hx

/-- A line that is sent again becomes what its outcome leads to. -/
theorem becomes_again {uid : Uid} {line : UpsertLine} (hline : data.get? uid = some line)
    {outcome : LineOutcome} (h : line.Becomes (t.get? uid) ((t.swapped data).get? uid)
      ((t.rejections data).get? uid) outcome) :
    line.Becomes ((t.swapped data).get? uid) ((t.swapped data).get? uid)
      ((EncryptedTable.rejections (t.swapped data) data).get? uid) (line.again outcome) := by
  -- The second time the batch meets what it left, and leaves it.
  have hsecond := becomes_outcome (t := t.swapped data) hline
  rwa [h.outcome_after, t.swapped_swapped data] at hsecond

end EncryptedTable

namespace Storage

/-- Lines that repeat what was written before them need not be written. -/
theorem writeLines_append_of_get? (s : Storage) (index : IndexId) (kind : TableKind)
    {lines again : List (Uid × Bytes)} (added : Nat)
    (h : ∀ x ∈ again, ((s.contents.table index kind).insertAll lines).get? x.1 = some x.2) :
    s.writeLines index kind (lines ++ again) added = s.writeLines index kind lines added := by
  -- rows are compared under their keys, which the table does not show
  have hrows (store : RowStore)
      (hstore : ∀ x ∈ again, ((store.table index kind).insertAll lines).get? x.1 = some x.2) :
      store.writeLines index kind (lines ++ again) added =
        store.writeLines index kind lines added := by
    rw [RowStore.writeLines, ← RowStore.insertLines_insertLines, RowStore.writeLines]
    apply congrArg (RowStore.addSize · index added)
    apply congrArg (RowStore.mk · store.sizes)
    apply SortedMap.insertAll_of_get?
    intro row hrow
    obtain ⟨x, hx, rfl⟩ := List.mem_map.1 hrow
    rw [← RowStore.get?_table, RowStore.table_insertLines, if_pos ⟨rfl, rfl⟩]
    exact hstore x hx
  cases s with
  | keyValue store =>
    have htable : (store.table index kind).insertAll (lines ++ again) =
        (store.table index kind).insertAll lines := by
      rw [SortedMap.insertAll_append]
      exact SortedMap.insertAll_of_get? h
    simp only [writeLines, KeyValueStore.writeLines, htable]
  | rows store => exact congrArg rows (hrows store h)
  | closedRows store => exact congrArg closedRows (hrows store h)

/-- An upsert that is sent again changes nothing more. -/
theorem upserted_upserted_self (s : Storage) (index : IndexId) (d : UpsertData) :
    (s.upserted index d).upserted index d = s.upserted index d := by
  let t := s.contents.table index .entries
  calc (s.upserted index d).upserted index d
      = (s.upserted index d).writeLines index .entries
          (EncryptedTable.writtenLines (t.swapped d) d.toList) 0 := by
        rw [upserted, table_upserted, t.newLines_swapped d]
        rfl
    _ = s.writeLines index .entries
          (t.writtenLines d.toList ++ EncryptedTable.writtenLines (t.swapped d) d.toList)
          (valueBytes (t.newLines d.toList)) :=
        s.writeLines_writeLines index .entries _ _ _ 0
    _ = s.upserted index d :=
        s.writeLines_append_of_get? index .entries _
          fun _ hx => t.get?_of_mem_writtenLines_swapped d hx

variable {s : Storage}

/-- However often an upsert is sent again, the store stays as the first one left it, and all later answers
are alike. -/
theorem run_repeated_upserts (hopen : s.isOpen = true) (index : IndexId) (d : UpsertData)
    (o : VisitOrder Uid) (later : List (VisitOrder Uid)) :
    s.run ((o :: later).map fun o => (o, .upsertEntries index d)) = (s.upserted index d,
      .ok (.table ((s.contents.table index .entries).rejections d)) ::
        later.map fun _ => .ok (.table (EncryptedTable.rejections
          ((s.contents.table index .entries).swapped d) d))) := by
  have hopen' : (s.upserted index d).isOpen = true := (s.isOpen_upserted index d).trans hopen
  -- By induction on the later ones: each starts from the store that it leaves.
  have hlater : (s.upserted index d).run (later.map fun o => (o, .upsertEntries index d)) =
      (s.upserted index d, later.map fun _ => .ok (.table (EncryptedTable.rejections
        ((s.contents.table index .entries).swapped d) d))) := by
    induction later with
    | nil => rfl
    | cons o' later ih =>
      simp only [List.map_cons, run, perform_upsertEntries index hopen', upserted_upserted_self, ih]
      rw [table_upserted]
  simp only [List.map_cons, run, perform_upsertEntries index hopen, hlater]

theorem perform_upsertEntries_of_closed (hclosed : s.isOpen = false) (index : IndexId)
    (d : UpsertData) (o : VisitOrder Uid) :
    s.perform o (.upsertEntries index d) = (s, .error closed) := by
  obtain ⟨store, rfl⟩ := eq_closedRows_of_not_isOpen hclosed
  rfl

/-- An upsert that is sent twice, one right after the other, leaves the same store as when it is sent once,
whatever the orders in which its lines are visited: all lines, those of damaged rows too, and all sizes,
which are taken to stay below `2 ^ 63`. A closed store refuses both and stays as it is. On an open one, what
becomes of each line the second time is told by what became of it the first time (`UpsertLine.again`): a
line that was written is rejected with its own new value, unless that is its old value, and then it is
written again; a line that was rejected is rejected with the same value; a line whose old value met nothing
is dropped again. Neither answer tells of any other line. -/
theorem repeated_upsert_harmless (s : Storage) (index : IndexId) (d : UpsertData) :
    ∃ s' first second,
      (∀ o : VisitOrder Uid, s.run [(o, .upsertEntries index d)] = (s', [first])) ∧
      (∀ o o' : VisitOrder Uid, s.run [(o, .upsertEntries index d), (o', .upsertEntries index d)] =
        (s', [first, second])) ∧
      ((s.isOpen = false ∧ s' = s ∧ first = .error closed ∧ second = .error closed) ∨
        s.isOpen = true ∧ ∃ told retold,
          first = .ok (.table told) ∧ second = .ok (.table retold) ∧
          (∀ uid line, d.get? uid = some line →
            ∃ outcome,
              line.Becomes (s.heldAt index .entries uid.bytes) (s'.heldAt index .entries uid.bytes)
                (told.get? uid) outcome ∧
              line.Becomes (s'.heldAt index .entries uid.bytes)
                (s'.heldAt index .entries uid.bytes) (retold.get? uid) (line.again outcome)) ∧
          ∀ uid, d.get? uid = none → told.get? uid = none ∧ retold.get? uid = none) := by
  cases hopen : s.isOpen with
  | false =>
    refine ⟨s, .error closed, .error closed, fun o => ?_, fun o o' => ?_, Or.inl ⟨rfl, rfl, rfl, rfl⟩⟩
    all_goals simp only [run, perform_upsertEntries_of_closed hopen]
  | true =>
    let t := s.contents.table index .entries
    refine ⟨s.upserted index d, .ok (.table (t.rejections d)),
      .ok (.table (EncryptedTable.rejections (t.swapped d) d)),
      fun o => run_repeated_upserts hopen index d o [],
      fun o o' => run_repeated_upserts hopen index d o [o'],
      Or.inr ⟨rfl, _, _, rfl, rfl, fun uid line hline => ?lines, fun uid hnone => ?others⟩⟩
    case lines =>
      -- the outcome is read off the table before, and the second one off the table between
      have hfirst := EncryptedTable.becomes_outcome (t := t) hline
      rw [heldAt_bytes, heldAt_bytes, table_upserted]
      exact ⟨_, hfirst, t.becomes_again d hline hfirst⟩
    case others =>
      rw [EncryptedTable.get?_rejections, EncryptedTable.get?_rejections, hnone]
      exact ⟨rfl, rfl⟩

/-- Three entries of index 1. -/
def threeEntries : Storage :=
  .rows { lines := .ofList [(RowKey.ofUid 1 .entries (.repeating 0), [1]),
    (RowKey.ofUid 1 .entries (.repeating 1), [2]), (RowKey.ofUid 1 .entries (.repeating 2), [3])] }

/-- The first line swaps the stored value for another one and the second for itself, the third takes the
stored entry for absent, the fourth is new, and the fifth has an old value where nothing is stored. -/
def batchOfEveryKind : UpsertData :=
  .ofList [(.repeating 0, ⟨some [1], [4]⟩), (.repeating 1, ⟨some [2], [2]⟩),
    (.repeating 2, ⟨none, [5]⟩), (.repeating 3, ⟨none, [6]⟩), (.repeating 4, ⟨some [7], [8]⟩)]

/-- Sent once more, the batch is told of the two values it has written and of the one it had met. -/
theorem repeated_upsert_harmless_everyKind :
    ∃ s' told retold,
      threeEntries.run [(.ascending, .upsertEntries 1 batchOfEveryKind)] =
        (s', [.ok (.table told)]) ∧
      threeEntries.run [(.ascending, .upsertEntries 1 batchOfEveryKind),
        (.descending, .upsertEntries 1 batchOfEveryKind)] =
        (s', [.ok (.table told), .ok (.table retold)]) ∧
      UpsertLine.Becomes ⟨some [1], [4]⟩ (some [1]) (s'.heldAt 1 .entries (.replicate 32 0))
        (told.get? (.repeating 0)) .written ∧
      retold.get? (.repeating 0) = some [4] ∧ retold.get? (.repeating 1) = none ∧
      retold.get? (.repeating 2) = some [3] ∧ retold.get? (.repeating 3) = some [6] ∧
      retold.get? (.repeating 4) = none := by
  obtain ⟨s', first, second, honce, htwice, ⟨hclosed, -⟩ | ⟨-, told, retold, rfl, rfl, hlines, -⟩⟩ :=
    repeated_upsert_harmless threeEntries 1 batchOfEveryKind
  · cases hclosed
  have htold : ∀ uid line, batchOfEveryKind.get? uid = some line → retold.get? uid =
      (line.again (line.outcome (threeEntries.heldAt 1 .entries uid.bytes))).told := by
    intro uid line hline
    obtain ⟨outcome, hfirst, hsecond⟩ := hlines uid line hline
    rw [hsecond.told_eq, hfirst.eq_outcome]
  have hwritten : UpsertLine.Becomes ⟨some [1], [4]⟩ (some [1])
      (s'.heldAt 1 .entries (.replicate 32 0)) (told.get? (.repeating 0)) .written := by
    obtain ⟨outcome, hfirst, -⟩ := hlines (.repeating 0) ⟨some [1], [4]⟩ rfl
    rw [hfirst.eq_outcome] at hfirst
    exact hfirst
  exact ⟨s', told, retold, honce .ascending, htwice .ascending .descending, hwritten,
    htold (.repeating 0) ⟨some [1], [4]⟩ rfl, htold (.repeating 1) ⟨some [2], [2]⟩ rfl,
    htold (.repeating 2) ⟨none, [5]⟩ rfl, htold (.repeating 3) ⟨none, [6]⟩ rfl,
    htold (.repeating 4) ⟨some [7], [8]⟩ rfl⟩

end Storage
end IndexVault
