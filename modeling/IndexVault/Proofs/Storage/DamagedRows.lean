import IndexVault.Proofs.Storage.Equivalence

namespace IndexVault

open SortedMap (VisitOrder lineValue?)

/-- A row whose identifier has a wrong length. -/
structure DamagedRow where
  key : RowKey
  value : Bytes
  length_ne : key.uid.length ≠ 32

namespace DamagedRow

def line (row : DamagedRow) : RowKey × Bytes := (row.key, row.value)

/-- The row is one of a table of an index. -/
def IsIn (row : DamagedRow) (index : IndexId) (kind : TableKind) : Prop :=
  row.key.index = index ∧ row.key.tag = kind.tag

end DamagedRow

namespace RowStore

/-- Damage puts a row in if its key is free. -/
def addDamaged (s : RowStore) (row : DamagedRow) : RowStore :=
  match s.insertRaw row.key row.value with
  | .ok s' => s'
  | .error _ => s

/-- Damage changes no size. -/
theorem sizes_addDamaged (s : RowStore) (row : DamagedRow) :
    (s.addDamaged row).sizes = s.sizes := by
  unfold addDamaged insertRaw
  split_ifs <;> rfl

theorem get?_addDamaged (s : RowStore) (row : DamagedRow) (key : RowKey) :
    (s.addDamaged row).lines.get? key = (s.lines.get? key).or (lineValue? key [row.line]) := by
  unfold addDamaged insertRaw
  by_cases hkey : key = row.key
  · subst hkey
    rw [DamagedRow.line, SortedMap.lineValue?_cons_self]
    -- The first row of a key stays.
    cases hstored : s.lines.get? row.key with
    | none => exact SortedMap.get?_insert_self s.lines row.key row.value
    | some stored => exact hstored
  · rw [DamagedRow.line, SortedMap.lineValue?_cons_of_ne hkey, lineValue?, Option.or_none]
    split_ifs
    · exact SortedMap.get?_insert_of_ne s.lines hkey row.value
    · rfl

/-- The second store has the rows of the first and some damaged ones. -/
structure WithDamage (damage : List DamagedRow) (s d : RowStore) : Prop where
  sizes : d.sizes = s.sizes
  undamaged : s.Undamaged
  sound : ∀ key, key.uid.length = 32 → d.lines.get? key = s.lines.get? key
  damaged : ∀ key, key.uid.length ≠ 32 →
    d.lines.get? key = lineValue? key (damage.map DamagedRow.line)

namespace WithDamage

variable {damage : List DamagedRow} {s d : RowStore}

theorem empty : WithDamage [] {} {} :=
  ⟨rfl, fun _ _ hvalue => (by cases hvalue), fun _ _ => rfl, fun _ _ => rfl⟩

theorem addDamaged (h : WithDamage damage s d) (row : DamagedRow) :
    WithDamage (damage ++ [row]) s (d.addDamaged row) where
  sizes := (d.sizes_addDamaged row).trans h.sizes
  undamaged := h.undamaged
  sound := by
    intro key hkey
    have hne : key ≠ row.key := by
      rintro rfl
      exact row.length_ne hkey
    rw [get?_addDamaged, DamagedRow.line, SortedMap.lineValue?_cons_of_ne hne, lineValue?,
      Option.or_none]
    exact h.sound key hkey
  damaged := by
    intro key hkey
    rw [get?_addDamaged, h.damaged key hkey, List.map_append, SortedMap.lineValue?_append]
    rfl

theorem table (h : WithDamage damage s d) (index : IndexId) (kind : TableKind) :
    d.table index kind = s.table index kind := by
  apply SortedMap.ext_get?
  intro uid
  rw [get?_table, get?_table]
  exact h.sound _ uid.length_eq

theorem contents (h : WithDamage damage s d) : d.contents = s.contents := by
  apply Contents.ext
  · funext index kind
    exact h.table index kind
  · funext index
    exact congrArg (fun sizes => (sizes.get? index).getD 0) h.sizes

/-- A line is written under a whole identifier, which no damaged row has. -/
theorem write (h : WithDamage damage s d) (index : IndexId) (kind : TableKind) (uid : Uid)
    (value : Bytes) : WithDamage damage
      { s with lines := s.lines.insert (RowKey.ofUid index kind uid) value }
      { d with lines := d.lines.insert (RowKey.ofUid index kind uid) value } where
  sizes := h.sizes
  undamaged := h.undamaged.write index kind uid value
  sound := by
    intro key hkey
    rw [SortedMap.get?_insert, SortedMap.get?_insert, h.sound key hkey]
  damaged := by
    intro key hkey
    have hne : key ≠ RowKey.ofUid index kind uid := by
      rintro rfl
      exact hkey uid.length_eq
    rw [SortedMap.get?_insert_of_ne _ hne]
    exact h.damaged key hkey

theorem insertLines (h : WithDamage damage s d) (index : IndexId) (kind : TableKind)
    (lines : List (Uid × Bytes)) :
    WithDamage damage (s.insertLines index kind lines) (d.insertLines index kind lines) := by
  induction lines generalizing s d with
  | nil => exact h
  | cons line rest ih => exact ih (h.write index kind line.1 line.2)

theorem addSize (h : WithDamage damage s d) (index : IndexId) (added : Nat) :
    WithDamage damage (s.addSize index added) (d.addSize index added) where
  sizes := by
    unfold RowStore.addSize
    split_ifs
    · exact h.sizes
    · simp only [h.sizes]
  undamaged := h.undamaged.addSize index added
  sound := by
    rw [lines_addSize, lines_addSize]
    exact h.sound
  damaged := by
    rw [lines_addSize]
    exact h.damaged

theorem writeLines (h : WithDamage damage s d) (index : IndexId) (kind : TableKind)
    (lines : List (Uid × Bytes)) (added : Nat) : WithDamage damage
      (s.writeLines index kind lines added) (d.writeLines index kind lines added) :=
  (h.insertLines index kind lines).addSize index added

end WithDamage

/-- A row of a wrong length makes the reading of all rows fail, and the error tells a length that is not 32.
-/
theorem readRows_of_damaged (t : EncryptedTable) {rows : List (Bytes × Bytes)}
    (h : ∃ row ∈ rows, row.1.length ≠ 32) :
    ∃ n, readRows t rows =
      .error (.internal ("corrupted line key: " ++ (PayloadError.uidLength 32 n).message)) := by
  obtain ⟨damaged, hmem, hlength⟩ := h
  induction rows generalizing t with
  | nil => cases hmem
  | cons row rest ih =>
    have hstep : readRows t (row :: rest) =
        (readUid row.1 >>= fun uid => pure (t.insert uid row.2)) >>= fun t' =>
          readRows t' rest := rfl
    by_cases hrow : row.1.length = 32
    · -- A whole identifier is read; the damaged one comes later.
      have hne : damaged ≠ row := by
        rintro rfl
        exact hlength hrow
      have huid : readUid row.1 = .ok ⟨row.1, hrow⟩ := by
        rw [readUid, Uid.ofBytes, dif_pos hrow]
      rw [hstep, huid]
      exact ih (t.insert ⟨row.1, hrow⟩ row.2) (List.mem_of_ne_of_mem hne hmem)
    · have huid : readUid row.1 = .error (.internal
          ("corrupted line key: " ++ (PayloadError.uidLength 32 row.1.length).message)) := by
        rw [readUid, Uid.ofBytes, dif_neg hrow]
      rw [hstep, huid]
      exact ⟨row.1.length, rfl⟩

/-- One damaged row refuses the whole table that it is in. -/
theorem fetchAll_of_damaged {s : RowStore} {index : IndexId} {kind : TableKind} {uid value : Bytes}
    (hrow : s.lines.get? ⟨index, kind.tag, uid⟩ = some value) (hlength : uid.length ≠ 32) :
    ∃ n, s.fetchAll index kind =
      .error (.internal ("corrupted line key: " ++ (PayloadError.uidLength 32 n).message)) :=
  readRows_of_damaged ∅ ⟨(uid, value), mem_selectTable.2 hrow, hlength⟩

namespace WithDamage

variable {damage : List DamagedRow} {s d : RowStore}

/-- Under a damaged key there is a row: the one damaged first. -/
theorem exists_get?_iff (h : WithDamage damage s d) {key : RowKey} (hkey : key.uid.length ≠ 32) :
    (∃ value, d.lines.get? key = some value) ↔ ∃ row ∈ damage, row.key = key := by
  rw [← Option.ne_none_iff_exists', h.damaged key hkey, Ne, SortedMap.lineValue?_eq_none_iff,
    not_not, List.map_map, List.mem_map]
  rfl

/-- A query for a whole table fails where a damaged row stands in that table. -/
theorem fetchAll_of_mem (h : WithDamage damage s d) {index : IndexId} {kind : TableKind}
    {row : DamagedRow} (hmem : row ∈ damage) (hin : row.IsIn index kind) :
    ∃ n, d.fetchAll index kind =
      .error (.internal ("corrupted line key: " ++ (PayloadError.uidLength 32 n).message)) := by
  obtain ⟨value, hvalue⟩ := (h.exists_get?_iff row.length_ne).2 ⟨row, hmem, rfl⟩
  have hrow : d.lines.get? ⟨index, kind.tag, row.key.uid⟩ = some value := by
    rw [← hin.1, ← hin.2]
    exact hvalue
  exact fetchAll_of_damaged hrow row.length_ne

/-- Without damage in a table, a query for it answers its lines. -/
theorem fetchAll_of_forall (h : WithDamage damage s d) {index : IndexId} {kind : TableKind}
    (hnone : ∀ row ∈ damage, ¬row.IsIn index kind) :
    d.fetchAll index kind = .ok (d.table index kind) := by
  apply fetchAll_of_length_eq
  intro stored hstored
  by_contra hlength
  obtain ⟨row, hmem, hrow⟩ :=
    (h.exists_get?_iff hlength).1 ⟨stored.2, mem_selectTable.1 hstored⟩
  exact hnone row hmem ⟨congrArg RowKey.index hrow, congrArg RowKey.tag hrow⟩

end WithDamage

end RowStore

namespace Storage

def addDamaged (s : Storage) (row : DamagedRow) : Storage :=
  match s with
  | keyValue store => keyValue store
  | rows store => rows (store.addDamaged row)
  | closedRows store => closedRows (store.addDamaged row)

/-- The value of the row with a key. -/
def row? (s : Storage) (key : RowKey) : Option Bytes :=
  match s with
  | keyValue _ => none
  | rows store | closedRows store => store.lines.get? key

/-- Two databases, both open or both closed, of which the second has damaged rows besides. -/
inductive WithDamage (damage : List DamagedRow) : Storage → Storage → Prop
  | opened {s d : RowStore} (h : RowStore.WithDamage damage s d) :
    WithDamage damage (rows s) (rows d)
  | closed {s d : RowStore} (h : RowStore.WithDamage damage s d) :
    WithDamage damage (closedRows s) (closedRows d)

/-- A call that does not ask for a whole table answers what the contents call for. -/
theorem perform_of_isOpen {s : Storage} (h : s.isOpen = true) (o : VisitOrder Uid)
    {call : StorageCall} (hcall : ∀ index kind, call ≠ .fetchAll index kind) :
    (s.perform o call).2 = .ok (s.contents.perform call).2 := by
  cases call with
  | upsertEntries index data =>
    rw [perform, upsertInOrder_eq_upserted h index (o.perm data)]
    rfl
  | insertChains index data =>
    rw [perform, insertInOrder_eq_inserted h index (o.perm data)]
    rfl
  | fetch index kind uids =>
    rw [perform, fetchInOrder_eq h index kind (o.keys_perm uids)]
    rfl
  | fetchAll index kind => exact absurd rfl (hcall index kind)
  | size index =>
    rw [perform, size_eq h]
    rfl
  | sizes indexes =>
    rw [perform, sizes_eq h]
    rfl

/-- A closed database answers every call the same, whatever it holds. -/
theorem perform_closedRows (store store' : RowStore) (o o' : VisitOrder Uid) (call : StorageCall) :
    ((closedRows store).perform o call).2 = ((closedRows store').perform o' call).2 := by
  cases call with
  | fetch index kind uids =>
    have hempty : (o.keys uids).isEmpty = (o'.keys uids).isEmpty :=
      ((o.keys_perm uids).trans (o'.keys_perm uids).symm).isEmpty_eq
    simp only [perform, fetchInOrder, hempty]
  | upsertEntries index data => rfl
  | insertChains index data => rfl
  | fetchAll index kind => rfl
  | size index => rfl
  | sizes indexes => rfl

namespace WithDamage

variable {damage : List DamagedRow} {s d : Storage}

theorem isOpen (h : WithDamage damage s d) : d.isOpen = s.isOpen := by
  cases h with
  | opened h => rfl
  | closed h => rfl

theorem contents (h : WithDamage damage s d) : d.contents = s.contents := by
  cases h with
  | opened h => exact h.contents
  | closed h => exact h.contents

theorem row?_sound (h : WithDamage damage s d) {key : RowKey} (hkey : key.uid.length = 32) :
    d.row? key = s.row? key := by
  cases h with
  | opened h => exact h.sound key hkey
  | closed h => exact h.sound key hkey

/-- The damaged rows are found as they were put. -/
theorem row?_damaged (h : WithDamage damage s d) {key : RowKey} (hkey : key.uid.length ≠ 32) :
    d.row? key = lineValue? key (damage.map DamagedRow.line) := by
  cases h with
  | opened h => exact h.damaged key hkey
  | closed h => exact h.damaged key hkey

/-- No call but the query for a whole table is answered any differently for the damage. -/
theorem answer (h : WithDamage damage s d) (o o' : VisitOrder Uid) {call : StorageCall}
    (hcall : ∀ index kind, call ≠ .fetchAll index kind) :
    (d.perform o' call).2 = (s.perform o call).2 := by
  cases hopen : s.isOpen with
  | true =>
    rw [perform_of_isOpen hopen o hcall, perform_of_isOpen (h.isOpen.trans hopen) o' hcall,
      h.contents]
  | false =>
    cases h with
    | opened h => cases hopen
    | closed h => exact perform_closedRows _ _ o' o call

theorem writeLines (h : WithDamage damage s d) (index : IndexId) (kind : TableKind)
    (lines : List (Uid × Bytes)) (added : Nat) :
    WithDamage damage (s.writeLines index kind lines added) (d.writeLines index kind lines added) := by
  cases h with
  | opened h => exact opened (h.writeLines index kind lines added)
  | closed h => exact closed (h.writeLines index kind lines added)

/-- Whatever a call does, it leaves the damaged rows as they were. -/
theorem perform (h : WithDamage damage s d) (o o' : VisitOrder Uid) (call : StorageCall) :
    WithDamage damage (s.perform o call).1 (d.perform o' call).1 := by
  -- a closed database refuses every call and is left as it was
  cases h with
  | closed h => cases call <;> exact closed h
  | opened h =>
    cases call with
    | upsertEntries index data =>
      have hrows := opened h
      rw [Storage.perform, Storage.perform, upsertInOrder_eq_upserted rfl index (o.perm data),
        upsertInOrder_eq_upserted rfl index (o'.perm data), upserted, upserted, hrows.contents]
      exact hrows.writeLines index .entries _ _
    | insertChains index data =>
      have hrows := opened h
      rw [Storage.perform, Storage.perform, insertInOrder_eq_inserted rfl index (o.perm data),
        insertInOrder_eq_inserted rfl index (o'.perm data)]
      exact hrows.writeLines index .chains _ _
    | fetch index kind uids => exact opened h
    | fetchAll index kind => exact opened h
    | size index => exact opened h
    | sizes indexes => exact opened h

end WithDamage

end Storage

/-- What happens to a database: a call, and the orders in which the run without damage and the run
with it happen to visit its lines; the database is closed, or opened again; a row is damaged. -/
inductive DatabaseEvent where
  | call (call : StorageCall) (soundOrder damagedOrder : VisitOrder Uid)
  | close
  | reopen
  | damage (row : DamagedRow)

def DatabaseEvent.damagedRows : DatabaseEvent → List DamagedRow
  | damage row => [row]
  | call _ _ _ | close | reopen => []

/-- The rows that were damaged in a history, in the order of their damage. -/
def damagedRows (history : List DatabaseEvent) : List DamagedRow :=
  history.flatMap DatabaseEvent.damagedRows

theorem damagedRows_append (history later : List DatabaseEvent) :
    damagedRows (history ++ later) = damagedRows history ++ damagedRows later :=
  List.flatMap_append

namespace Storage

/-- The run in which nothing is damaged. -/
def soundStep (s : Storage) : DatabaseEvent → Storage
  | .call call order _ => (s.perform order call).1
  | .close => s.close
  | .reopen => s.reopen
  | .damage _ => s

def damagedStep (s : Storage) : DatabaseEvent → Storage
  | .call call _ order => (s.perform order call).1
  | .close => s.close
  | .reopen => s.reopen
  | .damage row => s.addDamaged row

variable {damage : List DamagedRow} {s d : Storage}

/-- Each call and each damage keeps the two databases side by side. -/
theorem WithDamage.step (h : WithDamage damage s d) (event : DatabaseEvent) :
    WithDamage (damage ++ event.damagedRows) (s.soundStep event) (d.damagedStep event) := by
  cases event with
  | call call order order' =>
    rw [DatabaseEvent.damagedRows, List.append_nil]
    exact h.perform order order' call
  | close =>
    rw [DatabaseEvent.damagedRows, List.append_nil]
    cases h with
    | opened h => exact closed h
    | closed h => exact closed h
  | reopen =>
    rw [DatabaseEvent.damagedRows, List.append_nil]
    cases h with
    | opened h => exact opened h
    | closed h => exact opened h
  | damage row =>
    cases h with
    | opened h => exact opened (h.addDamaged row)
    | closed h => exact closed (h.addDamaged row)

theorem WithDamage.foldl (h : WithDamage damage s d) (history : List DatabaseEvent) :
    WithDamage (damage ++ damagedRows history)
      (history.foldl soundStep s) (history.foldl damagedStep d) := by
  induction history generalizing damage s d with
  | nil =>
    rw [damagedRows, List.flatMap_nil, List.append_nil]
    exact h
  | cons event rest ih =>
    rw [damagedRows, List.flatMap_cons, ← List.append_assoc]
    exact ih (h.step event)

/-- The database after a history in which nothing was damaged. -/
def soundAfter (history : List DatabaseEvent) : Storage := history.foldl soundStep (empty .rows)

def damagedAfter (history : List DatabaseEvent) : Storage :=
  history.foldl damagedStep (empty .rows)

/-- After any history the damaged database holds what the sound one holds, and the damaged rows. -/
theorem withDamage_after (history : List DatabaseEvent) :
    WithDamage (damagedRows history) (soundAfter history) (damagedAfter history) :=
  (WithDamage.opened .empty).foldl history

theorem WithDamage.fetchAll_of_mem (h : WithDamage damage s d) (hopen : d.isOpen = true)
    {index : IndexId} {kind : TableKind} {row : DamagedRow} (hmem : row ∈ damage)
    (hin : row.IsIn index kind) : ∃ reason, d.fetchAll index kind = .error (.internal reason) := by
  cases h with
  | closed h => cases hopen
  | opened h =>
    obtain ⟨n, hfails⟩ := h.fetchAll_of_mem hmem hin
    exact ⟨_, hfails⟩

theorem WithDamage.fetchAll_of_forall (h : WithDamage damage s d) (hopen : d.isOpen = true)
    {index : IndexId} {kind : TableKind} (hnone : ∀ row ∈ damage, ¬row.IsIn index kind) :
    ∃ lines, d.fetchAll index kind = .ok lines ∧ s.fetchAll index kind = .ok lines ∧
      ∀ uid, lines.get? uid = d.row? (RowKey.ofUid index kind uid) := by
  cases h with
  | closed h => cases hopen
  | @opened s d h =>
    refine ⟨d.table index kind, h.fetchAll_of_forall hnone, ?_, d.get?_table index kind⟩
    rw [h.table index kind]
    exact RowStore.fetchAll_eq h.undamaged index kind

/-- Damaged rows are contained. Whatever was called before and after the damage, a call that does not ask
for a whole table answers as if nothing had been damaged, and of the queries for a whole table those fail
that meet a damaged row there. What is stored under whole identifiers is what it would be, and a damaged row
stays as it is. Sizes are taken to stay below `2 ^ 63`. -/
theorem damagedAfter_contained (history : List DatabaseEvent) :
    (∀ call o o', (∀ index kind, call ≠ .fetchAll index kind) →
      ((damagedAfter history).perform o' call).2 = ((soundAfter history).perform o call).2) ∧
    ((damagedAfter history).isOpen = (soundAfter history).isOpen) ∧
    ((damagedAfter history).isOpen = true →
      (∀ call o, (∀ index kind, call ≠ .fetchAll index kind) →
        ∃ answer, ((damagedAfter history).perform o call).2 = .ok answer) ∧
      ∀ index kind,
        ((∃ reason, (damagedAfter history).fetchAll index kind = .error (.internal reason)) ↔
          ∃ row ∈ damagedRows history, row.IsIn index kind) ∧
        ((∀ row ∈ damagedRows history, ¬row.IsIn index kind) →
          ∃ lines, (damagedAfter history).fetchAll index kind = .ok lines ∧
            (soundAfter history).fetchAll index kind = .ok lines ∧
            ∀ uid, lines.get? uid = (damagedAfter history).row? (RowKey.ofUid index kind uid))) ∧
    (∀ key, key.uid.length = 32 → (damagedAfter history).row? key = (soundAfter history).row? key) ∧
    (∀ key, key.uid.length ≠ 32 →
      (damagedAfter history).row? key =
        lineValue? key ((damagedRows history).map DamagedRow.line) ∧
      ∀ later value, (damagedAfter history).row? key = some value →
        (damagedAfter (history ++ later)).row? key = some value) := by
  have h := withDamage_after history
  refine ⟨fun call o o' hcall => h.answer o o' hcall, h.isOpen, fun hopen => ⟨?_, ?_⟩,
    fun key hkey => h.row?_sound hkey, fun key hkey => ⟨h.row?_damaged hkey, ?_⟩⟩
  · intro call o hcall
    exact ⟨_, perform_of_isOpen hopen o hcall⟩
  · intro index kind
    refine ⟨⟨?_, fun ⟨row, hmem, hin⟩ => h.fetchAll_of_mem hopen hmem hin⟩,
      fun hnone => h.fetchAll_of_forall hopen hnone⟩
    rintro ⟨reason, hfails⟩
    by_contra hnone
    obtain ⟨lines, hlines, -⟩ := h.fetchAll_of_forall hopen fun row hmem hin =>
      hnone ⟨row, hmem, hin⟩
    cases hlines.symm.trans hfails
  · intro later value hvalue
    -- The first damaged row of a key is the one that is found, whatever was damaged later.
    rw [h.row?_damaged hkey] at hvalue
    rw [(withDamage_after (history ++ later)).row?_damaged hkey, damagedRows_append,
      List.map_append, SortedMap.lineValue?_append, hvalue, Option.some_or]

example :
    let history := [.call (.insertChains 1 (.ofList [(.repeating 7, [1, 2])])) .ascending .descending,
      .damage ⟨⟨1, TableKind.entries.tag, [9]⟩, [3], by decide⟩]
    (damagedAfter history).fetchAll 1 .entries =
        .error (.internal "corrupted line key: UID must be 32 bytes, got 1") ∧
      (damagedAfter history).fetchAll 1 .chains = .ok (.ofList [(.repeating 7, [1, 2])]) := by
  decide +kernel

end Storage

end IndexVault
