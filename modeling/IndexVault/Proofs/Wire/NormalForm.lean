import IndexVault.Proofs.Wire.RoundTrip

namespace IndexVault
namespace Wire

open SortedMap (VisitOrder)

section

variable {β : Type} {readLine : Read (Uid × β)}

theorem length_of_readLines {count : Nat} {input rest : Bytes} {lines : List (Uid × β)}
    (h : (readLines readLine count).run input = (.ok lines, rest)) : lines.length = count := by
  induction count generalizing input lines with
  | zero =>
    cases h
    rfl
  | succ count ih =>
    rw [readLines] at h
    obtain ⟨line, later, -, hlater⟩ := Attempt.run_bind_eq_ok_iff.1 h
    obtain ⟨lines', last, hlines', hpure⟩ := Attempt.run_bind_eq_ok_iff.1 hlater
    cases hpure
    have hlength : lines'.length = count := ih hlines'
    rw [List.length_cons, hlength]

/-- The count in front of a payload bounds the map that is read from it. -/
theorem size_lt_of_readPayload {input : Bytes} {m : SortedMap Uid β}
    (h : readPayload readLine input = .ok m) : m.size < UInt64.size := by
  rw [readPayload, readPayloadLines] at h
  split at h
  · rename_i lines rest hrun
    obtain ⟨count, later, hcount, hlines⟩ := Attempt.run_bind_eq_ok_iff.1 hrun
    have hlt : count < UInt64.size := readGroups_lt hcount
    have hlength : lines.length = count := length_of_readLines hlines
    cases hfinish : finish rest with
    | error e =>
      rw [hfinish] at h
      cases h
    | ok u =>
      rw [hfinish] at h
      cases h
      -- Repeated identifiers make the map smaller than the count, never larger.
      have hle := SortedMap.length_ofList_le lines
      exact Nat.lt_of_le_of_lt hle (hlength ▸ hlt)
  · cases h

end

/-- A kind of line. A value that fits is read back as what arrives of it, and whatever can be read
fits and arrives as it is. -/
structure LineFormat (β : Type) where
  read : Read (Uid × β)
  write : Uid × β → Bytes
  arrives : β → β
  Fits : β → Prop
  read_write {uid : Uid} {value : β} (h : Fits value) (rest : Bytes) :
    read.run (write (uid, value) ++ rest) = (.ok (uid, arrives value), rest)
  of_read {input rest : Bytes} {line : Uid × β} (h : read.run input = (.ok line, rest)) :
    Fits line.2 ∧ arrives line.2 = line.2

namespace LineFormat

variable {β : Type} (F : LineFormat β)

/-- A map arrives with every value as it arrives by itself. -/
theorem readPayload_writePayload (o : VisitOrder Uid) {m : SortedMap Uid β}
    (hsize : m.size < UInt64.size) (hfits : ∀ uid value, m.get? uid = some value → F.Fits value) :
    readPayload F.read (writePayload F.write (o.lines m)) = .ok (m.mapValues F.arrives) := by
  have hcount : (o.lines m).length < UInt64.size := (o.perm m).length_eq ▸ hsize
  have hlines : ∀ line ∈ o.lines m, ∀ rest,
      F.read.run (F.write line ++ rest) = (.ok (line.1, F.arrives line.2), rest) := by
    intro line hline rest
    have hvalue : m.get? line.1 = some line.2 :=
      SortedMap.get?_eq_some_iff.2 ((o.perm m).mem_iff.1 hline)
    exact F.read_write (hfits line.1 line.2 hvalue) rest
  rw [Wire.readPayload_writePayload hcount hlines]
  exact congrArg Except.ok (SortedMap.ofList_perm
    (SortedMap.distinctKeys_mapValues F.arrives (o.distinctKeys m)) ((o.perm m).map _))

theorem mapValues_of_fixed {m : SortedMap Uid β}
    (h : ∀ uid value, m.get? uid = some value → F.arrives value = value) :
    m.mapValues F.arrives = m := by
  apply SortedMap.ext_get?
  intro uid
  rw [SortedMap.get?_mapValues]
  cases hvalue : m.get? uid with
  | none => rfl
  | some value => exact congrArg some (h uid value hvalue)

/-- The values of a map that was read fit, and arrive unchanged. -/
theorem value_of_readPayload {input : Bytes} {m : SortedMap Uid β}
    (h : readPayload F.read input = .ok m) {uid : Uid} {value : β} (hvalue : m.get? uid = some value) :
    F.Fits value ∧ F.arrives value = value :=
  forall_of_readPayload (P := fun line : Uid × β => F.Fits line.2 ∧ F.arrives line.2 = line.2)
    (fun _ _ _ hline => F.of_read hline) h hvalue

/-- What was read once reads back as it is, in whatever order it is written again. -/
theorem reread (o : VisitOrder Uid) {input : Bytes} {m : SortedMap Uid β}
    (h : readPayload F.read input = .ok m) :
    readPayload F.read (writePayload F.write (o.lines m)) = .ok m := by
  have hsize : m.size < UInt64.size := size_lt_of_readPayload h
  have hvalues : ∀ uid value, m.get? uid = some value → F.Fits value ∧ F.arrives value = value :=
    fun _ _ hvalue => F.value_of_readPayload h hvalue
  rw [F.readPayload_writePayload o hsize fun uid value hvalue => (hvalues uid value hvalue).1]
  exact congrArg Except.ok
    (F.mapValues_of_fixed fun uid value hvalue => (hvalues uid value hvalue).2)

end LineFormat

def uidFormat : LineFormat Unit where
  read := readUidLine
  write := writeUidLine
  arrives := id
  Fits _ := True
  read_write _ rest := run_readUidLine_append _ rest
  of_read _ := ⟨trivial, rfl⟩

def valueFormat : LineFormat Bytes where
  read := readValueLine
  write := writeValueLine
  arrives := id
  Fits value := value.length < UInt64.size
  read_write h rest := run_readValueLine_append h rest
  of_read h := ⟨length_lt_of_readValueLine h, rfl⟩

theorem received_of_oldValue {line : UpsertLine} {b : Bytes} (h : line.old = oldValue b) :
    line.received = line := by
  obtain ⟨old, new⟩ := line
  cases h
  cases b <;> rfl

theorem length_oldValue_getD_le (b : Bytes) : ((oldValue b).getD []).length ≤ b.length := by
  cases b with
  | nil => exact Nat.zero_le _
  | cons x rest => exact Nat.le_refl _

def upsertFormat : LineFormat UpsertLine where
  read := readUpsertLine
  write := writeUpsertLine
  arrives := UpsertLine.received
  Fits line := (line.old.getD []).length < UInt64.size ∧ line.new.length < UInt64.size
  read_write h rest := run_readUpsertLine_append h.1 h.2 rest
  of_read h := by
    obtain ⟨b, hold, hsize, hnew⟩ := values_of_readUpsertLine h
    refine ⟨⟨?_, hnew⟩, received_of_oldValue hold⟩
    rw [hold]
    exact Nat.lt_of_le_of_lt (length_oldValue_getD_le b) hsize

/-- A line of a batch loses an empty old value on its way, and nothing else. -/
theorem received_eq (line : UpsertLine) :
    line.received = { line with old := if line.old = some [] then none else line.old } := by
  obtain ⟨old, new⟩ := line
  rcases old with _ | (_ | ⟨b, rest⟩) <;> rfl

theorem old_ne_some_nil_of_received {line : UpsertLine} (h : line.received = line) :
    line.old ≠ some [] := by
  intro hold
  have hnone : line.received.old = none := by
    rw [received_eq, if_pos hold]
  rw [h, hold] at hnone
  cases hnone

/-- Nothing that was read holds an old value of no bytes. -/
theorem old_ne_some_nil_of_readUpsertData {input : Bytes} {data : UpsertData}
    (h : readUpsertData input = .ok data) {uid : Uid} {line : UpsertLine}
    (hline : data.get? uid = some line) : line.old ≠ some [] :=
  old_ne_some_nil_of_received (upsertFormat.value_of_readPayload h hline).2

/-- Sets and tables read back as they are, and a batch with every empty old value gone and nothing else
changed; counts and lengths are numbers of 64 bits, as they are for whatever fits in memory. What was
read from any bytes is as it would read back already. -/
theorem payloads_read_back (o : VisitOrder Uid) :
    (∀ uids : UidSet, uids.size < UInt64.size →
      readUidSet (writePayload writeUidLine (o.lines uids)) = .ok uids) ∧
    (∀ t : EncryptedTable, t.size < UInt64.size →
      (∀ uid value, t.get? uid = some value → value.length < UInt64.size) →
      readTable (writePayload writeValueLine (o.lines t)) = .ok t) ∧
    (∀ data : UpsertData, data.size < UInt64.size →
      (∀ uid line, data.get? uid = some line →
        (∀ old, line.old = some old → old.length < UInt64.size) ∧ line.new.length < UInt64.size) →
      ∃ data', readUpsertData (writePayload writeUpsertLine (o.lines data)) = .ok data' ∧
        ∀ uid, data'.get? uid = (data.get? uid).map fun line =>
          { line with old := if line.old = some [] then none else line.old }) ∧
    (∀ input uids, readUidSet input = .ok uids →
      readUidSet (writePayload writeUidLine (o.lines uids)) = .ok uids) ∧
    (∀ input t, readTable input = .ok t →
      readTable (writePayload writeValueLine (o.lines t)) = .ok t) ∧
    (∀ input data, readUpsertData input = .ok data →
      (∀ uid line, data.get? uid = some line → line.old ≠ some []) ∧
      readUpsertData (writePayload writeUpsertLine (o.lines data)) = .ok data) := by
  refine ⟨?uids, ?tables, ?batches, ?uidsAgain, ?tablesAgain, ?batchesAgain⟩
  case uids =>
    intro uids hsize
    have hread := uidFormat.readPayload_writePayload o hsize fun _ _ _ => trivial
    have hsame : uids.mapValues uidFormat.arrives = uids :=
      uidFormat.mapValues_of_fixed fun _ _ _ => rfl
    rw [hsame] at hread
    exact hread
  case tables =>
    intro t hsize hvalues
    exact readTable_writePayload_of_fits o hsize hvalues
  case batches =>
    intro data hsize hlines
    have hfits : ∀ uid line, data.get? uid = some line → upsertFormat.Fits line := by
      intro uid line hline
      obtain ⟨hold, hnew⟩ := hlines uid line hline
      -- a missing old value is written as an empty one, which fits as well
      refine ⟨?_, hnew⟩
      cases h : line.old with
      | none => exact Nat.zero_lt_of_lt hnew
      | some old => exact hold old h
    refine ⟨data.received, upsertFormat.readPayload_writePayload o hsize hfits, ?_⟩
    intro uid
    rw [UpsertData.get?_received]
    exact congrArg (fun f => (data.get? uid).map f) (funext received_eq)
  case uidsAgain =>
    intro input uids h
    exact uidFormat.reread o h
  case tablesAgain =>
    intro input t h
    exact valueFormat.reread o h
  case batchesAgain =>
    intro input data h
    refine ⟨?_, upsertFormat.reread o h⟩
    intro uid line hline
    exact old_ne_some_nil_of_readUpsertData h hline

/-- A batch of two lines, one of them with an empty old value. -/
def twoLines : UpsertData :=
  .ofList [(.repeating 0, ⟨some [], [7]⟩), (.repeating 1, ⟨some [7], []⟩)]

theorem payloads_read_back_twoLines :
    ∃ data, readUpsertData (writePayload writeUpsertLine (VisitOrder.descending.lines twoLines)) =
        .ok data ∧
      data.get? ⟨List.replicate 32 0, rfl⟩ = some ⟨none, [7]⟩ ∧
      data.get? ⟨List.replicate 32 1, rfl⟩ = some ⟨some [7], []⟩ := by
  have hshort : ∀ uid line, twoLines.get? uid = some line →
      (∀ old, line.old = some old → old.length < UInt64.size) ∧ line.new.length < UInt64.size := by
    intro uid line hline
    have hlines : ∀ x ∈ twoLines.toList,
        (x.2.old.getD []).length < UInt64.size ∧ x.2.new.length < UInt64.size := by decide
    obtain ⟨hold, hnew⟩ := hlines (uid, line) (SortedMap.get?_eq_some_iff.1 hline)
    refine ⟨?_, hnew⟩
    intro old hsome
    rw [hsome] at hold
    exact hold
  obtain ⟨-, -, hbatches, -⟩ := payloads_read_back VisitOrder.descending
  obtain ⟨data, hread, hlines⟩ := hbatches twoLines (by decide) hshort
  refine ⟨data, hread, ?_, ?_⟩
  · rw [hlines]
    decide
  · rw [hlines]
    decide

end Wire
end IndexVault
