import IndexVault.Proofs.VisitOrder
import IndexVault.Wire.Payload

namespace IndexVault

/-- The line as it arrives: an empty old value stands for none. -/
def UpsertLine.received (line : UpsertLine) : UpsertLine :=
  { line with old := line.old.filter fun b => !b.isEmpty }

/-- The batch as it arrives. -/
def UpsertData.received (data : UpsertData) : UpsertData :=
  data.mapValues UpsertLine.received

theorem UpsertData.get?_received (data : UpsertData) (uid : Uid) :
    data.received.get? uid = (data.get? uid).map UpsertLine.received :=
  SortedMap.get?_mapValues UpsertLine.received data uid

namespace Wire

open SortedMap (VisitOrder)

theorem oldValue_getD (old : Option Bytes) :
    oldValue (old.getD []) = old.filter fun b => !b.isEmpty := by
  cases old with
  | none => rfl
  | some b => cases b <;> rfl

theorem run_readUidLine_append (line : Uid × Unit) (rest : Bytes) :
    readUidLine.run (writeUidLine line ++ rest) = (.ok line, rest) := by
  rw [readUidLine, writeUidLine, Attempt.run_bind_of_ok (run_readUid_append line.1 rest)]
  rfl

theorem run_readValueLine_append {line : Uid × Bytes} (h : line.2.length < UInt64.size)
    (rest : Bytes) : readValueLine.run (writeValueLine line ++ rest) = (.ok line, rest) := by
  rw [readValueLine, writeValueLine, List.append_assoc,
    Attempt.run_bind_of_ok (run_readUid_append line.1 _),
    Attempt.run_bind_of_ok (run_readBlob_append h rest)]
  rfl

/-- A line of a batch arrives without an empty old value, and what is behind it is left. -/
theorem run_readUpsertLine_append {line : Uid × UpsertLine}
    (hold : (line.2.old.getD []).length < UInt64.size) (hnew : line.2.new.length < UInt64.size)
    (rest : Bytes) :
    readUpsertLine.run (writeUpsertLine line ++ rest) = (.ok (line.1, line.2.received), rest) := by
  rw [readUpsertLine, writeUpsertLine, List.append_assoc, List.append_assoc,
    Attempt.run_bind_of_ok (run_readUid_append line.1 _),
    Attempt.run_bind_of_ok (run_readBlob_append hold _),
    Attempt.run_bind_of_ok (run_readBlob_append hnew rest), oldValue_getD]
  rfl

section

variable {β γ : Type} {readLine : Read (Uid × β)} {writeLine : Uid × γ → Bytes}
  {meaning : Uid × γ → Uid × β}

/-- Lines that read back one by one read back together. -/
theorem run_readLines_append {lines : List (Uid × γ)}
    (h : ∀ line ∈ lines, ∀ rest,
      readLine.run (writeLine line ++ rest) = (.ok (meaning line), rest)) (rest : Bytes) :
    (readLines readLine lines.length).run (lines.flatMap writeLine ++ rest) =
      (.ok (lines.map meaning), rest) := by
  induction lines with
  | nil => rfl
  | cons x later ih =>
    have hx := h x List.mem_cons_self (later.flatMap writeLine ++ rest)
    have hlater := ih fun line hline => h line (List.mem_cons_of_mem x hline)
    rw [List.length_cons, readLines, List.flatMap_cons, List.append_assoc,
      Attempt.run_bind_of_ok hx, Attempt.run_bind_of_ok hlater]
    rfl

/-- A payload reads back as the map of what its lines mean, in whatever order they were written. -/
theorem readPayload_writePayload {lines : List (Uid × γ)} (hcount : lines.length < UInt64.size)
    (h : ∀ line ∈ lines, ∀ rest,
      readLine.run (writeLine line ++ rest) = (.ok (meaning line), rest)) :
    readPayload readLine (writePayload writeLine lines) =
      .ok (SortedMap.ofList (lines.map meaning)) := by
  have hnumber : readNumber.run (leb128 lines.length ++ lines.flatMap writeLine) =
      (.ok lines.length, lines.flatMap writeLine) := readLeb128_leb128 hcount _
  have hlines := run_readLines_append h []
  rw [List.append_nil] at hlines
  have hread : (readNumber >>= readLines readLine).run (writePayload writeLine lines) =
      (.ok (lines.map meaning), []) := by
    rw [writePayload, Attempt.run_bind_of_ok hnumber, hlines]
  rw [readPayload, readPayloadLines, hread]
  rfl

/-- No line is longer than the payload it is in. -/
theorem length_writeLine_le {lines : List (Uid × γ)} {line : Uid × γ} (h : line ∈ lines) :
    (writeLine line).length ≤ (writePayload writeLine lines).length := by
  have hsub : (writeLine line).Sublist (lines.flatMap writeLine) := by
    obtain ⟨before, after, rfl⟩ := List.append_of_mem h
    rw [List.flatMap_append, List.flatMap_cons]
    exact (List.sublist_append_left _ _).trans (List.sublist_append_right _ _)
  rw [writePayload, List.length_append]
  have := hsub.length_le
  omega

/-- Lines that are not empty are no more than the bytes they take. -/
theorem length_le_writePayload {lines : List (Uid × γ)}
    (h : ∀ line, 0 < (writeLine line).length) :
    lines.length ≤ (writePayload writeLine lines).length := by
  have hlines : lines.length ≤ (lines.flatMap writeLine).length := by
    induction lines with
    | nil => exact Nat.le_refl _
    | cons x rest ih =>
      have hx := h x
      rw [List.flatMap_cons, List.length_cons, List.length_append]
      omega
  rw [writePayload, List.length_append]
  omega

end

theorem length_le_blob (b : Bytes) : b.length ≤ (blob b).length := by
  rw [blob, List.length_append]
  omega

theorem length_writeUidLine (line : Uid × Unit) : (writeUidLine line).length = 32 :=
  line.1.length_eq

theorem length_writeValueLine (line : Uid × Bytes) :
    (writeValueLine line).length = 32 + (blob line.2).length := by
  rw [writeValueLine, List.length_append, line.1.length_eq]

theorem length_writeUpsertLine (line : Uid × UpsertLine) :
    (writeUpsertLine line).length =
      32 + (blob (line.2.old.getD [])).length + (blob line.2.new).length := by
  rw [writeUpsertLine, List.length_append, List.length_append, line.1.length_eq]

/-- A set of identifiers is read back, in whatever order it was written. -/
theorem readUidSet_writePayload {uids : UidSet} (o : VisitOrder Uid)
    (h : (writePayload writeUidLine (o.lines uids)).length < UInt64.size) :
    readUidSet (writePayload writeUidLine (o.lines uids)) = .ok uids := by
  have hcount := Nat.lt_of_le_of_lt (length_le_writePayload fun line => by
    rw [length_writeUidLine]
    decide) h
  have hread := readPayload_writePayload hcount fun line _ => run_readUidLine_append line
  rw [readUidSet, hread, List.map_id', SortedMap.ofList_perm (o.distinctKeys uids) (o.perm uids),
    SortedMap.ofList_toList]

/-- A table reads back when its size and its values can be counted in 64 bits. -/
theorem readTable_writePayload_of_fits {t : EncryptedTable} (o : VisitOrder Uid)
    (hcount : t.toList.length < UInt64.size)
    (h : ∀ uid value, t.get? uid = some value → value.length < UInt64.size) :
    readTable (writePayload writeValueLine (o.lines t)) = .ok t := by
  have hlines : (o.lines t).length < UInt64.size := (o.perm t).length_eq ▸ hcount
  have hread := readPayload_writePayload hlines fun (line : Uid × Bytes) hline =>
    run_readValueLine_append
      (h line.1 line.2 (SortedMap.get?_eq_some_iff.2 ((o.perm t).mem_iff.1 hline)))
  rw [readTable, hread, List.map_id', SortedMap.ofList_perm (o.distinctKeys t) (o.perm t),
    SortedMap.ofList_toList]

/-- A table whose payload can be counted in a word is read back, in whatever order it was written. -/
theorem readTable_writePayload {t : EncryptedTable} (o : VisitOrder Uid)
    (h : (writePayload writeValueLine (o.lines t)).length < UInt64.size) :
    readTable (writePayload writeValueLine (o.lines t)) = .ok t := by
  apply readTable_writePayload_of_fits o
  · rw [← (o.perm t).length_eq]
    exact Nat.lt_of_le_of_lt (length_le_writePayload fun line => by
      rw [length_writeValueLine]
      omega) h
  · intro uid value hvalue
    have hmem : (uid, value) ∈ o.lines t :=
      (o.perm t).mem_iff.2 (SortedMap.get?_eq_some_iff.1 hvalue)
    -- The bound on the payload bounds each of its values.
    have hline : (writeValueLine (uid, value)).length < UInt64.size :=
      Nat.lt_of_le_of_lt (length_writeLine_le hmem) h
    have hblob : value.length ≤ (blob value).length := length_le_blob value
    have hlength := length_writeValueLine (uid, value)
    dsimp only at hlength
    omega

/-- A batch reads back with its empty old values gone, in whatever order its lines were written. -/
theorem readUpsertData_writePayload {data : UpsertData} (o : VisitOrder Uid)
    (h : (writePayload writeUpsertLine (o.lines data)).length < UInt64.size) :
    readUpsertData (writePayload writeUpsertLine (o.lines data)) = .ok data.received := by
  have hcount := Nat.lt_of_le_of_lt (length_le_writePayload fun line => by
    rw [length_writeUpsertLine]
    omega) h
  have hlines : ∀ line ∈ o.lines data, ∀ rest, readUpsertLine.run (writeUpsertLine line ++ rest) =
      (.ok (line.1, line.2.received), rest) := by
    intro line hline rest
    -- a payload that can be counted in a word has no longer values
    have hlength : (writeUpsertLine line).length < UInt64.size :=
      Nat.lt_of_le_of_lt (length_writeLine_le hline) h
    have hold := length_le_blob (line.2.old.getD [])
    have hnew := length_le_blob line.2.new
    rw [length_writeUpsertLine] at hlength
    exact run_readUpsertLine_append (by omega) (by omega) rest
  rw [readUpsertData, readPayload_writePayload hcount hlines]
  exact congrArg Except.ok (SortedMap.ofList_perm
    (SortedMap.distinctKeys_mapValues UpsertLine.received (o.distinctKeys data))
    ((o.perm data).map _))

theorem readGroups_lt {groups n : Nat} {input rest : Bytes}
    (h : readGroups (groups + 1) input = (.ok n, rest)) : n < 2 * Nat.pow 128 groups := by
  -- The last group carries one bit; every group before it carries seven more.
  induction groups generalizing n input with
  | zero =>
    have hone : Nat.pow 128 0 = 1 := rfl
    cases input with
    | nil => simp [readGroups] at h
    | cons b later =>
      rw [readGroups] at h
      split at h
      · cases h
      · split at h
        · cases h
          omega
        · rw [readGroups] at h
          cases h
  | succ groups ih =>
    cases input with
    | nil => simp [readGroups] at h
    | cons b later =>
      have hpow : Nat.pow 128 (groups + 1) = Nat.pow 128 groups * 128 := rfl
      have hpos : 0 < Nat.pow 128 groups := Nat.pow_pos (by decide)
      rw [readGroups] at h
      split at h
      · cases h
      · split at h
        · cases h
          omega
        · split at h
          · rename_i high rest' hhigh
            cases h
            have hlt := ih hhigh
            omega
          · cases h

/-- The length of a value that was read fits a word. -/
theorem readBlob_length_lt {input b rest : Bytes} (h : readBlob.run input = (.ok b, rest)) :
    b.length < UInt64.size := by
  obtain ⟨size, later, hsize, hraw⟩ := Attempt.run_bind_eq_ok_iff.1 h
  have hlt : size < UInt64.size := readGroups_lt hsize
  simp only [readRaw] at hraw
  split at hraw
  · cases hraw
  · cases hraw
    exact Nat.lt_of_le_of_lt (List.length_take_le size later) hlt

section

variable {β : Type} {readLine : Read (Uid × β)} {P : Uid × β → Prop}

/-- What holds of every line that a reader gives holds of all lines read. -/
theorem forall_of_readLines (h : ∀ input line rest, readLine.run input = (.ok line, rest) → P line)
    {count : Nat} {input rest : Bytes} {lines : List (Uid × β)}
    (hread : (readLines readLine count).run input = (.ok lines, rest)) : ∀ line ∈ lines, P line := by
  induction count generalizing input lines with
  | zero =>
    cases hread
    simp
  | succ count ih =>
    rw [readLines] at hread
    obtain ⟨line, later, hline, hlater⟩ := Attempt.run_bind_eq_ok_iff.1 hread
    obtain ⟨lines', last, hlines', hpure⟩ := Attempt.run_bind_eq_ok_iff.1 hlater
    cases hpure
    intro x hx
    rcases List.mem_cons.1 hx with rfl | hx
    · exact h input x later hline
    · exact ih hlines' x hx

/-- What holds of every line that can be read holds of the lines of a payload. -/
theorem forall_of_readPayload
    (h : ∀ input line rest, readLine.run input = (.ok line, rest) → P line) {input : Bytes}
    {m : SortedMap Uid β} (hread : readPayload readLine input = .ok m) {uid : Uid} {value : β}
    (hvalue : m.get? uid = some value) : P (uid, value) := by
  rw [readPayload, readPayloadLines] at hread
  split at hread
  · rename_i lines rest hrun
    obtain ⟨count, later, hcount, hlines⟩ := Attempt.run_bind_eq_ok_iff.1 hrun
    cases hfinish : finish rest with
    | error e =>
      rw [hfinish] at hread
      cases hread
    | ok u =>
      rw [hfinish] at hread
      cases hread
      rcases SortedMap.get?_insertAll_eq_some hvalue with hmem | hempty
      · exact forall_of_readLines h hlines _ hmem
      · cases hempty
  · cases hread

end

theorem length_lt_of_readValueLine {input rest : Bytes} {line : Uid × Bytes}
    (h : readValueLine.run input = (.ok line, rest)) : line.2.length < UInt64.size := by
  obtain ⟨uid, later, -, hlater⟩ := Attempt.run_bind_eq_ok_iff.1 h
  obtain ⟨value, last, hblob, hpure⟩ := Attempt.run_bind_eq_ok_iff.1 hlater
  cases hpure
  exact readBlob_length_lt hblob

theorem values_of_readUpsertLine {input rest : Bytes} {line : Uid × UpsertLine}
    (h : readUpsertLine.run input = (.ok line, rest)) :
    ∃ old, line.2.old = oldValue old ∧ old.length < UInt64.size ∧
      line.2.new.length < UInt64.size := by
  obtain ⟨uid, later, -, hlater⟩ := Attempt.run_bind_eq_ok_iff.1 h
  obtain ⟨old, later', hold, hlater'⟩ := Attempt.run_bind_eq_ok_iff.1 hlater
  obtain ⟨new, last, hnew, hpure⟩ := Attempt.run_bind_eq_ok_iff.1 hlater'
  cases hpure
  exact ⟨old, rfl, readBlob_length_lt hold, readBlob_length_lt hnew⟩

theorem length_lt_of_readTable {input : Bytes} {t : EncryptedTable} (h : readTable input = .ok t)
    {uid : Uid} {value : Bytes} (hvalue : t.get? uid = some value) : value.length < UInt64.size :=
  forall_of_readPayload (P := fun line : Uid × Bytes => line.2.length < UInt64.size)
    (fun _ _ _ hline => length_lt_of_readValueLine hline) h hvalue

theorem length_lt_of_readUpsertData {input : Bytes} {data : UpsertData}
    (h : readUpsertData input = .ok data) {uid : Uid} {line : UpsertLine}
    (hline : data.get? uid = some line) : line.new.length < UInt64.size := by
  refine forall_of_readPayload (P := fun line : Uid × UpsertLine =>
    line.2.new.length < UInt64.size) ?_ h hline
  intro input line rest hline
  obtain ⟨-, -, -, hnew⟩ := values_of_readUpsertLine hline
  exact hnew

end Wire
end IndexVault
