import IndexVault.Proofs.Json.OneLine
import IndexVault.Proofs.Json.RoundTrip
import IndexVault.Proofs.VisitOrder
import IndexVault.RequestLog

namespace IndexVault

open Bytes (IsAscii IsPrintable)
open Json (Value)

/-- A fetch that was recorded, with the date of its record. -/
structure RecordedFetch where
  date : Int
  kind : TableKind
  uids : UidSet
  found : EncryptedTable

/-- A call on the log; `now` is the real time. -/
inductive LogCall where
  | record (now : Int) (kind : TableKind) (uids : UidSet) (found : EncryptedTable)
  | setFakeTime (now fake : Int)
  | reset

namespace RequestLog

def perform (log : RequestLog) : LogCall → Except Failure RequestLog
  | .record now kind uids found => log.record now kind uids found
  | .setFakeTime now fake => log.setFakeTime now fake
  | .reset => log.reset

/-- The records made since the last reset, once a call has succeeded. -/
def madeAfter (log : RequestLog) (made : List RecordedFetch) : LogCall → List RecordedFetch
  | .record now kind uids found => made ++ [⟨now - log.shift, kind, uids, found⟩]
  | .setFakeTime _ _ => made
  | .reset => []

/-- A run of calls on a log, with the records made since the last reset. A call that fails leaves both
as they were. -/
def run : RequestLog × List RecordedFetch → List LogCall → RequestLog × List RecordedFetch
  | state, [] => state
  | (log, made), call :: rest =>
    match log.perform call with
    | .ok log' => run (log', log.madeAfter made call) rest
    | .error _ => run (log, made) rest

end RequestLog

/-- A text in base 64 stands for some bytes. -/
def Spells (text : String) (b : Bytes) : Prop := Text.unbase64? (Bytes.ofText text) = some b

/-- Members that tell what was found for the identifiers that a fetch has asked for. -/
structure TellFound (members : List (String × Value)) (f : RecordedFetch) : Prop where
  distinct : (members.map Prod.fst).Nodup
  /-- Only identifiers that were asked for have a member. -/
  asked : ∀ m ∈ members, ∃ uid ∈ f.uids.keys, Spells m.1 uid.bytes
  /-- Each of them has exactly one. -/
  told : ∀ uid ∈ f.uids.keys, ∃! m, m ∈ members ∧ Spells m.1 uid.bytes
  null_iff : ∀ m ∈ members, ∀ uid : Uid, Spells m.1 uid.bytes →
    (m.2 = .null ↔ f.found.get? uid = none)
  value : ∀ m ∈ members, ∀ uid : Uid, Spells m.1 uid.bytes →
    ∀ v, f.found.get? uid = some v → ∃ text, m.2 = .text text ∧ Spells text v

/-- A line of the log that tells of a fetch. -/
def Tells (line : Value) (f : RecordedFetch) : Prop :=
  ∃ members, TellFound members f ∧
    line = .object [("data", .object members), ("date", .int f.date),
      ("type", .text ("fetch_" ++ f.kind.name))]

theorem spells_base64Text {b b' : Bytes} : Spells (Text.base64Text b) b' ↔ b = b' := by
  rw [Spells, Text.unbase64?_base64Text, Option.some.injEq]

namespace RecordedFetch

variable (f : RecordedFetch)

/-- The members for the identifiers that a fetch has asked for, in the order of the identifiers. -/
def askedMembers : List (String × Value) :=
  f.uids.keys.map fun uid =>
    (Text.base64Text uid.bytes, .ofOption (fun v => .text (Text.base64Text v)) (f.found.get? uid))

/-- The members of the record of a fetch, in the order of their names. -/
def members : List (String × Value) := (SortedMap.ofList f.askedMembers).toList

def json : Value := RequestLog.recordJson f.date f.kind f.uids f.found

theorem json_eq : f.json = .object [("data", .object f.members), ("date", .int f.date),
    ("type", .text ("fetch_" ++ f.kind.name))] := rfl

/-- An identifier can be told from its text in base 64. -/
theorem distinctKeys_askedMembers : SortedMap.DistinctKeys f.askedMembers := by
  rw [SortedMap.DistinctKeys, askedMembers, List.map_map]
  apply (SortedMap.nodup_keys f.uids).map
  intro uid uid' heq
  exact Uid.ext_bytes (Text.base64Text_injective heq)

/-- Sorting the members by name loses none of them. -/
theorem members_perm : f.members.Perm f.askedMembers :=
  SortedMap.toList_ofList_perm f.distinctKeys_askedMembers

theorem distinct_members : (f.members.map Prod.fst).Nodup :=
  SortedMap.distinctKeys_toList _

variable {f}

/-- The members of a record are the identifiers asked for, each with what was found. -/
theorem mem_members {m : String × Value} : m ∈ f.members ↔ ∃ uid ∈ f.uids.keys,
    (Text.base64Text uid.bytes,
      Value.ofOption (fun v => .text (Text.base64Text v)) (f.found.get? uid)) = m :=
  f.members_perm.mem_iff.trans List.mem_map

theorem tellFound_members : TellFound f.members f := by
  refine ⟨f.distinct_members, fun m hm => ?_, fun uid huid => ?_, fun m hm uid hspells => ?_,
    fun m hm uid hspells v hv => ?_⟩
  · obtain ⟨uid, huid, rfl⟩ := mem_members.1 hm
    exact ⟨uid, huid, spells_base64Text.2 rfl⟩
  · refine ⟨_, ⟨mem_members.2 ⟨uid, huid, rfl⟩, spells_base64Text.2 rfl⟩, ?_⟩
    -- The name of a member tells its identifier, and with it the rest of the member.
    rintro m ⟨hm, hspells⟩
    obtain ⟨uid', -, rfl⟩ := mem_members.1 hm
    rw [Uid.ext_bytes (spells_base64Text.1 hspells)]
  · obtain ⟨uid', -, rfl⟩ := mem_members.1 hm
    rw [Uid.ext_bytes (spells_base64Text.1 hspells)]
    cases f.found.get? uid with
    | none => exact iff_of_true rfl rfl
    | some v => exact iff_of_false (fun h => by cases h) (fun h => by cases h)
  · obtain ⟨uid', -, rfl⟩ := mem_members.1 hm
    rw [Uid.ext_bytes (spells_base64Text.1 hspells), hv]
    exact ⟨_, rfl, spells_base64Text.2 rfl⟩

/-- The object of a record tells what was found for each identifier. -/
theorem tells_json : Tells f.json f := ⟨f.members, tellFound_members, f.json_eq⟩

theorem readsBack_ofOption (depth : Nat) (v : Option Bytes) :
    (Value.ofOption (fun v => Value.text (Text.base64Text v)) v).ReadsBack depth := by
  cases v with
  | none => exact .null depth
  | some v => exact .text depth _

/-- The text of an identifier is not the reserved name, which has symbols that base 64 lacks. -/
theorem base64Text_ne_embeddingName (b : Bytes) :
    Bytes.ofText (Text.base64Text b) ≠ Json.embeddingName := by
  intro heq
  have hread := Text.unbase64?_base64Text b
  rw [heq] at hread
  have hnone : Text.unbase64? Json.embeddingName = none := by decide
  rw [hnone] at hread
  cases hread

/-- A record with a date of 64 bits reads back. -/
theorem readsBack_json (hdate : RequestLog.fitsInt64 f.date = true) :
    f.json.ReadsBack Json.maxDepth := by
  rw [RequestLog.fitsInt64, Bool.and_eq_true, decide_eq_true_eq, decide_eq_true_eq] at hdate
  have hhigh : f.date < UInt64.size := by
    have hmax : Int64.maxValue.toInt = 9223372036854775807 := rfl
    have hsize : (UInt64.size : Nat) = 18446744073709551616 := rfl
    omega
  -- the reader goes down two levels: the record, and the lines within it
  have hmembers : (Value.object f.members).ReadsBack (125 + 1) := by
    refine .object (fun m hm => ?_) (SortedMap.ascending _) (fun m hm => ?_)
    · obtain ⟨uid, -, rfl⟩ := mem_members.1 hm
      exact readsBack_ofOption 125 _
    · obtain ⟨uid, -, rfl⟩ := mem_members.1 (List.mem_of_mem_head? hm)
      exact base64Text_ne_embeddingName uid.bytes
  have hnames : ["data", "date", "type"].Pairwise fun a b => compare a b = .lt := by decide
  have hfirst : Bytes.ofText "data" ≠ Json.embeddingName := by decide
  rw [json_eq]
  refine .object (fun m hm => ?_) (SortedMap.ascending_iff.2 hnames) (fun m hm => ?_)
  · simp only [List.mem_cons, List.not_mem_nil, or_false] at hm
    rcases hm with rfl | rfl | rfl
    · exact hmembers
    · exact .whole 126 hdate.1 hhigh
    · exact .text 126 _
  · cases hm
    exact hfirst

theorem isAscii_base64Text (b : Bytes) : (Bytes.ofText (Text.base64Text b)).IsAscii := by
  rw [Text.ofText_base64Text]
  exact (Text.isPrintable_base64 b).isAscii

/-- All texts of a record are ASCII, so a record is one line (`isPrintable_line`). -/
theorem isAscii_json (f : RecordedFetch) : f.json.IsAscii := by
  have hmembers : (Value.object f.members).IsAscii := by
    refine .object (fun m hm => ?_) (fun m hm => ?_)
    · obtain ⟨uid, -, rfl⟩ := mem_members.1 hm
      exact isAscii_base64Text uid.bytes
    · obtain ⟨uid, -, rfl⟩ := mem_members.1 hm
      cases f.found.get? uid with
      | none => exact .null
      | some v => exact .text (isAscii_base64Text v)
  have htype : (Bytes.ofText ("fetch_" ++ f.kind.name)).IsAscii := by
    cases f.kind <;> decide
  have hnames : ∀ name ∈ ["data", "date", "type"], (Bytes.ofText name).IsAscii := by decide
  rw [json_eq]
  refine .object (fun m hm => hnames m.1 (List.mem_map_of_mem hm)) (fun m hm => ?_)
  · simp only [List.mem_cons, List.not_mem_nil, or_false] at hm
    rcases hm with rfl | rfl | rfl
    · exact hmembers
    · exact .whole f.date
    · exact .text htype

/-- The line of a record, without its end. -/
def line (f : RecordedFetch) : Bytes := f.json.compact

theorem isPrintable_line (f : RecordedFetch) : f.line.IsPrintable :=
  f.isAscii_json.isPrintable_compact

/-- The line of a record reads back as the object it was written for. -/
theorem readLine_line (hdate : RequestLog.fitsInt64 f.date = true) :
    RequestLog.readLine f.line = .ok f.json := by
  rw [RequestLog.readLine, line, Json.readValue_compact (readsBack_json hdate)]

theorem isBlankLine_line (f : RecordedFetch) : RequestLog.isBlankLine f.line = false := by
  have htext := Bytes.toText?_of_isAscii f.isPrintable_line.isAscii
  -- The line begins with a brace.
  have hfirst : ∃ tail, f.line = 0x7b :: tail := ⟨_, rfl⟩
  obtain ⟨tail, htail⟩ := hfirst
  rw [RequestLog.isBlankLine, htext, htail, Bytes.asciiText]
  simp only [String.toList_ofList, List.map_cons, List.all_cons]
  rfl

end RecordedFetch

namespace RequestLog

/-- A line is cut off at its end. -/
theorem splitLines_of_line {line : Bytes} (h : 0x0a ∉ line) (rest : Bytes) :
    splitLines (line ++ 0x0a :: rest) = line :: splitLines rest := by
  -- The first line end is the one behind the line.
  induction line with
  | nil => rfl
  | cons b line ih =>
    rw [List.mem_cons, not_or] at h
    have hb : (b == 0x0a) = false := beq_false_of_ne (Ne.symm h.1)
    rw [List.cons_append, splitLines, ih h.2]
    simp only [hb, Bool.false_eq_true, if_false]

/-- What the file holds after some records. -/
def contentOf (made : List RecordedFetch) : Bytes := made.flatMap fun f => f.line ++ [0x0a]

theorem contentOf_append_singleton (made : List RecordedFetch) (f : RecordedFetch) :
    contentOf (made ++ [f]) = contentOf made ++ (f.line ++ [0x0a]) := by
  simp [contentOf]

theorem isAscii_contentOf (made : List RecordedFetch) : (contentOf made).IsAscii := by
  intro x hx
  obtain ⟨f, -, hx⟩ := List.mem_flatMap.1 hx
  rcases List.mem_append.1 hx with hx | hx
  · exact (f.isPrintable_line x hx).2
  · rw [List.mem_singleton.1 hx]
    decide

/-- The lines of the file are those of the records, and one that is empty behind the last line end. -/
theorem splitLines_contentOf (made : List RecordedFetch) :
    splitLines (contentOf made) = made.map RecordedFetch.line ++ [[]] := by
  induction made with
  | nil => rfl
  | cons f rest ih =>
    have hline : 0x0a ∉ f.line := by
      intro hmem
      exact absurd (f.isPrintable_line 0x0a hmem).1 (by decide)
    have hcontent : contentOf (f :: rest) = f.line ++ 0x0a :: contentOf rest := by
      simp [contentOf]
    rw [hcontent, splitLines_of_line hline, ih]
    rfl

/-- The lines of records read as their objects, in their order. -/
theorem readContent_contentOf {made : List RecordedFetch}
    (hdates : ∀ f ∈ made, fitsInt64 f.date = true) :
    readContent (contentOf made) = .ok (made.map RecordedFetch.json) := by
  -- behind the last newline there is an empty line, which is passed over
  have hlines : (splitLines (contentOf made)).filter (!isBlankLine ·) =
      made.map RecordedFetch.line := by
    rw [splitLines_contentOf, List.filter_append, List.filter_eq_self.2]
    · have hlast : [([] : Bytes)].filter (!isBlankLine ·) = [] := by decide
      rw [hlast, List.append_nil]
    · intro line hline
      obtain ⟨f, -, rfl⟩ := List.mem_map.1 hline
      rw [f.isBlankLine_line]
      rfl
  rw [readContent, hlines]
  clear hlines
  induction made with
  | nil => rfl
  | cons f rest ih =>
    have hfirst := RecordedFetch.readLine_line (hdates f List.mem_cons_self)
    have hrest := ih fun f' hf' => hdates f' (List.mem_cons_of_mem f hf')
    rw [List.map_cons, List.mapM_cons, hfirst, hrest]
    rfl

/-- A log whose file holds the records made since the last reset, if there are any. -/
structure Holds (log : RequestLog) (made : List RecordedFetch) : Prop where
  file : (log.file = .absent ∧ made = []) ∨ log.file = .present (contentOf made)
  dates : ∀ f ∈ made, fitsInt64 f.date = true

/-- A log that holds some records reads as these. -/
theorem Holds.readAll {log : RequestLog} {made : List RecordedFetch} (h : log.Holds made) :
    log.readAll = .ok (made.map RecordedFetch.json) := by
  rcases h.file with ⟨hfile, rfl⟩ | hfile
  · rw [RequestLog.readAll, hfile]
    rfl
  · have htext : FilePlace.readText (.present (contentOf made)) = .ok (contentOf made) := by
      rw [FilePlace.readText, Bytes.toText?_of_isAscii (isAscii_contentOf made)]
      rfl
    rw [RequestLog.readAll, hfile, htext]
    exact readContent_contentOf h.dates

theorem withFile_eq_ok {log log' : RequestLog} {file : Except FileFault FilePlace}
    (h : log.withFile file = .ok log') : file = .ok log'.file := by
  unfold withFile at h
  split at h
  · cases h
    rfl
  · cases h

/-- A record that succeeds has appended its line. -/
theorem record_eq_ok {log log' : RequestLog} {now : Int} {kind : TableKind} {uids : UidSet}
    {found : EncryptedTable} (h : log.record now kind uids found = .ok log') :
    fitsInt64 (now - log.shift) = true ∧
      log.file.append ((⟨now - log.shift, kind, uids, found⟩ : RecordedFetch).line ++ [0x0a]) =
        .ok log'.file := by
  rw [record, date] at h
  by_cases hfits : fitsInt64 (now - log.shift) = true
  · rw [if_pos hfits] at h
    exact ⟨hfits, withFile_eq_ok h⟩
  · rw [if_neg hfits] at h
    cases h

theorem setFakeTime_eq_ok {log log' : RequestLog} {now fake : Int}
    (h : log.setFakeTime now fake = .ok log') : log'.file = log.file := by
  unfold setFakeTime at h
  split at h
  · cases h
    rfl
  · cases h

/-- Lines that are added stand behind those of the records, also where there was no file. -/
theorem Holds.append {log : RequestLog} {made : List RecordedFetch} (h : log.Holds made)
    {lines : Bytes} {file : FilePlace} (happended : log.file.append lines = .ok file) :
    file = .present (contentOf made ++ lines) := by
  rcases h.file with ⟨hfile, rfl⟩ | hfile
  · rw [hfile] at happended
    exact (Except.ok.inj happended).symm
  · rw [hfile] at happended
    exact (Except.ok.inj happended).symm

/-- Whether there was a file or none, there is none after a reset. -/
theorem Holds.reset {log log' : RequestLog} {made : List RecordedFetch} (h : log.Holds made)
    (hreset : log.reset = .ok log') : log'.file = .absent := by
  have hremoved := withFile_eq_ok hreset
  rcases h.file with ⟨hfile, -⟩ | hfile
  · rw [hfile] at hremoved
    exact (Except.ok.inj hremoved).symm
  · rw [hfile] at hremoved
    exact (Except.ok.inj hremoved).symm

/-- One call keeps the log and the list of its records in step. -/
theorem Holds.perform {log log' : RequestLog} {made : List RecordedFetch} (h : log.Holds made)
    {call : LogCall} (hcall : log.perform call = .ok log') :
    log'.Holds (log.madeAfter made call) := by
  cases call with
  | record now kind uids found =>
    obtain ⟨hfits, happended⟩ := record_eq_ok hcall
    refine ⟨Or.inr ?_, fun f hf => ?_⟩
    · rw [madeAfter, contentOf_append_singleton]
      exact h.append happended
    · rcases List.mem_append.1 hf with hold | hnew
      · exact h.dates f hold
      · rw [List.mem_singleton.1 hnew]
        exact hfits
  | setFakeTime now fake =>
    -- Only the dates of later records change.
    refine ⟨?_, h.dates⟩
    rw [setFakeTime_eq_ok hcall]
    exact h.file
  | reset =>
    refine ⟨Or.inl ⟨h.reset hcall, rfl⟩, ?_⟩
    intro f hf
    cases hf

/-- So does every run of calls. -/
theorem Holds.run {log : RequestLog} {made : List RecordedFetch} (h : log.Holds made)
    (calls : List LogCall) : (run (log, made) calls).1.Holds (run (log, made) calls).2 := by
  -- By induction on the calls: one that fails leaves the log and its records as they were.
  induction calls generalizing log made with
  | nil => exact h
  | cons call rest ih =>
    rw [RequestLog.run]
    split
    · rename_i hcall
      exact ih (h.perform hcall)
    · exact ih h

/-- Whatever calls are made on a log whose file is absent at first, however its dates are shifted, the
log reads as one object for each record made since the last reset, in their order, which tells what was
found for the identifiers asked for. -/
theorem readAll_run (shift : Int) (calls : List LogCall) :
    ∃ lines, (run (⟨.absent, shift⟩, []) calls).1.readAll = .ok lines ∧
      List.Forall₂ Tells lines (run (⟨.absent, shift⟩, []) calls).2 := by
  have hstart : (⟨.absent, shift⟩ : RequestLog).Holds [] := by
    refine ⟨Or.inl ⟨rfl, rfl⟩, ?_⟩
    intro f hf
    cases hf
  refine ⟨_, (hstart.run calls).readAll, ?_⟩
  rw [List.forall₂_map_left_iff]
  exact List.forall₂_same.2 fun f _ => f.tells_json

end RequestLog
end IndexVault
