import Mathlib.Data.List.DropRight
import IndexVault.Proofs.Json.JoinedTexts
import IndexVault.Proofs.RecordedFetches
import IndexVault.Proofs.Text.BlankTexts

/-! Records on a log that holds any text. A record is put behind the last byte of the file, so it joins a
last line that has no end: the log reads as before with the record behind it if that line holds blanks
of JSON only, and can be read no longer otherwise (`record_extends_iff_finished`). -/
namespace IndexVault

open Json (Value)

theorem RecordedFetch.not_mem_line (f : RecordedFetch) : 0x0a ∉ f.line := fun hmem =>
  absurd (f.isPrintable_line 0x0a hmem).1 (by decide)

namespace RequestLog

/-- What stands behind the last line end of a text. -/
def unfinishedLine (content : Bytes) : Bytes := content.rtakeWhile (· != 0x0a)

/-- A file that ends with a newline has no unfinished line. -/
theorem unfinishedLine_of_end (content : Bytes) : unfinishedLine (content ++ [0x0a]) = [] :=
  List.rtakeWhile_concat_neg _ _ _ (by decide)

theorem splitLines_ne_nil (content : Bytes) : splitLines content ≠ [] := by
  cases content with
  | nil => exact List.cons_ne_nil _ _
  | cons b rest =>
    rw [splitLines]
    split
    · exact List.cons_ne_nil _ _
    · split <;> exact List.cons_ne_nil _ _

theorem splitLines_of_not_mem {line : Bytes} (h : 0x0a ∉ line) : splitLines line = [line] := by
  induction line with
  | nil => rfl
  | cons b rest ih =>
    rw [List.mem_cons, not_or] at h
    rw [splitLines, ih h.2]
    simp only [beq_false_of_ne (Ne.symm h.1), Bool.false_eq_true, if_false]

/-- A newline cuts a file into the lines before it and those behind it. -/
theorem splitLines_append (content rest : Bytes) :
    splitLines (content ++ 0x0a :: rest) = splitLines content ++ splitLines rest := by
  induction content with
  | nil => rfl
  | cons b content ih =>
    rw [List.cons_append, splitLines, splitLines, ih]
    by_cases hb : (b == 0x0a) = true
    · rw [if_pos hb, if_pos hb]
      rfl
    · rw [if_neg hb, if_neg hb]
      cases hlines : splitLines content with
      | nil => exact absurd hlines (splitLines_ne_nil content)
      | cons line lines => rfl

theorem not_mem_unfinishedLine (content : Bytes) : 0x0a ∉ unfinishedLine content := by
  intro hmem
  have hne := List.mem_rtakeWhile_imp hmem
  cases hne

/-- The lines of a text but the last, which grows by what is put behind it. -/
theorem exists_splitLines (content : Bytes) : ∃ lines,
    splitLines content = lines ++ [unfinishedLine content] ∧
      ∀ line, 0x0a ∉ line →
        splitLines (content ++ (line ++ [0x0a])) = lines ++ [unfinishedLine content ++ line, []] := by
  -- What stands before the last line is empty, or ends with a line end.
  have hparts : ∃ lines, ∀ rest, splitLines (content.rdropWhile (· != 0x0a) ++ rest) =
      lines ++ splitLines rest := by
    rcases List.eq_nil_or_concat (content.rdropWhile (· != 0x0a)) with hnil | ⟨front, last, hfront⟩
    · exact ⟨[], fun rest => by rw [hnil]; rfl⟩
    · have hlast : last = 0x0a := by
        have hstop := List.rdropWhile_last_not (· != 0x0a) content (by rw [hfront]; simp)
        simpa [hfront] using hstop
      refine ⟨splitLines front, fun rest => ?_⟩
      rw [hfront, hlast, List.concat_eq_append, List.append_assoc]
      exact splitLines_append front rest
  obtain ⟨lines, hlines⟩ := hparts
  have hlast := not_mem_unfinishedLine content
  have hcontent : content = content.rdropWhile (· != 0x0a) ++ unfinishedLine content :=
    List.rdropWhile_append_rtakeWhile.symm
  refine ⟨lines, ?_, fun line hline => ?_⟩
  · conv_lhs => rw [hcontent]
    rw [hlines, splitLines_of_not_mem hlast]
  · have hjoined : 0x0a ∉ unfinishedLine content ++ line := fun hmem =>
      (List.mem_append.1 hmem).elim hlast hline
    conv_lhs => rw [hcontent]
    rw [List.append_assoc, hlines, ← List.append_assoc, splitLines_append,
      splitLines_of_not_mem hjoined]
    rfl

theorem isBlankLine_iff {line : Bytes} :
    isBlankLine line = true ↔
      ∃ cs : List Char, line = cs.flatMap String.utf8EncodeChar ∧ cs.all Text.isBlank = true := by
  rw [isBlankLine]
  constructor
  · intro h
    split at h
    · rename_i s htext
      refine ⟨s.toList, ?_, h⟩
      rw [← Bytes.ofText_eq_flatMap]
      exact Bytes.toText?_eq_some_iff.1 htext
    · cases h
  · rintro ⟨cs, rfl, hblank⟩
    have htext : Bytes.toText? (cs.flatMap String.utf8EncodeChar) = some (String.ofList cs) := by
      rw [Bytes.toText?_eq_some_iff, Bytes.ofText_eq_flatMap, String.toList_ofList]
    rw [htext]
    simpa only [String.toList_ofList] using hblank

/-- A blank line does not open an object. -/
theorem not_mem_of_isBlankLine {line : Bytes} (h : isBlankLine line = true) : 0x7b ∉ line := by
  obtain ⟨cs, rfl, hblank⟩ := isBlankLine_iff.1 h
  intro hmem
  obtain ⟨c, hc, hbyte⟩ := List.mem_flatMap.1 hmem
  exact Text.forall_of_isBlank (p := fun c => 0x7b ∉ String.utf8EncodeChar c) (by decide)
    (List.all_eq_true.1 hblank c hc) hbyte

theorem isBlankLine_of_all {line : Bytes} (h : line.all Json.isBlank = true) :
    isBlankLine line = true := by
  have hbyte : ∀ b ∈ line, b < 0x80 ∧ Text.isBlank (Char.ofNat b.toNat) = true := by
    intro b hb
    have hblank := Json.isBlank_iff.1 (List.all_eq_true.1 h b hb)
    rcases hblank with rfl | rfl | rfl | rfl <;> decide
  rw [isBlankLine, Bytes.toText?_of_isAscii fun b hb => (hbyte b hb).1]
  simp only [Bytes.asciiText, String.toList_ofList, List.all_map, List.all_eq_true]
  exact fun b hb => (hbyte b hb).2

/-- A blank line that holds more than blanks of JSON begins with a character that begins no value. -/
theorem skipBlank_of_isBlankLine {line : Bytes} (h : isBlankLine line = true)
    (hforeign : line.all Json.isBlank = false) :
    ∃ b tail, Json.skipBlank line = b :: tail ∧ Json.beginsValue b = false := by
  obtain ⟨cs, rfl, hblank⟩ := isBlankLine_iff.1 h
  clear h
  induction cs with
  | nil => cases hforeign
  | cons c cs ih =>
    rw [List.all_cons, Bool.and_eq_true] at hblank
    -- among the 25 blanks: JSON blanks throughout, or a first byte that begins nothing
    have hchar : (String.utf8EncodeChar c).all Json.isBlank = true ∨
        ((String.utf8EncodeChar c).head?.any fun b => !Json.isBlank b && !Json.beginsValue b) =
          true :=
      Text.forall_of_isBlank (p := fun c => (String.utf8EncodeChar c).all Json.isBlank = true ∨
        ((String.utf8EncodeChar c).head?.any fun b => !Json.isBlank b && !Json.beginsValue b) =
          true) (by decide) hblank.1
    rw [List.flatMap_cons, List.all_append] at hforeign
    rw [List.flatMap_cons]
    rcases hchar with hskipped | hfirst
    · rw [hskipped, Bool.true_and] at hforeign
      obtain ⟨b, tail, hskip, hb⟩ := ih hblank.2 hforeign
      exact ⟨b, tail, (Json.skipBlank_blanks hskipped _).trans hskip, hb⟩
    · cases hbytes : String.utf8EncodeChar c with
      | nil =>
        rw [hbytes] at hfirst
        cases hfirst
      | cons b tail =>
        rw [hbytes] at hfirst
        simp only [List.head?_cons, Option.any_some, Bool.and_eq_true, Bool.not_eq_true'] at hfirst
        exact ⟨b, _, Json.skipBlank_cons hfirst.1 _, hfirst.2⟩

/-- The values of some lines. -/
def readLines (lines : List Bytes) : Except Failure (List Value) :=
  (lines.filter (!isBlankLine ·)).mapM readLine

theorem readContent_eq (content : Bytes) : readContent content = readLines (splitLines content) := rfl

/-- Lines that are read one behind the other give the values of the first ones and of the later ones. -/
theorem readLines_append (lines more : List Bytes) :
    readLines (lines ++ more) =
      (readLines lines).bind fun values => (readLines more).map fun others => values ++ others := by
  rw [readLines, List.filter_append, List.mapM_append]
  rfl

/-- Blank lines are passed over. -/
theorem readLines_blank {line : Bytes} (h : isBlankLine line = true) (lines : List Bytes) :
    readLines (line :: lines) = readLines lines := by
  rw [readLines, List.filter_cons_of_neg (by rw [h]; decide)]
  rfl

theorem readLines_singleton {line : Bytes} (h : isBlankLine line = false) :
    readLines [line] = (readLine line).map fun v => [v] := by
  rw [readLines, List.filter_cons_of_pos (by rw [h]; rfl), List.filter_nil, List.mapM_cons]
  cases readLine line <;> rfl

/-- A line that is put behind an unfinished one is read with it. -/
theorem readContent_append {content line : Bytes} (hline : 0x0a ∉ line) (hbrace : 0x7b ∈ line)
    {values : List Value} (hread : readContent content = .ok values) :
    ∃ before last, readLines [unfinishedLine content] = .ok last ∧ values = before ++ last ∧
      readContent (content ++ (line ++ [0x0a])) =
        (readLine (unfinishedLine content ++ line)).map fun v => before ++ [v] := by
  obtain ⟨lines, hold, hnew⟩ := exists_splitLines content
  rw [readContent_eq, hold, readLines_append] at hread
  rw [readContent_eq, hnew line hline, readLines_append]
  cases hbefore : readLines lines with
  | error e =>
    rw [hbefore] at hread
    cases hread
  | ok before =>
    rw [hbefore] at hread
    obtain ⟨last, hlast, heq⟩ : ∃ last, readLines [unfinishedLine content] = .ok last ∧
        before ++ last = values := by
      cases hlast : readLines [unfinishedLine content] with
      | error e =>
        rw [hlast] at hread
        cases hread
      | ok last =>
        rw [hlast] at hread
        exact ⟨last, rfl, Except.ok.inj hread⟩
    have hfull : isBlankLine (unfinishedLine content ++ line) = false := by
      refine Bool.eq_false_iff.2 fun hblank => ?_
      exact not_mem_of_isBlankLine hblank (List.mem_append_right _ hbrace)
    -- Behind the new line there is only an empty one.
    have hjoined : readLines [unfinishedLine content ++ line, []] =
        (readLine (unfinishedLine content ++ line)).map fun v => [v] := by
      refine (readLines_append [unfinishedLine content ++ line] [[]]).trans ?_
      rw [readLines_singleton hfull]
      cases readLine (unfinishedLine content ++ line) <;> rfl
    refine ⟨before, last, hlast, heq.symm, ?_⟩
    rw [hjoined]
    cases readLine (unfinishedLine content ++ line) <;> rfl

/-- A line is read if it is one JSON value. -/
theorem readLine_eq_ok_iff {line : Bytes} {v : Value} :
    readLine line = .ok v ↔ Json.readValue line = some v := by
  rw [readLine]
  cases Json.readValue line with
  | none => simp
  | some v' => simp

theorem readLine_of_none {line : Bytes} (h : Json.readValue line = none) :
    readLine line = .error (.internal "corrupted request log") := by
  rw [readLine, h]

/-- A record behind blanks of JSON is read as if it stood alone. -/
theorem readLine_blanks_line {blanks : Bytes} (hblanks : blanks.all Json.isBlank = true)
    {f : RecordedFetch} (hdate : fitsInt64 f.date = true) :
    readLine (blanks ++ f.line) = .ok f.json :=
  readLine_eq_ok_iff.2 (Json.readValue_blanks_compact hblanks (RecordedFetch.readsBack_json hdate))

/-- A record behind anything else is not read, whether it stands behind a value or behind blanks that
are none of JSON. -/
theorem readLine_foreign_line {tail : Bytes} {last : List Value}
    (hread : readLines [tail] = .ok last) (hforeign : tail.all Json.isBlank = false)
    (f : RecordedFetch) :
    readLine (tail ++ f.line) = .error (.internal "corrupted request log") := by
  apply readLine_of_none
  cases hblank : isBlankLine tail with
  | true =>
    obtain ⟨b, rest, hskip, hb⟩ := skipBlank_of_isBlankLine hblank hforeign
    exact Json.readValue_eq_none (Json.skipBlank_append hskip f.line) hb
  | false =>
    rw [readLines_singleton hblank] at hread
    cases hvalue : readLine tail with
    | error e =>
      rw [hvalue] at hread
      cases hread
    | ok v =>
      -- The line begins with a brace, which prolongs no value.
      obtain ⟨members, hline⟩ : ∃ members, f.line = 0x7b :: members := ⟨_, rfl⟩
      refine Json.readValue_append_eq_none (readLine_eq_ok_iff.1 hvalue) ?_ ?_
      · rw [hline]
        exact Json.endsNumeral_cons members (by decide)
      · rw [hline]
        rfl

/-- What a file holds, if it is there. -/
def contentAt : FilePlace → Bytes
  | .present content => content
  | _ => []

/-- A log that can be read and recorded on has a text for its file, or none. -/
theorem contents_of_record {log log' : RequestLog} {values : List Value}
    (hread : log.readAll = .ok values) {now : Int} {kind : TableKind} {uids : UidSet}
    {found : EncryptedTable} (hrecord : log.record now kind uids found = .ok log') :
    readContent (contentAt log.file) = .ok values ∧
      (Bytes.toText? (contentAt log.file)).isSome = true ∧
      log'.file = .present (contentAt log.file ++
        ((⟨now - log.shift, kind, uids, found⟩ : RecordedFetch).line ++ [0x0a])) := by
  obtain ⟨-, happended⟩ := record_eq_ok hrecord
  rw [readAll] at hread
  -- where there is no file yet, the record is all of it; other places take no record
  cases hfile : log.file with
  | absent =>
    rw [hfile] at hread happended
    exact ⟨hread, rfl, (Except.ok.inj happended).symm⟩
  | present content =>
    rw [hfile] at hread happended
    rw [FilePlace.readText] at hread
    by_cases htext : (Bytes.toText? content).isSome = true
    · rw [if_pos htext] at hread
      exact ⟨hread, htext, (Except.ok.inj happended).symm⟩
    · rw [if_neg htext] at hread
      cases hread
  | directory =>
    rw [hfile] at happended
    cases happended
  | missingParent =>
    rw [hfile] at happended
    cases happended

section Record

variable {log log' : RequestLog} {values : List Value} (hread : log.readAll = .ok values) {now : Int}
  {kind : TableKind} {uids : UidSet} {found : EncryptedTable}
  (hrecord : log.record now kind uids found = .ok log')

include hread hrecord

/-- What a log reads as when a record joins its last line. -/
theorem readAll_joined : ∃ before last,
    readLines [unfinishedLine (contentAt log.file)] = .ok last ∧ values = before ++ last ∧
      log'.readAll = (readLine (unfinishedLine (contentAt log.file) ++
        (⟨now - log.shift, kind, uids, found⟩ : RecordedFetch).line)).map fun v => before ++ [v] := by
  obtain ⟨hcontent, htext, hfile⟩ := contents_of_record hread hrecord
  generalize hf : (⟨now - log.shift, kind, uids, found⟩ : RecordedFetch) = f at hfile ⊢
  have hbrace : 0x7b ∈ f.line := List.mem_cons_self
  obtain ⟨before, last, hlast, hvalues, hjoined⟩ :=
    readContent_append f.not_mem_line hbrace hcontent
  refine ⟨before, last, hlast, hvalues, ?_⟩
  have hascii : (f.line ++ [0x0a]).IsAscii := by
    intro x hx
    rcases List.mem_append.1 hx with hx | hx
    · exact (f.isPrintable_line x hx).2
    · rw [List.mem_singleton.1 hx]
      decide
  have hwhole : (Bytes.toText? (contentAt log.file ++ (f.line ++ [0x0a]))).isSome = true :=
    Bytes.IsText.append htext hascii.isText
  rw [readAll, hfile, FilePlace.readText, if_pos hwhole]
  exact hjoined

/-- Behind a finished line, or blanks, a record is read as the last one. -/
theorem readAll_of_finished
    (hfinished : (unfinishedLine (contentAt log.file)).all Json.isBlank = true) :
    log'.readAll = .ok (values ++ [recordJson (now - log.shift) kind uids found]) := by
  obtain ⟨before, last, hlast, hvalues, hjoined⟩ := readAll_joined hread hrecord
  rw [readLines_blank (isBlankLine_of_all hfinished)] at hlast
  have hnone : last = [] := (Except.ok.inj hlast).symm
  rw [hjoined, readLine_blanks_line hfinished (record_eq_ok hrecord).1, hvalues, hnone,
    List.append_nil]
  rfl

/-- Behind an unfinished line a record makes the log unreadable. -/
theorem readAll_of_unfinished
    (hunfinished : (unfinishedLine (contentAt log.file)).all Json.isBlank = false) :
    log'.readAll = .error (.internal "corrupted request log") := by
  obtain ⟨before, last, hlast, -, hjoined⟩ := readAll_joined hread hrecord
  rw [hjoined, readLine_foreign_line hlast hunfinished]
  rfl

/-- A record ends the last line. -/
theorem unfinishedLine_of_record : unfinishedLine (contentAt log'.file) = [] := by
  rw [(contents_of_record hread hrecord).2.2, contentAt, ← List.append_assoc]
  exact unfinishedLine_of_end _

/-- A record made on a log that can be read extends what it reads as, unless the last line of the file has
no end and holds more than blanks of JSON: then the log cannot be read any longer. In either case the
record ends the last line. -/
theorem record_extends_iff_finished :
    (log'.readAll =
      if (unfinishedLine (contentAt log.file)).all Json.isBlank then
        .ok (values ++ [recordJson (now - log.shift) kind uids found])
      else .error (.internal "corrupted request log")) ∧
    unfinishedLine (contentAt log'.file) = [] := by
  refine ⟨?_, unfinishedLine_of_record hread hrecord⟩
  split
  · rename_i hfinished
    exact readAll_of_finished hread hrecord hfinished
  · rename_i hunfinished
    exact readAll_of_unfinished hread hrecord (Bool.eq_false_iff.2 hunfinished)

end Record

/-- A fetch of no lines, recorded in the first millisecond. -/
def earlyFetch : RecordedFetch := ⟨1, .entries, ∅, ∅⟩

/-- A log whose last record was interrupted before its line end. -/
def interrupted : RequestLog := ⟨.present earlyFetch.line, 0⟩

theorem readAll_interrupted : interrupted.readAll = .ok [earlyFetch.json] := by
  have htext : (Bytes.toText? earlyFetch.line).isSome = true := by
    rw [Bytes.toText?_of_isAscii earlyFetch.isPrintable_line.isAscii]
    rfl
  rw [interrupted, readAll, FilePlace.readText, if_pos htext]
  dsimp only
  rw [readContent_eq, splitLines_of_not_mem earlyFetch.not_mem_line,
    readLines_singleton earlyFetch.isBlankLine_line, RecordedFetch.readLine_line (by decide)]
  rfl

/-- A record on a log that was interrupted does not extend it, though it succeeds. -/
theorem record_spoils_interrupted : ∃ log',
    interrupted.readAll = .ok [earlyFetch.json] ∧ interrupted.record 2 .entries ∅ ∅ = .ok log' ∧
      log'.readAll ≠ .ok ([earlyFetch.json] ++ [recordJson 2 .entries ∅ ∅]) := by
  obtain ⟨log', hrecord⟩ : ∃ log', interrupted.record 2 .entries ∅ ∅ = .ok log' := ⟨_, rfl⟩
  refine ⟨log', readAll_interrupted, hrecord, ?_⟩
  have hunfinished : (unfinishedLine (contentAt interrupted.file)).all Json.isBlank = false := by
    have hwhole : unfinishedLine earlyFetch.line = earlyFetch.line :=
      List.rtakeWhile_eq_self_iff.2 fun b hb => by
        have hne : b ≠ 0x0a := fun heq => earlyFetch.not_mem_line (heq ▸ hb)
        simpa using hne
    exact (congrArg (fun line : Bytes => line.all Json.isBlank) hwhole).trans rfl
  rw [readAll_of_unfinished readAll_interrupted hrecord hunfinished]
  intro h
  cases h

/-- The log whose last record was written to its end. -/
def finished : RequestLog := ⟨.present (contentOf [earlyFetch]), 0⟩

theorem record_extends_finished : ∃ log',
    finished.readAll = .ok [earlyFetch.json] ∧ finished.record 2 .entries ∅ ∅ = .ok log' ∧
      log'.readAll = .ok ([earlyFetch.json] ++ [recordJson 2 .entries ∅ ∅]) := by
  have hholds : finished.Holds [earlyFetch] :=
    ⟨Or.inr rfl, fun f hf => by rw [List.mem_singleton.1 hf]; decide⟩
  have hread : finished.readAll = .ok [earlyFetch.json] := hholds.readAll
  obtain ⟨log', hrecord⟩ : ∃ log', finished.record 2 .entries ∅ ∅ = .ok log' := ⟨_, rfl⟩
  refine ⟨log', hread, hrecord, ?_⟩
  have hextends := (record_extends_iff_finished hread hrecord).1
  have hline : unfinishedLine (contentAt finished.file) = [] :=
    (congrArg unfinishedLine (contentOf_append_singleton [] earlyFetch)).trans
      (unfinishedLine_of_end earlyFetch.line)
  rw [if_pos (by rw [hline]; rfl)] at hextends
  exact hextends

end RequestLog
end IndexVault
