import IndexVault.Proofs.Wire.Forms

namespace IndexVault

namespace SortedMap

variable {α β : Type}

/-- A line with no later line of its key. -/
def LastLine (lines : List (α × β)) (k : α) (v : β) : Prop :=
  ∃ before after, lines = before ++ (k, v) :: after ∧ k ∉ after.map Prod.fst

theorem lastLine_cons_iff {x : α × β} {rest : List (α × β)} {k : α} {v : β} :
    LastLine (x :: rest) k v ↔ LastLine rest k v ∨ x = (k, v) ∧ k ∉ rest.map Prod.fst := by
  constructor
  · rintro ⟨before, after, hlines, hlast⟩
    cases before with
    | nil =>
      cases hlines
      exact Or.inr ⟨rfl, hlast⟩
    | cons y before =>
      cases hlines
      exact Or.inl ⟨before, after, rfl, hlast⟩
  · rintro (⟨before, after, rfl, hlast⟩ | ⟨rfl, hlast⟩)
    · exact ⟨x :: before, after, rfl, hlast⟩
    · exact ⟨[], rest, rfl, hlast⟩

theorem LastLine.mem_keys {lines : List (α × β)} {k : α} {v : β} (h : LastLine lines k v) :
    k ∈ lines.map Prod.fst := by
  obtain ⟨before, after, rfl, -⟩ := h
  simp

variable [Ord α] [Std.TransOrd α] [Std.LawfulEqOrd α]

theorem get?_insertAll_eq_some_iff {m : SortedMap α β} {lines : List (α × β)} {k : α} {v : β} :
    (m.insertAll lines).get? k = some v ↔
      LastLine lines k v ∨ k ∉ lines.map Prod.fst ∧ m.get? k = some v := by
  induction lines generalizing m with
  | nil =>
    have hnone : ¬ LastLine ([] : List (α × β)) k v := fun h => List.not_mem_nil h.mem_keys
    simp [insertAll, hnone]
  | cons x rest ih =>
    have hstep : (m.insertAll (x :: rest)).get? k = ((m.insert x.1 x.2).insertAll rest).get? k := rfl
    rw [hstep, ih, lastLine_cons_iff, List.map_cons, List.mem_cons, get?_insert]
    -- The first line counts where it has the key and no later line does.
    by_cases hk : k = x.1
    · subst hk
      rw [if_pos (compare_eq_iff.2 rfl)]
      obtain ⟨k, v'⟩ := x
      simp only [Option.some.injEq, Prod.mk.injEq, true_and, true_or, not_true_eq_false, false_and,
        or_false]
      exact or_congr_right and_comm
    · have hx : x ≠ (k, v) := fun h => hk (congrArg Prod.fst h).symm
      rw [if_neg fun h => hk (compare_eq_iff.1 h)]
      simp only [hk, hx, false_and, or_false, false_or]

/-- Of several lines with one identifier, the last one counts. -/
theorem get?_ofList_eq_some_iff {lines : List (α × β)} {k : α} {v : β} :
    (ofList lines).get? k = some v ↔ LastLine lines k v := by
  rw [ofList, get?_insertAll_eq_some_iff, get?_empty]
  simp

end SortedMap

namespace Wire

variable {α β : Type}

/-- A fault of the form leaves an end of the input. It is an overflow, or it tells how many bytes were
needed and how many are left, which are fewer. -/
def Form.TellsLeft (F : Form α) : Prop :=
  ∀ input e left, F.Fails input e left →
    (∃ taken, input = taken ++ left) ∧
      (e = .integerOverflow ∨
        ∃ needed, left.length < needed ∧ e = .unexpectedEnd needed left.length)

theorem tellsLeft_value (x : α) : (Form.value x).TellsLeft := fun _ _ _ h => h.elim

/-- Parts whose faults tell what is left do so when put one after the other. -/
theorem Form.TellsLeft.andThen {F : Form α} {G : α → Form β} (hF : F.TellsLeft)
    (hG : ∀ x, (G x).TellsLeft) : (F.andThen G).TellsLeft := by
  rintro input e left (h | ⟨b, rest, x, rfl, -, h⟩)
  · exact hF input e left h
  · obtain ⟨⟨taken, rfl⟩, hkind⟩ := hG x rest e left h
    exact ⟨⟨b ++ taken, (List.append_assoc b taken left).symm⟩, hkind⟩

/-- A number overflows, or is short of one byte with none left. -/
theorem tellsLeft_numberForm : numberForm.TellsLeft := by
  intro input e left h
  cases h with
  | @overflow front left x hlength hfront hx =>
    exact ⟨⟨front ++ [x], by simp⟩, Or.inl rfl⟩
  | ends hlength hinput =>
    exact ⟨⟨input, (List.append_nil input).symm⟩, Or.inr ⟨1, Nat.one_pos, rfl⟩⟩

theorem tellsLeft_rawForm (size : Nat) : (rawForm size).TellsLeft := by
  rintro input e left ⟨rfl, hshort, rfl⟩
  exact ⟨⟨[], rfl⟩, Or.inr ⟨size, hshort, rfl⟩⟩

theorem tellsLeft_uidForm : uidForm.TellsLeft := tellsLeft_rawForm 32

theorem tellsLeft_blobForm : blobForm.TellsLeft := tellsLeft_numberForm.andThen tellsLeft_rawForm

theorem tellsLeft_uidLineForm : uidLineForm.TellsLeft :=
  tellsLeft_uidForm.andThen fun _ => tellsLeft_value _

theorem tellsLeft_valueLineForm : valueLineForm.TellsLeft :=
  tellsLeft_uidForm.andThen fun _ => tellsLeft_blobForm.andThen fun _ => tellsLeft_value _

theorem tellsLeft_upsertLineForm : upsertLineForm.TellsLeft :=
  tellsLeft_uidForm.andThen fun _ => tellsLeft_blobForm.andThen fun _ =>
    tellsLeft_blobForm.andThen fun _ => tellsLeft_value _

/-- Whatever the form spells takes at least some number of bytes. -/
def Form.AtLeast (F : Form α) (least : Nat) : Prop := ∀ b x, F.Spells b x → least ≤ b.length

/-- The least lengths of parts add up. -/
theorem Form.AtLeast.andThen {F : Form α} {G : α → Form β} {m n : Nat} (hF : F.AtLeast m)
    (hG : ∀ x, (G x).AtLeast n) : (F.andThen G).AtLeast (m + n) := by
  rintro b y ⟨b₁, b₂, x, rfl, hb₁, hb₂⟩
  rw [List.length_append]
  exact Nat.add_le_add (hF b₁ x hb₁) (hG x b₂ y hb₂)

theorem atLeast_zero (F : Form α) : F.AtLeast 0 := fun _ _ _ => Nat.zero_le _

theorem atLeast_uidForm : uidForm.AtLeast 32 := by
  rintro b u rfl
  exact Nat.le_of_eq u.length_eq.symm

theorem atLeast_numberForm : numberForm.AtLeast 1 := fun _ _ h => h.1.length_pos

theorem atLeast_blobForm : blobForm.AtLeast 1 :=
  atLeast_numberForm.andThen fun _ => atLeast_zero _

theorem atLeast_uidLineForm : uidLineForm.AtLeast 32 :=
  atLeast_uidForm.andThen fun _ => atLeast_zero _

theorem atLeast_valueLineForm : valueLineForm.AtLeast 33 :=
  atLeast_uidForm.andThen fun _ => atLeast_blobForm.andThen fun _ => atLeast_zero _

theorem atLeast_upsertLineForm : upsertLineForm.AtLeast 34 :=
  atLeast_uidForm.andThen fun _ => atLeast_blobForm.andThen fun _ =>
    atLeast_blobForm.andThen fun _ => atLeast_zero _

/-- Some number of lines. The first line that is not there fails. -/
def linesForm (F : Form (Uid × β)) (count : Nat) : Form (List (Uid × β)) where
  Spells b lines := ∃ texts, b = texts.flatten ∧ List.Forall₂ F.Spells texts lines ∧
    lines.length = count
  Fails input e left := ∃ texts lines later, input = texts.flatten ++ later ∧
    List.Forall₂ F.Spells texts lines ∧ lines.length < count ∧ F.Fails later e left

/-- A count and as many lines. -/
def payloadForm (F : Form (Uid × β)) : Form (List (Uid × β)) := numberForm.andThen (linesForm F)

section

variable {F : Form (Uid × β)} {readLine : Read (Uid × β)}

/-- Lines are read one after the other, as their form says. -/
theorem follows_readLines (h : Follows readLine F) (count : Nat) :
    Follows (readLines readLine count) (linesForm F count) := by
  induction count with
  | zero =>
    constructor
    · intro input lines rest
      rw [readLines, Attempt.run_pure]
      constructor
      · intro hread
        cases hread
        exact ⟨[], rfl, [], rfl, .nil, rfl⟩
      · rintro ⟨b, rfl, texts, rfl, hlines, hcount⟩
        cases List.length_eq_zero_iff.1 hcount
        cases hlines
        rfl
    · intro input e left
      rw [readLines, Attempt.run_pure]
      refine iff_of_false (by rintro ⟨⟩) ?_
      rintro ⟨texts, lines, later, -, -, hcount, -⟩
      exact Nat.not_lt_zero _ hcount
  | succ count ih =>
    -- One more line in front: what the form says of all lines is what it says of the first and the rest.
    have hnext := h.bind fun line => ih.bind fun lines => Follows.pure (line :: lines)
    constructor
    · intro input lines rest
      rw [readLines, hnext.ok_iff]
      constructor
      · rintro ⟨_, rfl, b, _, line, rfl, hb, _, _, later, rfl, ⟨texts, rfl, hlines, rfl⟩, rfl, rfl⟩
        exact ⟨_, rfl, b :: texts, by simp, .cons hb hlines, rfl⟩
      · rintro ⟨_, rfl, texts, rfl, hlines, hcount⟩
        cases hlines with
        | nil => cases hcount
        | @cons b line texts later hb hlater =>
          refine ⟨_, rfl, b, texts.flatten, line, rfl, hb, texts.flatten, [], later, by simp, ?_,
            rfl, rfl⟩
          exact ⟨texts, rfl, hlater, Nat.succ.inj hcount⟩
    · intro input e left
      rw [readLines, hnext.error_iff]
      constructor
      · rintro (hfirst | ⟨b, _, line, rfl, hb, ⟨texts, lines, later, rfl, hlines, hcount, hfails⟩ |
          ⟨_, _, _, _, _, hnever⟩⟩)
        · exact ⟨[], [], input, rfl, .nil, Nat.succ_pos count, hfirst⟩
        · exact ⟨b :: texts, line :: lines, later, by simp, .cons hb hlines,
            Nat.succ_lt_succ hcount, hfails⟩
        · exact hnever.elim
      · rintro ⟨texts, lines, later, rfl, hlines, hcount, hfails⟩
        cases hlines with
        | nil => exact Or.inl hfails
        | @cons b line texts lines hb hlines =>
          refine Or.inr ⟨b, texts.flatten ++ later, line, by simp, hb, Or.inl ?_⟩
          exact ⟨texts, lines, later, rfl, hlines, Nat.lt_of_succ_lt_succ hcount, hfails⟩

theorem tellsLeft_payloadForm (h : F.TellsLeft) : (payloadForm F).TellsLeft := by
  apply tellsLeft_numberForm.andThen
  rintro count input e left ⟨texts, lines, later, rfl, -, -, hfails⟩
  obtain ⟨⟨taken, rfl⟩, hkind⟩ := h later e left hfails
  exact ⟨⟨texts.flatten ++ taken, (List.append_assoc _ _ _).symm⟩, hkind⟩

/-- Lines of a least length are no more than there are bytes for. -/
theorem mul_length_le_of_spells {least : Nat} (h : F.AtLeast least) {texts : List Bytes}
    {lines : List (Uid × β)} (hlines : List.Forall₂ F.Spells texts lines) :
    lines.length * least ≤ texts.flatten.length := by
  induction hlines with
  | nil => simp
  | @cons b line texts lines hb _ ih =>
    have hline := h b line hb
    rw [List.length_cons, List.flatten_cons, List.length_append, Nat.succ_mul]
    omega

/-- Lines are accepted if nothing is left behind them. -/
theorem readPayloadLines_eq_ok_iff {input : Bytes} {lines : List (Uid × β)} :
    readPayloadLines readLine input = .ok lines ↔
      (readNumber >>= readLines readLine).run input = (.ok lines, []) := by
  rw [readPayloadLines]
  rcases (readNumber >>= readLines readLine).run input with ⟨e | lines', _ | ⟨b, rest⟩⟩ <;>
    simp [finish, Except.map]

/-- Lines are refused at their first fault, or for what is left behind them. -/
theorem readPayloadLines_eq_error_iff {input : Bytes} {e : PayloadError} :
    readPayloadLines readLine input = .error e ↔
      (∃ left, (readNumber >>= readLines readLine).run input = (.error e, left)) ∨
        ∃ lines left, (readNumber >>= readLines readLine).run input = (.ok lines, left) ∧
          left ≠ [] ∧ e = .trailingBytes left.length := by
  rw [readPayloadLines]
  rcases (readNumber >>= readLines readLine).run input with ⟨e' | lines', _ | ⟨b, rest⟩⟩ <;>
    simp [finish, Except.map, eq_comm]

theorem follows_readPayload (hr : Follows readLine F) :
    Follows (readNumber >>= readLines readLine) (payloadForm F) :=
  follows_readNumber.bind (follows_readLines hr)

/-- A payload is accepted where its form spells it, and gives the map of its lines. -/
theorem readPayload_eq_ok_iff (hr : Follows readLine F) {input : Bytes} {m : SortedMap Uid β} :
    readPayload readLine input = .ok m ↔
      ∃ lines, (payloadForm F).Spells input lines ∧ SortedMap.ofList lines = m := by
  have hlines : ∀ lines, readPayloadLines readLine input = .ok lines ↔
      (payloadForm F).Spells input lines := by
    intro lines
    rw [readPayloadLines_eq_ok_iff, (follows_readPayload hr).ok_iff]
    simp
  rw [readPayload]
  cases hread : readPayloadLines readLine input with
  | error e =>
    refine iff_of_false (by rintro ⟨⟩) ?_
    rintro ⟨lines, hspells, -⟩
    cases hread.symm.trans ((hlines lines).2 hspells)
  | ok lines =>
    constructor
    · intro h
      cases h
      exact ⟨lines, (hlines lines).1 hread, rfl⟩
    · rintro ⟨lines', hspells, rfl⟩
      cases hread.symm.trans ((hlines lines').2 hspells)
      rfl

/-- A payload is refused where its form fails, with that failure, or where bytes run on behind it. -/
theorem readPayload_eq_error_iff (hr : Follows readLine F) {input : Bytes} {e : PayloadError} :
    readPayload readLine input = .error e ↔
      (∃ left, (payloadForm F).Fails input e left) ∨
        ∃ text left lines, input = text ++ left ∧ (payloadForm F).Spells text lines ∧ left ≠ [] ∧
          e = .trailingBytes left.length := by
  have hsame : readPayload readLine input = .error e ↔
      readPayloadLines readLine input = .error e := by
    rw [readPayload]
    cases readPayloadLines readLine input <;> simp [Except.map]
  rw [hsame, readPayloadLines_eq_error_iff]
  apply or_congr
  · exact exists_congr fun left => (follows_readPayload hr).error_iff
  · constructor
    · rintro ⟨lines, left, hrun, hleft, rfl⟩
      obtain ⟨text, rfl, hspells⟩ := (follows_readPayload hr).ok_iff.1 hrun
      exact ⟨text, left, lines, rfl, hspells, hleft, rfl⟩
    · rintro ⟨text, left, lines, rfl, hspells, hleft, rfl⟩
      exact ⟨lines, left, (follows_readPayload hr).ok_iff.2 ⟨text, rfl, hspells⟩, hleft, rfl⟩

/-- The count that stands in front is the only one that an input can be read with. -/
theorem linesForm_spells_of_payloadForm {number rest : Bytes} {count : Nat} {lines : List (Uid × β)}
    (hnumber : numberForm.Spells number count)
    (h : (payloadForm F).Spells (number ++ rest) lines) : (linesForm F count).Spells rest lines := by
  obtain ⟨number', rest', count', happend, hnumber', hlines⟩ := h
  have hfirst : readNumber.run (number ++ rest) = (.ok count, rest) :=
    follows_readNumber.ok_iff.2 ⟨number, rfl, hnumber⟩
  have hsecond : readNumber.run (number ++ rest) = (.ok count', rest') :=
    follows_readNumber.ok_iff.2 ⟨number', happend, hnumber'⟩
  cases hfirst.symm.trans hsecond
  exact hlines

end

/-- A reader of payloads for lines of a form, of which each takes at least some number of bytes. -/
structure ReadsExactly (read : Bytes → Except PayloadError (SortedMap Uid β)) (F : Form (Uid × β))
    (least : Nat) : Prop where
  /-- It reads a count with as many lines and nothing more, and the last line of an identifier counts. -/
  accepts : ∀ input m, read input = .ok m ↔ ∃ lines, (payloadForm F).Spells input lines ∧
    ∀ uid value, m.get? uid = some value ↔ SortedMap.LastLine lines uid value
  /-- It refuses anything else for the first part that is not there, or for what follows the lines. -/
  refuses : ∀ input e, read input = .error e ↔
    (∃ left, (payloadForm F).Fails input e left) ∨
      ∃ text left lines, input = text ++ left ∧ (payloadForm F).Spells text lines ∧ left ≠ [] ∧
        e = .trailingBytes left.length
  /-- No other errors occur, and they tell what is left. -/
  errors : ∀ input e, read input = .error e → ∃ taken left, input = taken ++ left ∧
    (e = .integerOverflow ∨
      (∃ needed, left.length < needed ∧ e = .unexpectedEnd needed left.length) ∨
      1 ≤ left.length ∧ e = .trailingBytes left.length)
  /-- A count of more lines than fit into what follows it is refused. -/
  counts : ∀ number count rest, numberForm.Spells number count → rest.length / least < count →
    ∃ e, read (number ++ rest) = .error e

/-- A reader of payloads whose lines have a form and a least length accepts and refuses just as the form
does. -/
theorem readsExactly_readPayload {F : Form (Uid × β)} {readLine : Read (Uid × β)} {least : Nat}
    (hr : Follows readLine F) (htells : F.TellsLeft) (hleast : F.AtLeast least) (hpos : 0 < least) :
    ReadsExactly (readPayload readLine) F least := by
  refine ⟨?accepts, fun _ _ => readPayload_eq_error_iff hr, ?errors, ?counts⟩
  case accepts =>
    intro input m
    rw [readPayload_eq_ok_iff hr]
    apply exists_congr
    intro lines
    apply and_congr_right
    intro _
    constructor
    · rintro rfl uid value
      exact SortedMap.get?_ofList_eq_some_iff
    · intro h
      apply SortedMap.ext_get?
      intro uid
      apply Option.ext
      intro value
      rw [SortedMap.get?_ofList_eq_some_iff, h]
  case errors =>
    intro input e h
    rcases (readPayload_eq_error_iff hr).1 h with
      ⟨left, hfails⟩ | ⟨text, left, lines, rfl, -, hleft, rfl⟩
    · obtain ⟨⟨taken, htaken⟩, hkind⟩ := tellsLeft_payloadForm htells input e left hfails
      exact ⟨taken, left, htaken, hkind.imp_right Or.inl⟩
    · exact ⟨text, left, rfl, Or.inr (Or.inr ⟨List.length_pos_of_ne_nil hleft, rfl⟩)⟩
  case counts =>
    intro number count rest hnumber hmany
    cases hread : readPayload readLine (number ++ rest) with
    | error e => exact ⟨e, rfl⟩
    | ok m =>
      -- Lines that were read would take more bytes than there are.
      obtain ⟨lines, hspells, -⟩ := (readPayload_eq_ok_iff hr).1 hread
      obtain ⟨texts, rfl, htexts, rfl⟩ := linesForm_spells_of_payloadForm hnumber hspells
      have hfit := mul_length_le_of_spells hleast htexts
      rw [Nat.div_lt_iff_lt_mul hpos] at hmany
      omega

/-- Sets, tables and batches are read from exactly their payloads: a count of 64 bits and that many
lines, in each of which lengths of 64 bits stand before byte strings. Any other input is refused for
what is first found wrong from the left, and a count that the input cannot hold is refused. -/
theorem payload_readers_exact :
    ReadsExactly readUidSet uidLineForm 32 ∧ ReadsExactly readTable valueLineForm 33 ∧
      ReadsExactly readUpsertData upsertLineForm 34 :=
  ⟨readsExactly_readPayload follows_readUidLine tellsLeft_uidLineForm atLeast_uidLineForm
      (Nat.succ_pos _),
    readsExactly_readPayload follows_readValueLine tellsLeft_valueLineForm atLeast_valueLineForm
      (Nat.succ_pos _),
    readsExactly_readPayload follows_readUpsertLine tellsLeft_upsertLineForm atLeast_upsertLineForm
      (Nat.succ_pos _)⟩

end Wire
end IndexVault
