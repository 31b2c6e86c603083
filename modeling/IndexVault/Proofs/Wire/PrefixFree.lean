import IndexVault.Proofs.Wire.FirstFault

namespace IndexVault.Wire

variable {α β : Type}

/-- An input that is a front of what the form spells, but not all of it, fails for want of bytes. -/
def Form.RunsOut (F : Form α) : Prop :=
  ∀ front back x, back ≠ [] → F.Spells (front ++ back) x →
    ∃ needed remaining left, F.Fails front (.unexpectedEnd needed remaining) left

/-- A front of two parts ends within the first part, or it holds that and a front of the second. -/
theorem front_of_append {front back first second : Bytes} (h : front ++ back = first ++ second) :
    (∃ later, later ≠ [] ∧ first = front ++ later) ∨
      ∃ front', front = first ++ front' ∧ second = front' ++ back := by
  rcases List.append_eq_append_iff.1 h with ⟨later, hfirst, hsecond⟩ | hbehind
  · cases later with
    | nil =>
      -- The cut is right between the parts.
      refine Or.inr ⟨[], ?_, hsecond.symm⟩
      rw [hfirst, List.append_nil, List.append_nil]
    | cons b later => exact Or.inl ⟨b :: later, List.cons_ne_nil _ _, hfirst⟩
  · exact Or.inr hbehind

namespace Form.RunsOut

theorem value (x : α) : (Form.value x).RunsOut := by
  rintro front back y hback ⟨hnil, -⟩
  exact absurd (List.append_eq_nil_iff.1 hnil).2 hback

/-- Forms that run out on every front do so when put one after the other. -/
theorem andThen {F : Form α} {G : α → Form β} (hF : F.RunsOut) (hG : ∀ x, (G x).RunsOut) :
    (F.andThen G).RunsOut := by
  rintro front back y hback ⟨first, second, x, happend, hfirst, hsecond⟩
  rcases front_of_append happend with ⟨later, hlater, rfl⟩ | ⟨front', rfl, rfl⟩
  · obtain ⟨needed, remaining, left, hfails⟩ := hF front later x hlater hfirst
    exact ⟨needed, remaining, left, Or.inl hfails⟩
  · obtain ⟨needed, remaining, left, hfails⟩ := hG x front' back y hback hsecond
    exact ⟨needed, remaining, left, Or.inr ⟨first, front', x, rfl, hfirst, hfails⟩⟩

end Form.RunsOut

/-- Only the last byte of a number does not go on. -/
theorem Groups.continues {front back : Bytes} {n : Nat} (h : Groups (front ++ back) n)
    (hback : back ≠ []) : ∀ y ∈ front, 128 ≤ y.toNat := by
  induction front generalizing n with
  | nil =>
    intro y hy
    cases hy
  | cons x front ih =>
    rw [List.cons_append] at h
    generalize hrest : front ++ back = rest at h ih
    cases h with
    | last hx => exact absurd (List.append_eq_nil_iff.1 hrest).2 hback
    | more hx hlater => exact List.forall_mem_cons.2 ⟨hx, ih hlater⟩

/-- Every front of a number wants a further group. -/
theorem runsOut_numberForm : numberForm.RunsOut := by
  rintro front back n hback ⟨hgroups, hlength, -⟩
  refine ⟨1, 0, [], .ends ?_ (hgroups.continues hback)⟩
  have hpos : 0 < back.length := List.length_pos_of_ne_nil hback
  rw [List.length_append] at hlength
  omega

/-- Every front of a text of known length wants further bytes. -/
theorem runsOut_rawForm (size : Nat) : (rawForm size).RunsOut := by
  rintro front back x hback ⟨-, hsize⟩
  have hpos : 0 < back.length := List.length_pos_of_ne_nil hback
  rw [List.length_append] at hsize
  exact ⟨size, front.length, front, rfl, by omega, rfl⟩

theorem runsOut_uidForm : uidForm.RunsOut := by
  intro front back u hback huid
  exact runsOut_rawForm 32 front back (front ++ back) hback
    ⟨rfl, (congrArg List.length huid).trans u.length_eq⟩

theorem runsOut_blobForm : blobForm.RunsOut := runsOut_numberForm.andThen runsOut_rawForm

theorem runsOut_uidLineForm : uidLineForm.RunsOut :=
  runsOut_uidForm.andThen fun _ => .value _

theorem runsOut_valueLineForm : valueLineForm.RunsOut :=
  runsOut_uidForm.andThen fun _ => runsOut_blobForm.andThen fun _ => .value _

theorem runsOut_upsertLineForm : upsertLineForm.RunsOut :=
  runsOut_uidForm.andThen fun _ => runsOut_blobForm.andThen fun _ =>
    runsOut_blobForm.andThen fun _ => .value _

section

variable {F : Form (Uid × β)}

theorem Form.RunsOut.lines (h : F.RunsOut) (count : Nat) : (linesForm F count).RunsOut := by
  rintro front back lines hback ⟨texts, happend, hlines, rfl⟩
  -- By induction on the lines: the cut is in the first one, or behind it.
  induction hlines generalizing front with
  | nil => exact absurd (List.append_eq_nil_iff.1 happend).2 hback
  | @cons text line texts lines hline hlines ih =>
    rw [List.flatten_cons] at happend
    rcases front_of_append happend with ⟨later, hlater, rfl⟩ | ⟨front', rfl, hrest⟩
    · obtain ⟨needed, remaining, left, hfails⟩ := h front later line hlater hline
      exact ⟨needed, remaining, left, [], [], front, rfl, .nil, Nat.succ_pos _, hfails⟩
    · obtain ⟨needed, remaining, left, texts', lines', later, rfl, hlines', hcount, hfails⟩ :=
        ih front' hrest.symm
      refine ⟨needed, remaining, left, text :: texts', line :: lines', later, ?_,
        .cons hline hlines', Nat.succ_lt_succ hcount, hfails⟩
      rw [List.flatten_cons, List.append_assoc]

/-- Every front of a payload wants more bytes. -/
theorem Form.RunsOut.payload (h : F.RunsOut) : (payloadForm F).RunsOut :=
  runsOut_numberForm.andThen h.lines

/-- A reader that takes no input for which it takes a shorter or a longer one: of what it takes a front
ends too early, and bytes behind it are counted. -/
structure PrefixFree (read : Bytes → Except PayloadError α) : Prop where
  cut_short : ∀ front back m, back ≠ [] → read (front ++ back) = .ok m →
    ∃ needed remaining, read front = .error (.unexpectedEnd needed remaining)
  run_on : ∀ input more m, more ≠ [] → read input = .ok m →
    read (input ++ more) = .error (.trailingBytes more.length)

/-- A payload that is cut anywhere is refused for want of bytes, and one with bytes behind it for just
these. -/
theorem prefixFree_readPayload {readLine : Read (Uid × β)} (hr : Follows readLine F)
    (hout : F.RunsOut) : PrefixFree (readPayload readLine) where
  cut_short := by
    intro front back m hback hread
    obtain ⟨lines, hspells, -⟩ := (readPayload_eq_ok_iff hr).1 hread
    obtain ⟨needed, remaining, left, hfails⟩ := hout.payload front back lines hback hspells
    exact ⟨needed, remaining, (readPayload_eq_error_iff hr).2 (Or.inl ⟨left, hfails⟩)⟩
  run_on := by
    intro input more m hmore hread
    obtain ⟨lines, hspells, -⟩ := (readPayload_eq_ok_iff hr).1 hread
    exact (readPayload_eq_error_iff hr).2 (Or.inr ⟨input, more, lines, rfl, hspells, hmore, rfl⟩)

end

/-- No payload of a set, a table or a batch is the beginning of another one, also where numbers are
padded or identifiers repeat: what is cut off one is missed, and what follows one is too much. -/
theorem payloads_prefix_free :
    PrefixFree readUidSet ∧ PrefixFree readTable ∧ PrefixFree readUpsertData :=
  ⟨prefixFree_readPayload follows_readUidLine runsOut_uidLineForm,
    prefixFree_readPayload follows_readValueLine runsOut_valueLineForm,
    prefixFree_readPayload follows_readUpsertLine runsOut_upsertLineForm⟩

/-- The count of two lines is padded with a group of zeros, and both lines are of one identifier. -/
example : readUidSet ([0x82, 0] ++ (Uid.repeating 7).bytes ++ (Uid.repeating 7).bytes) =
    .ok (.ofUids [.repeating 7]) := by decide +kernel

/-- The same with a table: the later value stays, whose length is padded too. -/
example : readTable ([0x82, 0] ++ (Uid.repeating 7).bytes ++ [1, 5] ++
      (Uid.repeating 7).bytes ++ [0x81, 0, 6]) =
    .ok (.ofList [(.repeating 7, [6])]) := by decide +kernel

/-- In a batch an old value of no bytes is none, however long its length is written. -/
example : readUpsertData ([0x82, 0x80, 0] ++ (Uid.repeating 7).bytes ++ [1, 5, 1, 6] ++
      (Uid.repeating 7).bytes ++ [0x80, 0, 0x81, 0, 9]) =
    .ok (.ofList [(.repeating 7, ⟨none, [9]⟩)]) := by decide +kernel

end IndexVault.Wire
