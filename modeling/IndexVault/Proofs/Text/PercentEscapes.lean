import IndexVault.Text.Percent

namespace IndexVault.Text

/-- Somewhere a percent sign has two hexadecimal digits behind it. -/
def HasEscape (b : Bytes) : Prop :=
  ∃ front high low rest, b = front ++ 0x25 :: high :: low :: rest ∧
    (hexValue? high).isSome = true ∧ (hexValue? low).isSome = true

theorem HasEscape.cons {b : Bytes} (h : HasEscape b) (x : UInt8) : HasEscape (x :: b) := by
  obtain ⟨front, high, low, rest, rfl, hdigits⟩ := h
  exact ⟨x :: front, high, low, rest, rfl, hdigits⟩

theorem HasEscape.mem {b : Bytes} (h : HasEscape b) : 0x25 ∈ b := by
  obtain ⟨front, high, low, rest, rfl, -⟩ := h
  exact List.mem_append_right front List.mem_cons_self

/-- An escape starts at the first byte or lies behind it. -/
theorem hasEscape_cons_iff {x : UInt8} {b : Bytes} : HasEscape (x :: b) ↔
    (∃ high low rest, x = 0x25 ∧ b = high :: low :: rest ∧ (hexValue? high).isSome = true ∧
      (hexValue? low).isSome = true) ∨ HasEscape b := by
  constructor
  · rintro ⟨front, high, low, rest, heq, hdigits⟩
    cases front with
    | nil =>
      cases heq
      exact Or.inl ⟨high, low, rest, rfl, rfl, hdigits⟩
    | cons y front =>
      cases heq
      exact Or.inr ⟨front, high, low, rest, rfl, hdigits⟩
  · rintro (⟨high, low, rest, rfl, rfl, hdigits⟩ | h)
    · exact ⟨[], high, low, rest, rfl, hdigits⟩
    · exact h.cons x

/-- Decoding never makes bytes longer. -/
theorem length_percentDecode_le (b : Bytes) : (percentDecode b).length ≤ b.length := by
  fun_induction percentDecode b with
  | case1 a b rest high low hlow hhigh ih =>
    simp only [List.length_cons]
    omega
  | case2 a b rest hdigits ih => exact Nat.succ_le_succ ih
  | case3 b rest hb ih => exact Nat.succ_le_succ ih
  | case4 => exact Nat.le_refl 0

/-- Bytes without an escape decode to themselves. -/
theorem percentDecode_of_not_hasEscape {b : Bytes} (h : ¬HasEscape b) : percentDecode b = b := by
  fun_induction percentDecode b with
  | case1 a b rest high low hlow hhigh ih =>
    exact absurd ⟨[], a, b, rest, rfl, Option.isSome_of_eq_some hhigh, Option.isSome_of_eq_some hlow⟩ h
  | case2 a b rest hdigits ih => rw [ih fun htail => h (htail.cons _)]
  | case3 b rest hb ih => rw [ih fun htail => h (htail.cons _)]
  | case4 => rfl

/-- Each escape makes the bytes shorter, so bytes with one do not decode to themselves. -/
theorem length_percentDecode_lt {b : Bytes} (h : HasEscape b) :
    (percentDecode b).length < b.length := by
  fun_induction percentDecode b with
  | case1 a b rest high low hlow hhigh ih =>
    have hrest := length_percentDecode_le rest
    simp only [List.length_cons]
    omega
  | case2 a b rest hdigits ih =>
    -- The first percent sign stands for itself, so the escape comes later.
    rcases hasEscape_cons_iff.1 h with ⟨high, low, rest', -, heq, hhigh, hlow⟩ | htail
    · cases heq
      obtain ⟨m, hm⟩ := Option.isSome_iff_exists.1 hhigh
      obtain ⟨n, hn⟩ := Option.isSome_iff_exists.1 hlow
      exact absurd hn (hdigits m n hm)
    · exact Nat.succ_lt_succ (ih htail)
  | case3 b rest hb ih =>
    rcases hasEscape_cons_iff.1 h with ⟨high, low, rest', hx, heq, -⟩ | htail
    · exact absurd heq (hb high low rest' hx)
    · exact Nat.succ_lt_succ (ih htail)
  | case4 =>
    obtain ⟨front, high, low, rest, heq, -⟩ := h
    cases front <;> cases heq

end IndexVault.Text
