import IndexVault.Json.Numeral

namespace IndexVault.Json

/-- What may follow a numeral without being taken for a part of it. -/
def EndsNumeral (rest : Bytes) : Prop :=
  ∀ b ∈ rest.head?, Text.isDigit b = false ∧ b ≠ 0x2e ∧ b ≠ 0x65 ∧ b ≠ 0x45

theorem endsNumeral_nil : EndsNumeral [] := by
  intro b hb
  cases hb

theorem endsNumeral_cons {b : UInt8} (rest : Bytes)
    (h : Text.isDigit b = false ∧ b ≠ 0x2e ∧ b ≠ 0x65 ∧ b ≠ 0x45) : EndsNumeral (b :: rest) := by
  intro b' hb'
  cases hb'
  exact h

/-- Digits are cut off where something else follows them. -/
theorem spanDigits_digits {found rest : Bytes} (hfound : found.all Text.isDigit = true)
    (hrest : ∀ b ∈ rest.head?, Text.isDigit b = false) : spanDigits (found ++ rest) = (found, rest) := by
  have hdigits : ∀ b ∈ found, Text.isDigit b = true := List.all_eq_true.1 hfound
  have hstop : rest.takeWhile Text.isDigit = [] ∧ rest.dropWhile Text.isDigit = rest := by
    cases rest with
    | nil => exact ⟨rfl, rfl⟩
    | cons b rest =>
      have hb := hrest b rfl
      exact ⟨List.takeWhile_cons_of_neg (by simp [hb]), List.dropWhile_cons_of_neg (by simp [hb])⟩
  rw [spanDigits, List.takeWhile_append_of_pos hdigits, List.dropWhile_append_of_pos hdigits,
    hstop.1, hstop.2, List.append_nil]

/-- Digits are cut off where something else follows. -/
theorem spanDigits_append {found rest : Bytes} (hfound : found.all Text.isDigit = true)
    (hrest : EndsNumeral rest) : spanDigits (found ++ rest) = (found, rest) :=
  spanDigits_digits hfound fun b hb => (hrest b hb).1

/-- Where a numeral ends there is no fraction. -/
theorem readFraction_of_ends {rest : Bytes} (h : EndsNumeral rest) :
    readFraction rest = some ([], rest) := by
  unfold readFraction
  split
  · exact absurd rfl (h 0x2e rfl).2.1
  · rfl

/-- Where a numeral ends there is no exponent. -/
theorem readExponent_of_ends {rest : Bytes} (h : EndsNumeral rest) :
    readExponent rest = some (none, rest) := by
  cases rest with
  | nil => rfl
  | cons b rest =>
    obtain ⟨-, -, hlower, hupper⟩ := h b rfl
    have hmark : (b == 0x65 || b == 0x45) = false := by simp [hlower, hupper]
    simp only [readExponent, hmark, Bool.false_eq_true, if_false]

/-- A number with further digits appended. -/
def appendDigits (n : Nat) (found : Bytes) : Nat :=
  found.foldl (fun n x => n * 10 + (x.toNat - 0x30)) n

theorem le_appendDigits (n : Nat) (found : Bytes) : n ≤ appendDigits n found := by
  induction found generalizing n with
  | nil => exact Nat.le_refl n
  | cons d rest ih =>
    calc n ≤ n * 10 + (d.toNat - 0x30) := by omega
      _ ≤ appendDigits n (d :: rest) := ih _

/-- Digits that spell a number of 64 bits are all kept. -/
theorem extendSignificand_eq {n : Nat} {found : Bytes} (h : appendDigits n found < UInt64.size) :
    extendSignificand n found = (appendDigits n found, 0) := by
  -- Every beginning of the digits spells at most the whole number, so none of them is dropped.
  induction found generalizing n with
  | nil => rfl
  | cons d rest ih =>
    have hrest : appendDigits (n * 10 + (d.toNat - 0x30)) rest < UInt64.size := h
    have hnext : n * 10 + (d.toNat - 0x30) < UInt64.size :=
      Nat.lt_of_le_of_lt (le_appendDigits _ rest) hrest
    rw [extendSignificand, if_pos hnext, ih hrest]
    rfl

/-- All digits of a number of 64 bits are kept. -/
theorem extendSignificand_digits {n : Nat} (h : n < UInt64.size) :
    extendSignificand 0 (Text.digits n) = (n, 0) := by
  have hread : appendDigits 0 (Text.digits n) = n := Text.readNat_digits n
  rw [← hread] at h
  rw [extendSignificand_eq h, hread]

/-- A number is written without leading zeros. -/
theorem head?_digits {n : Nat} (h : (Text.digits n).head? = some 0x30) : n = 0 := by
  induction n using Nat.strongRecOn with
  | ind n ih =>
    rw [Text.digits] at h
    split at h
    · have hdigit : Text.decimalDigit n = 0x30 := Option.some.inj h
      have hvalue := Text.toNat_decimalDigit n
      rw [hdigit] at hvalue
      have hzero : (0x30 : UInt8).toNat = 48 := rfl
      omega
    · -- The first digit is that of the tenth part, which is zero for a single digit only.
      have hfront : (Text.digits (n / 10)).head? = some 0x30 := by
        rw [← h]
        cases hdigits : Text.digits (n / 10) with
        | nil => exact absurd hdigits (Text.digits_ne_nil _)
        | cons d rest => rfl
      have hzero := ih (n / 10) (by omega) hfront
      omega

theorem digits_zero : Text.digits 0 = [0x30] := by
  rw [Text.digits]
  rfl

/-- The numeral as which a whole number is written. -/
def numeralOf (n : Int) : Numeral := ⟨decide (n < 0), n.natAbs, 0, true⟩

/-- A written number is one that the grammar of numerals allows. -/
theorem allows_digits (n : Nat) :
    ((Text.digits n).isEmpty ||
      ((Text.digits n).head? == some 0x30 && (Text.digits n).length != 1)) = false := by
  have hempty : (Text.digits n).isEmpty = false := by
    rw [List.isEmpty_eq_false_iff]
    exact Text.digits_ne_nil n
  rw [hempty, Bool.false_or]
  by_cases hhead : (Text.digits n).head? = some 0x30
  -- Zero alone begins with the digit zero, and it has no other.
  · rw [head?_digits hhead, digits_zero]
    rfl
  · simp [hhead]

theorem exists_digits_cons (n : Nat) :
    ∃ d rest, Text.digits n = d :: rest ∧ Text.isDigit d = true := by
  have hall := Text.all_isDigit_digits n
  cases hdigits : Text.digits n with
  | nil => exact absurd hdigits (Text.digits_ne_nil n)
  | cons d rest =>
    rw [hdigits, List.all_cons, Bool.and_eq_true] at hall
    exact ⟨d, rest, rfl, hall.1⟩

/-- A numeral that was written for a whole number has no fraction and no exponent, so it is read up to its
last digit. -/
theorem readNumeral_signedDigits {n : Int} (hn : n.natAbs < UInt64.size) {rest : Bytes}
    (hrest : EndsNumeral rest) :
    readNumeral (Text.signedDigits n ++ rest) = some (numeralOf n, rest) := by
  have hspan := spanDigits_append (Text.all_isDigit_digits n.natAbs) hrest
  have hallowed := allows_digits n.natAbs
  have hkept := extendSignificand_digits hn
  -- Behind the sign both cases read the same digits.
  cases n with
  | ofNat n =>
    have hunsigned (r : Bytes) : Text.digits n ++ rest ≠ 0x2d :: r := by
      obtain ⟨d, ds, hdigits, hd⟩ := exists_digits_cons n
      rw [hdigits]
      intro heq
      rw [(List.cons.inj heq).1] at hd
      cases hd
    change spanDigits (Text.digits n ++ rest) = (Text.digits n, rest) at hspan
    change ((Text.digits n).isEmpty ||
      ((Text.digits n).head? == some 0x30 && (Text.digits n).length != 1)) = false at hallowed
    change extendSignificand 0 (Text.digits n) = (n, 0) at hkept
    rw [Text.signedDigits, readNumeral]
    · simp only [hspan, hallowed, Bool.false_eq_true, if_false, readFraction_of_ends hrest,
        readExponent_of_ends hrest, hkept, extendSignificand]
      simp [numeralOf]
    · exact hunsigned
  | negSucc n =>
    simp only [Int.natAbs_negSucc] at hspan hallowed hkept
    simp only [readNumeral, Text.signedDigits, List.cons_append, hspan, hallowed, Bool.false_eq_true,
      if_false, readFraction_of_ends hrest, readExponent_of_ends hrest, hkept, extendSignificand]
    simp [numeralOf]

/-- A whole number of 64 bits is what its numeral stands for. -/
theorem number?_numeralOf {n : Int} (hn : Int64.minValue.toInt ≤ n) :
    (numeralOf n).number? = some (.whole n) := by
  -- sign and magnitude put together again
  have hvalue : (if (numeralOf n).negative then -((numeralOf n).significand : Int)
      else (numeralOf n).significand) = n := by
    change (if decide (n < 0) = true then -(n.natAbs : Int) else n.natAbs) = n
    split
    · rename_i hnegative
      have hlt : n < 0 := of_decide_eq_true hnegative
      omega
    · rename_i hnegative
      have hge : ¬n < 0 := fun h => hnegative (decide_eq_true h)
      omega
  -- zero has no sign, so it is not taken for the negative zero, which is a float
  have hzero : ((numeralOf n).negative && (numeralOf n).significand == 0) = false := by
    change (decide (n < 0) && n.natAbs == 0) = false
    rw [Bool.and_eq_false_imp, decide_eq_true_eq, beq_eq_false_iff_ne]
    omega
  have hwhole : ((numeralOf n).isWhole && (numeralOf n).exponent == 0 &&
      !((numeralOf n).negative && (numeralOf n).significand == 0) &&
      decide (Int64.minValue.toInt ≤ n)) = true := by
    rw [hzero, decide_eq_true hn]
    rfl
  rw [Numeral.number?]
  simp only [hvalue]
  rw [if_pos hwhole]

end IndexVault.Json
