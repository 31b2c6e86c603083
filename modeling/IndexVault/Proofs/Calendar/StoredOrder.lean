import Mathlib.Algebra.Group.Nat.Defs
import IndexVault.Calendar.Moment

namespace IndexVault

namespace Bytes

/-- Texts whose first parts are of one length compare by these parts, and then by what follows. -/
theorem compare_append {a b : Bytes} (h : a.length = b.length) (x y : Bytes) :
    compare (a ++ x) (b ++ y) = (compare a b).then (compare x y) := by
  induction a generalizing b with
  | nil =>
    cases List.length_eq_zero_iff.1 h.symm
    rfl
  | cons c a ih =>
    obtain ⟨d, b, rfl⟩ := List.exists_cons_of_length_eq_add_one h.symm
    rw [List.cons_append, List.cons_append, List.compare_cons_cons, List.compare_cons_cons,
      ih (Nat.succ.inj h), Ordering.then_assoc]

/-- Behind an equal first byte the rest decides. -/
theorem compare_cons_self (c : UInt8) (a b : Bytes) : compare (c :: a) (c :: b) = compare a b := by
  have hself : compare c c = .eq := Std.ReflCmp.compare_self
  rw [List.compare_cons_cons, hself, Ordering.eq_then]

/-- No text of digits comes before as many zeros. -/
theorem compare_zeros_ne_lt {a : Bytes} {zero : UInt8} (h : ∀ c ∈ a, zero ≤ c) :
    compare a (List.replicate a.length zero) ≠ .lt := by
  induction a with
  | nil =>
    intro hlt
    cases hlt
  | cons c a ih =>
    obtain ⟨hc, ha⟩ := List.forall_mem_cons.1 h
    rw [List.length_cons, List.replicate_succ, List.compare_cons_cons, ne_eq, Ordering.then_eq_lt,
      Std.compare_eq_lt, not_or]
    exact ⟨UInt8.not_lt.2 hc, fun hrest => ih ha hrest.2⟩

/-- If a text of bytes from `zero` on stands before one with zeros at its end, all its fronts stand before
that one without them. -/
theorem compare_front_eq_lt {a b x : Bytes} {zero : UInt8} {count : Nat}
    (hlength : (a ++ x).length = (b ++ List.replicate count zero).length)
    (hzero : ∀ c ∈ a ++ x, zero ≤ c) (h : compare (a ++ x) (b ++ List.replicate count zero) = .lt) :
    compare a b = .lt := by
  -- By induction on the front: where it ends, what follows it has no byte below the zeros.
  induction a generalizing b with
  | nil =>
    cases b with
    | nil =>
      rw [List.nil_append, List.nil_append, List.length_replicate] at hlength
      rw [List.nil_append, List.nil_append, ← hlength] at h
      exact absurd h (compare_zeros_ne_lt hzero)
    | cons d b => rfl
  | cons c a ih =>
    cases b with
    | nil =>
      rw [List.nil_append, List.length_replicate] at hlength
      rw [List.nil_append, ← hlength] at h
      exact absurd h (compare_zeros_ne_lt hzero)
    | cons d b =>
      rw [List.cons_append, List.cons_append, List.compare_cons_cons, Ordering.then_eq_lt] at h
      rw [List.compare_cons_cons, Ordering.then_eq_lt]
      refine h.imp_right fun hrest => ⟨hrest.1, ih (Nat.succ.inj hlength) ?_ hrest.2⟩
      exact fun e he => hzero e (List.mem_cons_of_mem c he)

end Bytes

namespace Text

/-- Digits compare as the numbers below ten that they stand for. -/
theorem compare_decimalDigit (n m : Nat) :
    compare (decimalDigit n) (decimalDigit m) = compare (n % 10) (m % 10) := by
  rcases h : compare (n % 10) (m % 10) with _ | _ | _
  · rw [Nat.compare_eq_lt] at h
    rw [Std.compare_eq_lt, UInt8.lt_iff_toNat_lt, toNat_decimalDigit, toNat_decimalDigit]
    exact Nat.add_lt_add_left h _
  · rw [Nat.compare_eq_eq] at h
    rw [decimalDigit, decimalDigit, h]
    exact Std.ReflCmp.compare_self
  · rw [Nat.compare_eq_gt] at h
    rw [Std.compare_eq_gt, UInt8.lt_iff_toNat_lt, toNat_decimalDigit, toNat_decimalDigit]
    exact Nat.add_lt_add_left h _

/-- Numbers compare by all their digits but the last, and then by that. -/
theorem compare_div_mod (n m : Nat) :
    (compare (n / 10) (m / 10)).then (compare (n % 10) (m % 10)) = compare n m := by
  rcases h : compare n m with _ | _ | _
  · rw [Nat.compare_eq_lt] at h
    rw [Ordering.then_eq_lt, Nat.compare_eq_lt, Nat.compare_eq_eq, Nat.compare_eq_lt]
    omega
  · rw [Nat.compare_eq_eq] at h
    rw [Ordering.then_eq_eq, Nat.compare_eq_eq, Nat.compare_eq_eq]
    omega
  · rw [Nat.compare_eq_gt] at h
    rw [Ordering.then_eq_gt, Nat.compare_eq_gt, Nat.compare_eq_eq, Nat.compare_eq_gt]
    omega

/-- Numbers that are written to one width compare as they are. -/
theorem compare_paddedDigits {width n m : Nat} (hn : n < 10 ^ width) (hm : m < 10 ^ width) :
    compare (paddedDigits width n) (paddedDigits width m) = compare n m := by
  -- on the width: all digits but the last decide first, as the tens do
  induction width generalizing n m with
  | zero =>
    obtain rfl : n = 0 := by simpa using hn
    obtain rfl : m = 0 := by simpa using hm
    rfl
  | succ width ih =>
    rw [Nat.pow_succ] at hn hm
    have hlength : (paddedDigits width (n / 10)).length = (paddedDigits width (m / 10)).length := by
      rw [length_paddedDigits, length_paddedDigits]
    have hlast : compare [decimalDigit n] [decimalDigit m] = compare (n % 10) (m % 10) := by
      rw [List.compare_cons_cons, compare_decimalDigit]
      exact Ordering.then_eq
    have hfront := ih (n := n / 10) (m := m / 10) (by omega) (by omega)
    calc compare (paddedDigits (width + 1) n) (paddedDigits (width + 1) m)
        = (compare (paddedDigits width (n / 10)) (paddedDigits width (m / 10))).then
            (compare [decimalDigit n] [decimalDigit m]) := Bytes.compare_append hlength _ _
      _ = (compare (n / 10) (m / 10)).then (compare (n % 10) (m % 10)) := by rw [hfront, hlast]
      _ = compare n m := compare_div_mod n m

/-- The digits of a number are those of its front and of its back part. -/
theorem paddedDigits_add (width more n : Nat) :
    paddedDigits (width + more) n = paddedDigits width (n / 10 ^ more) ++ paddedDigits more n := by
  induction more generalizing n with
  | zero => simp [paddedDigits]
  | succ more ih =>
    have hdiv : n / 10 / 10 ^ more = n / 10 ^ (more + 1) := by
      rw [Nat.div_div_eq_div_mul, ← Nat.pow_succ']
    rw [← Nat.add_assoc, paddedDigits, ih, paddedDigits, hdiv, List.append_assoc]

/-- The last digits of a number that they do not matter to are zeros. -/
theorem paddedDigits_of_mod_eq_zero {width n : Nat} (h : n % 10 ^ width = 0) :
    paddedDigits width n = List.replicate width 0x30 := by
  induction width generalizing n with
  | zero => rfl
  | succ width ih =>
    rw [Nat.pow_succ', Nat.mod_mul] at h
    obtain ⟨hlast, hfront⟩ := Nat.add_eq_zero_iff.1 h
    have hdigit : decimalDigit n = 0x30 := by
      rw [decimalDigit, hlast]
      rfl
    rw [paddedDigits, ih (by omega), hdigit, List.replicate_succ']

theorem zero_le_of_mem_paddedDigits {width n : Nat} :
    ∀ c ∈ paddedDigits width n, (0x30 : UInt8) ≤ c := by
  induction width generalizing n with
  | zero => simp [paddedDigits]
  | succ width ih =>
    intro c hc
    rcases List.mem_append.1 hc with hfront | hlast
    · exact ih c hfront
    · have hdigit := isDigit_decimalDigit n
      rw [isDigit, Bool.and_eq_true, decide_eq_true_eq] at hdigit
      rw [List.mem_singleton.1 hlast]
      exact hdigit.1

end Text

/-- The parts of moments compare as lists of numbers do. -/
theorem compare_parts_eq_lt_iff {l l' : List Int} : compare l l' = .lt ↔ l < l' := by
  induction l generalizing l' with
  | nil => cases l' <;> simp
  | cons x l ih =>
    cases l' with
    | nil => simp
    | cons y l' =>
      rw [List.compare_cons_cons, Ordering.then_eq_lt, Int.compare_eq_lt, Int.compare_eq_eq, ih,
        List.cons_lt_cons_iff]

theorem compare_natCast (n m : Nat) : compare (n : Int) (m : Int) = compare n m := by
  rcases h : compare n m with _ | _ | _
  · rw [Nat.compare_eq_lt] at h
    exact Int.compare_eq_lt.2 (Int.ofNat_lt.2 h)
  · rw [Nat.compare_eq_eq] at h
    exact Int.compare_eq_eq.2 (congrArg Int.ofNat h)
  · rw [Nat.compare_eq_gt] at h
    exact Int.compare_eq_gt.2 (Int.ofNat_lt.2 h)

namespace Moment

open Text (paddedDigits)

/-- A written fraction lacks nothing but zeros of all nine digits. -/
theorem exists_digits_fraction {nano : Nat} (h : nano ≠ 0) : ∃ digits count,
    fraction nano = 0x2e :: digits ∧
      digits ++ List.replicate count 0x30 = paddedDigits 9 nano := by
  rw [fraction, if_neg h]
  -- milliseconds leave six zeros unwritten, microseconds three, and nanoseconds none
  split
  · rename_i hmillis
    refine ⟨_, 6, rfl, ?_⟩
    have hzeros : paddedDigits 6 nano = List.replicate 6 0x30 :=
      Text.paddedDigits_of_mod_eq_zero hmillis
    have hpow : 10 ^ 6 = 1000000 := rfl
    rw [Text.paddedDigits_add 3 6, hzeros, hpow]
  · split
    · rename_i hmicros
      refine ⟨_, 3, rfl, ?_⟩
      have hzeros : paddedDigits 3 nano = List.replicate 3 0x30 :=
        Text.paddedDigits_of_mod_eq_zero hmicros
      have hpow : 10 ^ 3 = 1000 := rfl
      rw [Text.paddedDigits_add 6 3, hzeros, hpow]
    · exact ⟨_, 0, rfl, List.append_nil _⟩

/-- Fractions are cut short where only zeros follow, and a fraction that is cut short stands before all that
go on with more than zeros. -/
theorem compare_fraction_of_lt {a b : Nat} (hab : a < b) (hb : b < 10 ^ 9) :
    compare (fraction a) (fraction b) = .lt := by
  obtain ⟨digits, count, hfraction, hdigits⟩ := exists_digits_fraction (Nat.ne_zero_of_lt hab)
  rw [hfraction]
  by_cases ha : a = 0
  · rw [ha]
    rfl
  · obtain ⟨digits', count', hfraction', hdigits'⟩ := exists_digits_fraction ha
    have hlt : compare (paddedDigits 9 a) (paddedDigits 9 b) = .lt := by
      rw [Text.compare_paddedDigits (Nat.lt_trans hab hb) hb]
      exact Nat.compare_eq_lt.2 hab
    have hlength : (paddedDigits 9 a).length = (paddedDigits 9 b).length := by
      rw [Text.length_paddedDigits, Text.length_paddedDigits]
    have hzero : ∀ c ∈ paddedDigits 9 a, (0x30 : UInt8) ≤ c := Text.zero_le_of_mem_paddedDigits
    -- Both fractions are read as nine digits: the zeros that the later one lacks cannot turn the order,
    -- as no byte of the earlier one is below them.
    rw [← hdigits', ← hdigits] at hlt hlength
    rw [← hdigits'] at hzero
    rw [hfraction', Bytes.compare_cons_self]
    exact Bytes.compare_front_eq_lt hlength hzero hlt

/-- Fractions compare as the nanoseconds that they are written for. -/
theorem compare_fraction {a b : Nat} (ha : a < 10 ^ 9) (hb : b < 10 ^ 9) :
    compare (fraction a) (fraction b) = compare a b := by
  rcases h : compare a b with _ | _ | _
  · exact compare_fraction_of_lt (Nat.compare_eq_lt.1 h) hb
  · rw [Nat.compare_eq_eq.1 h]
    exact Std.ReflCmp.compare_self
  · exact Std.OrientedCmp.gt_of_lt (compare_fraction_of_lt (Nat.compare_eq_gt.1 h) ha)

/-- The parts of a moment, the longest first. -/
def parts (m : Moment) : List Int :=
  [m.year.val, m.month, m.day, m.hour, m.minute, m.second, m.nano]

/-- The first part in which two moments differ decides which of them is earlier. -/
def Earlier (m n : Moment) : Prop := m.parts < n.parts

/-- A moment of the years 0000 to 9999. -/
def IsPlain (m : Moment) : Prop := 0 ≤ m.year.val ∧ m.year.val ≤ 9999

instance (m : Moment) : Decidable m.IsPlain := inferInstanceAs (Decidable (_ ∧ _))

/-- A moment is no more than its parts. -/
theorem parts_injective {m n : Moment} (h : m.parts = n.parts) : m = n := by
  obtain ⟨⟨year, _⟩, ⟨month, _⟩, ⟨day, _⟩, ⟨hour, _⟩, ⟨minute, _⟩, ⟨second, _⟩, ⟨nano, _⟩⟩ := m
  obtain ⟨⟨year', _⟩, ⟨month', _⟩, ⟨day', _⟩, ⟨hour', _⟩, ⟨minute', _⟩, ⟨second', _⟩, ⟨nano', _⟩⟩ := n
  simpa only [parts, List.cons.injEq, Int.natCast_inj, Moment.mk.injEq, Subtype.mk.injEq, Fin.mk.injEq,
    and_true] using h

theorem earlier_iff {m n : Moment} : m.Earlier n ↔ compare m.parts n.parts = .lt :=
  compare_parts_eq_lt_iff.symm

/-- From 0000 to 9999 a year is written in four digits and without a sign. -/
theorem IsPlain.writtenYear {m : Moment} (h : m.IsPlain) :
    writtenYear m.year = paddedDigits 4 m.year.val.toNat := by
  obtain ⟨hlow, hhigh⟩ := h
  have habs : m.year.val.natAbs = m.year.val.toNat := by omega
  rw [Moment.writtenYear, if_neg (by omega), if_neg (by omega), if_pos (by omega), habs]

/-- The stored texts of moments in the years 0000 to 9999 are in the order of the moments. -/
theorem compare_stored {m n : Moment} (hm : m.IsPlain) (hn : n.IsPlain) :
    compare m.stored n.stored = compare m.parts n.parts := by
  have hyear : compare (paddedDigits 4 m.year.val.toNat) (paddedDigits 4 n.year.val.toNat) =
      compare m.year.val n.year.val := by
    obtain ⟨hlow, hhigh⟩ := hm
    obtain ⟨hlow', hhigh'⟩ := hn
    rw [Text.compare_paddedDigits (by omega) (by omega), ← compare_natCast, Int.toNat_of_nonneg hlow,
      Int.toNat_of_nonneg hlow']
  have htwo {k : Nat} (hk : k ≤ 100) (a b : Fin k) :
      compare (paddedDigits 2 a) (paddedDigits 2 b) = compare (a : Int) (b : Int) := by
    have ha := a.isLt
    have hb := b.isLt
    rw [Text.compare_paddedDigits (by omega) (by omega), compare_natCast]
  have hnano : compare (fraction m.nano) (fraction n.nano) = compare (m.nano : Int) (n.nano : Int) := by
    rw [compare_fraction m.nano.isLt n.nano.isLt, compare_natCast]
  -- All parts but the fraction have one width, so the texts compare part by part.
  simp only [stored, written, hm.writtenYear, hn.writtenYear]
  rw [Bytes.compare_append, Bytes.compare_append, Bytes.compare_append, Bytes.compare_append,
    Bytes.compare_append, Bytes.compare_append]
  · rw [Bytes.compare_cons_self, Bytes.compare_cons_self, Bytes.compare_cons_self,
      Bytes.compare_cons_self, Bytes.compare_cons_self, hyear, htwo (by decide) m.month,
      htwo (by decide) m.day, htwo (by decide) m.hour, htwo (by decide) m.minute,
      htwo (by decide) m.second, hnano]
    simp only [parts, List.compare_cons_cons, List.compare_nil_nil, Ordering.then_eq,
      Ordering.then_assoc]
  all_goals simp only [List.length_append, List.length_cons, Text.length_paddedDigits]

end Moment
end IndexVault
