import IndexVault.Text.Base64
import IndexVault.Text.Decimal

namespace IndexVault

namespace Bytes

/-- All bytes are ASCII characters. -/
def IsAscii (b : Bytes) : Prop := ∀ x ∈ b, x < 0x80

/-- All bytes are ASCII characters from the blank on. -/
def IsPrintable (b : Bytes) : Prop := ∀ x ∈ b, 0x20 ≤ x ∧ x < 0x80

-- Named, since the bytes are finitely many: the search may find the test of all 256 of them instead.
instance (b : Bytes) : Decidable b.IsAscii := List.decidableBAll (· < 0x80) b

instance (b : Bytes) : Decidable b.IsPrintable :=
  List.decidableBAll (fun x => 0x20 ≤ x ∧ x < 0x80) b

/-- The text that ASCII characters spell. -/
def asciiText (b : Bytes) : String := String.ofList (b.map fun x => Char.ofNat x.toNat)

theorem IsPrintable.isAscii {b : Bytes} (h : b.IsPrintable) : b.IsAscii := fun x hx => (h x hx).2

theorem isPrintable_nil : IsPrintable [] := by
  intro x hx
  cases hx

theorem IsPrintable.append {b b' : Bytes} (h : b.IsPrintable) (h' : b'.IsPrintable) :
    (b ++ b').IsPrintable := by
  intro x hx
  exact (List.mem_append.1 hx).elim (h x) (h' x)

theorem IsPrintable.cons {x : UInt8} {b : Bytes} (hx : 0x20 ≤ x ∧ x < 0x80) (h : b.IsPrintable) :
    IsPrintable (x :: b) := by
  intro y hy
  rcases List.mem_cons.1 hy with rfl | hy
  · exact hx
  · exact h y hy

/-- An ASCII character is spelled by its own byte. -/
theorem utf8EncodeChar_of_ascii {x : UInt8} (h : x < 0x80) :
    String.utf8EncodeChar (Char.ofNat x.toNat) = [x] := by
  have table : ∀ m : Fin 0x80, String.utf8EncodeChar (Char.ofNat m.val) = [UInt8.ofNat m.val] := by
    decide
  have hx := table ⟨x.toNat, UInt8.lt_iff_toNat_lt.1 h⟩
  rw [UInt8.ofNat_toNat] at hx
  exact hx

theorem utf8EncodeChar_of_toNat_lt {c : Char} (hc : c.toNat < 0x80) :
    String.utf8EncodeChar c = [UInt8.ofNat c.toNat] := by
  have hbyte : (UInt8.ofNat c.toNat).toNat = c.toNat := by
    rw [UInt8.toNat_ofNat']
    omega
  have hlow : UInt8.ofNat c.toNat < 0x80 := by
    rw [UInt8.lt_iff_toNat_lt, hbyte]
    exact hc
  rw [← utf8EncodeChar_of_ascii hlow, hbyte, Char.ofNat_toNat]

/-- ASCII bytes spell a text byte for byte. -/
theorem ofText_asciiText {b : Bytes} (h : b.IsAscii) : ofText b.asciiText = b := by
  have hencode : (b.map fun x => Char.ofNat x.toNat).flatMap String.utf8EncodeChar = b := by
    induction b with
    | nil => rfl
    | cons x rest ih =>
      rw [List.map_cons, List.flatMap_cons, utf8EncodeChar_of_ascii (h x List.mem_cons_self),
        ih fun y hy => h y (List.mem_cons_of_mem x hy)]
      rfl
  rw [ofText, asciiText, String.toByteArray_ofList, List.utf8Encode, hencode]
  simp

theorem toText?_of_isAscii {b : Bytes} (h : b.IsAscii) : toText? b = some b.asciiText := by
  have hread := toText?_ofText b.asciiText
  rw [ofText_asciiText h] at hread
  exact hread

end Bytes

namespace Text

theorem isPrintable_base64Symbol (n : Nat) : 0x20 ≤ base64Symbol n ∧ base64Symbol n < 0x80 := by
  have table : ∀ m : Fin 63, 0x20 ≤ base64Symbol m.val ∧ base64Symbol m.val < 0x80 := by decide
  by_cases hn : n < 63
  · exact table ⟨n, hn⟩
  · have hlast : base64Symbol n = 0x2f := by
      rw [base64Symbol, if_neg (by omega), if_neg (by omega), if_neg (by omega), if_neg (by omega)]
    rw [hlast]
    decide

/-- Base 64 has no control characters. -/
theorem isPrintable_base64 (b : Bytes) : (base64 b).IsPrintable := by
  fun_induction base64 b with
  | case1 => exact Bytes.isPrintable_nil
  | case2 => exact .cons (isPrintable_base64Symbol _) (.cons (isPrintable_base64Symbol _)
      Bytes.isPrintable_nil)
  | case3 => exact .cons (isPrintable_base64Symbol _) (.cons (isPrintable_base64Symbol _)
      (.cons (isPrintable_base64Symbol _) Bytes.isPrintable_nil))
  | case4 _ _ _ _ ih => exact .cons (isPrintable_base64Symbol _) (.cons (isPrintable_base64Symbol _)
      (.cons (isPrintable_base64Symbol _) (.cons (isPrintable_base64Symbol _) ih)))

theorem ofText_base64Text (b : Bytes) : Bytes.ofText (base64Text b) = base64 b :=
  Bytes.ofText_asciiText (isPrintable_base64 b).isAscii

/-- Bytes can be read back from their text in base 64. -/
theorem unbase64?_base64Text (b : Bytes) : unbase64? (Bytes.ofText (base64Text b)) = some b := by
  rw [ofText_base64Text, unbase64?_base64]

/-- Different bytes are written differently in base 64. -/
theorem base64Text_injective {b b' : Bytes} (h : base64Text b = base64Text b') : b = b' := by
  have hread := unbase64?_base64Text b
  rw [h, unbase64?_base64Text] at hread
  exact (Option.some.inj hread).symm

/-- Decimal digits are ASCII characters. -/
theorem isPrintable_digits (n : Nat) : (digits n).IsPrintable := by
  intro x hx
  have hdigit := List.all_eq_true.1 (all_isDigit_digits n) x hx
  rw [isDigit, Bool.and_eq_true, decide_eq_true_eq, decide_eq_true_eq, UInt8.le_iff_toNat_le,
    UInt8.le_iff_toNat_le] at hdigit
  rw [UInt8.le_iff_toNat_le, UInt8.lt_iff_toNat_lt]
  constructor
  · exact Nat.le_trans (by decide) hdigit.1
  · exact Nat.lt_of_le_of_lt hdigit.2 (by decide)

theorem isPrintable_signedDigits (n : Int) : (signedDigits n).IsPrintable := by
  cases n with
  | ofNat n => exact isPrintable_digits n
  | negSucc n => exact .cons (by decide) (isPrintable_digits _)

end Text
end IndexVault
