import IndexVault.Bytes

namespace IndexVault.Text

def isDigit (b : UInt8) : Bool :=
  0x30 ≤ b && b ≤ 0x39

/-- The ASCII code of a digit below ten. -/
def decimalDigit (n : Nat) : UInt8 :=
  UInt8.ofNat (0x30 + n % 10)

/-- The decimal digits of a number, without leading zeros. -/
def digits (n : Nat) : Bytes :=
  if n < 10 then [decimalDigit n] else digits (n / 10) ++ [decimalDigit n]
termination_by n
decreasing_by omega

/-- The last `width` decimal digits of a number. -/
def paddedDigits : Nat → Nat → Bytes
  | 0, _ => []
  | width + 1, n => paddedDigits width (n / 10) ++ [decimalDigit n]

/-- A number with its sign where it is negative. -/
def signedDigits : Int → Bytes
  | .ofNat n => digits n
  | .negSucc n => 0x2d :: digits (n + 1)

def readNat (b : Bytes) : Nat :=
  b.foldl (fun n x => n * 10 + (x.toNat - 0x30)) 0

/-- The number that a text of one or more digits stands for. -/
def nat? (b : Bytes) : Option Nat :=
  if b.isEmpty || !b.all isDigit then none else some (readNat b)

/-- The number that digits after an optional sign stand for. -/
def int? : Bytes → Option Int
  | 0x2b :: rest => (nat? rest).map Int.ofNat
  | 0x2d :: rest => (nat? rest).map fun n => -(n : Int)
  | b => (nat? b).map Int.ofNat

theorem toNat_decimalDigit (n : Nat) : (decimalDigit n).toNat = 0x30 + n % 10 := by
  rw [decimalDigit, UInt8.toNat_ofNat']
  omega

theorem isDigit_decimalDigit (n : Nat) : isDigit (decimalDigit n) = true := by
  have h := toNat_decimalDigit n
  simp only [isDigit, Bool.and_eq_true, decide_eq_true_eq, UInt8.le_iff_toNat_le, h]
  constructor
  · exact Nat.le_add_right _ _
  · change 0x30 + n % 10 ≤ 0x39
    omega

/-- One more digit at the end shifts the others by one place. -/
theorem readNat_append_singleton (b : Bytes) (x : UInt8) :
    readNat (b ++ [x]) = readNat b * 10 + (x.toNat - 0x30) := by
  simp [readNat]

/-- A written number reads back. -/
theorem readNat_digits (n : Nat) : readNat (digits n) = n := by
  induction n using Nat.strongRecOn with
  | ind n ih =>
    rw [digits]
    split
    · rename_i h
      rw [← List.nil_append [decimalDigit n], readNat_append_singleton, toNat_decimalDigit]
      simp only [readNat, List.foldl_nil]
      omega
    · rw [readNat_append_singleton, ih (n / 10) (by omega), toNat_decimalDigit]
      omega

theorem all_isDigit_digits (n : Nat) : (digits n).all isDigit = true := by
  induction n using Nat.strongRecOn with
  | ind n ih =>
    rw [digits]
    split
    · simp [isDigit_decimalDigit]
    · simp [ih (n / 10) (by omega), isDigit_decimalDigit]

theorem digits_ne_nil (n : Nat) : digits n ≠ [] := by
  rw [digits]
  split <;> simp

/-- The digits of a number are a text of digits, which stands for it. -/
theorem nat?_digits (n : Nat) : nat? (digits n) = some n := by
  simp [nat?, digits_ne_nil, all_isDigit_digits, readNat_digits]

/-- A number that is written to a width has this width. -/
theorem length_paddedDigits (width n : Nat) : (paddedDigits width n).length = width := by
  induction width generalizing n with
  | zero => rfl
  | succ w ih => simp [paddedDigits, ih]

end IndexVault.Text
