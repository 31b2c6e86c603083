import IndexVault.Bytes

namespace IndexVault.Text

/-- The ASCII code of a digit below sixteen, in lower case. -/
def hexDigit (n : Nat) : UInt8 :=
  if n < 10 then UInt8.ofNat (0x30 + n) else UInt8.ofNat (0x57 + n)

/-- The value of a hexadecimal digit of either case. -/
def hexValue? (b : UInt8) : Option Nat :=
  let n := b.toNat
  if 0x30 ≤ n ∧ n ≤ 0x39 then some (n - 0x30)
  else if 0x41 ≤ n ∧ n ≤ 0x46 then some (n - 0x37)
  else if 0x61 ≤ n ∧ n ≤ 0x66 then some (n - 0x57)
  else none

theorem hexValue?_hexDigit {n : Nat} (h : n < 16) : hexValue? (hexDigit n) = some n := by
  have table : ∀ m : Fin 16, hexValue? (hexDigit m) = some m.val := by decide
  exact table ⟨n, h⟩

/-- Two hexadecimal digits a byte. -/
def hex (b : Bytes) : Bytes :=
  b.flatMap fun x => [hexDigit (x.toNat / 16), hexDigit (x.toNat % 16)]

/-- The bytes that pairs of hexadecimal digits stand for. -/
def unhex? : Bytes → Option Bytes
  | [] => some []
  | [_] => none
  | a :: b :: rest => do
    let high ← hexValue? a
    let low ← hexValue? b
    let tail ← unhex? rest
    pure (UInt8.ofNat (high * 16 + low) :: tail)

/-- Every byte string reads back from its digits. -/
theorem unhex?_hex (b : Bytes) : unhex? (hex b) = some b := by
  induction b with
  | nil => rfl
  | cons x rest ih =>
    have hx := x.toNat_lt
    have h : UInt8.ofNat (x.toNat / 16 * 16 + x.toNat % 16) = x := by
      rw [show x.toNat / 16 * 16 + x.toNat % 16 = x.toNat by omega, UInt8.ofNat_toNat]
    simp only [hex, List.flatMap_cons, List.cons_append, List.nil_append] at ih ⊢
    simp only [unhex?, hexValue?_hexDigit (show x.toNat / 16 < 16 by omega),
      hexValue?_hexDigit (show x.toNat % 16 < 16 by omega), ih]
    exact congrArg (fun y => some (y :: rest)) h

end IndexVault.Text
