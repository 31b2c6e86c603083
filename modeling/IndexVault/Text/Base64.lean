import IndexVault.Bytes

namespace IndexVault.Text

/-- The symbol of a value below sixty-four. -/
def base64Symbol (n : Nat) : UInt8 :=
  if n < 26 then UInt8.ofNat (0x41 + n)
  else if n < 52 then UInt8.ofNat (0x47 + n)
  else if n < 62 then UInt8.ofNat (n - 4)
  else if n = 62 then 0x2b
  else 0x2f

def base64Value? (b : UInt8) : Option Nat :=
  let n := b.toNat
  if 0x41 ≤ n ∧ n ≤ 0x5a then some (n - 0x41)
  else if 0x61 ≤ n ∧ n ≤ 0x7a then some (n - 0x47)
  else if 0x30 ≤ n ∧ n ≤ 0x39 then some (n + 4)
  else if n = 0x2b then some 62
  else if n = 0x2f then some 63
  else none

/-- Base 64 in the standard alphabet without padding: four symbols for three bytes; a last byte takes two
symbols, two last bytes take three. -/
def base64 : Bytes → Bytes
  | [] => []
  | [a] => [base64Symbol (a.toNat / 4), base64Symbol (a.toNat % 4 * 16)]
  | [a, b] =>
    [base64Symbol (a.toNat / 4), base64Symbol (a.toNat % 4 * 16 + b.toNat / 16),
      base64Symbol (b.toNat % 16 * 4)]
  | a :: b :: c :: rest =>
    base64Symbol (a.toNat / 4) :: base64Symbol (a.toNat % 4 * 16 + b.toNat / 16) ::
      base64Symbol (b.toNat % 16 * 4 + c.toNat / 64) :: base64Symbol (c.toNat % 64) :: base64 rest

/-- The bytes that symbols stand for; unused bits of the last symbol have to be zero. -/
def unbase64? : Bytes → Option Bytes
  | [] => some []
  | [_] => none
  | [p, q] => do
    let x ← base64Value? p
    let y ← base64Value? q
    if y % 16 = 0 then some [UInt8.ofNat (x * 4 + y / 16)] else none
  | [p, q, r] => do
    let x ← base64Value? p
    let y ← base64Value? q
    let z ← base64Value? r
    if z % 4 = 0 then some [UInt8.ofNat (x * 4 + y / 16), UInt8.ofNat (y % 16 * 16 + z / 4)]
    else none
  | p :: q :: r :: s :: rest => do
    let x ← base64Value? p
    let y ← base64Value? q
    let z ← base64Value? r
    let w ← base64Value? s
    let tail ← unbase64? rest
    some (UInt8.ofNat (x * 4 + y / 16) :: UInt8.ofNat (y % 16 * 16 + z / 4) ::
      UInt8.ofNat (z % 4 * 64 + w) :: tail)

/-- The text of base 64 symbols, all of which are ASCII. -/
def base64Text (b : Bytes) : String :=
  String.ofList ((base64 b).map fun x => Char.ofNat x.toNat)

theorem base64Value?_base64Symbol {n : Nat} (h : n < 64) :
    base64Value? (base64Symbol n) = some n := by
  have table : ∀ m : Fin 64, base64Value? (base64Symbol m) = some m.val := by decide
  exact table ⟨n, h⟩

/-- Every byte string reads back from its written form. -/
theorem unbase64?_base64 (b : Bytes) : unbase64? (base64 b) = some b := by
  have byte {n : Nat} {x : UInt8} (h : n = x.toNat) : UInt8.ofNat n = x := by
    rw [h, UInt8.ofNat_toNat]
  -- three bytes are four symbols; the shorter groups at the end are padded
  fun_induction base64 b with
  | case1 => rfl
  | case2 a =>
    have ha := a.toNat_lt
    simp only [unbase64?, base64Value?_base64Symbol (show a.toNat / 4 < 64 by omega),
      base64Value?_base64Symbol (show a.toNat % 4 * 16 < 64 by omega), Option.bind_eq_bind,
      Option.bind_some]
    rw [if_pos (by omega), byte (x := a) (by omega)]
  | case3 a b =>
    have ha := a.toNat_lt
    have hb := b.toNat_lt
    simp only [unbase64?, base64Value?_base64Symbol (show a.toNat / 4 < 64 by omega),
      base64Value?_base64Symbol (show a.toNat % 4 * 16 + b.toNat / 16 < 64 by omega),
      base64Value?_base64Symbol (show b.toNat % 16 * 4 < 64 by omega), Option.bind_eq_bind,
      Option.bind_some]
    rw [if_pos (by omega), byte (x := a) (by omega), byte (x := b) (by omega)]
  | case4 a b c rest ih =>
    have ha := a.toNat_lt
    have hb := b.toNat_lt
    have hc := c.toNat_lt
    simp only [unbase64?, base64Value?_base64Symbol (show a.toNat / 4 < 64 by omega),
      base64Value?_base64Symbol (show a.toNat % 4 * 16 + b.toNat / 16 < 64 by omega),
      base64Value?_base64Symbol (show b.toNat % 16 * 4 + c.toNat / 64 < 64 by omega),
      base64Value?_base64Symbol (show c.toNat % 64 < 64 by omega), ih, Option.bind_eq_bind,
      Option.bind_some]
    rw [byte (x := a) (by omega), byte (x := b) (by omega), byte (x := c) (by omega)]

end IndexVault.Text
