import IndexVault.Bytes
import IndexVault.Wire.Error

namespace IndexVault.Wire

/-- An unsigned number in the fewest groups of seven bits, lowest first; every byte but the last has its
high bit set. -/
def leb128 (n : Nat) : Bytes :=
  if n < 128 then [UInt8.ofNat n] else UInt8.ofNat (n % 128 + 128) :: leb128 (n / 128)
termination_by n
decreasing_by omega

/-- Reads a number that may take `groups` more bytes. The bytes read so far stay consumed when the
number is refused. -/
def readGroups : Nat → Bytes → Except PayloadError Nat × Bytes
  | 0, input => (.error .integerOverflow, input)
  | _ + 1, [] => (.error (.unexpectedEnd 1 0), [])
  | groups + 1, b :: rest =>
    -- The last byte may carry only one bit.
    if groups = 0 ∧ 1 < b.toNat % 128 then (.error .integerOverflow, rest)
    else if b.toNat < 128 then (.ok b.toNat, rest)
    else
      match readGroups groups rest with
      | (.ok high, rest') => (.ok (b.toNat % 128 + 128 * high), rest')
      | (.error e, rest') => (.error e, rest')

/-- The most bytes that a 64-bit number takes. -/
def maxGroups : Nat := 10

/-- Reads a number of at most ten bytes, of which the tenth carries one bit, so that it stays below `2 ^
64`. -/
def readLeb128 (input : Bytes) : Except PayloadError Nat × Bytes :=
  readGroups maxGroups input

/-- A number reads back while it fits the groups that are left, whatever follows it. -/
theorem readGroups_leb128 (groups n : Nat) (rest : Bytes) (h : n < 2 * Nat.pow 128 groups) :
    readGroups (groups + 1) (leb128 n ++ rest) = (.ok n, rest) := by
  rw [Nat.pow_eq] at h
  -- on the groups that are left; the bound leaves one bit for the last of them
  induction groups generalizing n with
  | zero =>
    have hn : n < 2 := by omega
    have hb : (UInt8.ofNat n).toNat = n := by
      rw [UInt8.toNat_ofNat']
      omega
    rw [leb128, if_pos (by omega)]
    simp only [List.cons_append, List.nil_append, readGroups, hb]
    rw [if_neg (by omega), if_pos (by omega)]
  | succ g ih =>
    rw [leb128]
    split
    · have hb : (UInt8.ofNat n).toNat = n := by
        rw [UInt8.toNat_ofNat']
        omega
      simp only [List.cons_append, List.nil_append, readGroups, hb]
      rw [if_neg (by omega), if_pos (by omega)]
    · have hb : (UInt8.ofNat (n % 128 + 128)).toNat = n % 128 + 128 := by
        rw [UInt8.toNat_ofNat']
        omega
      have hg : n / 128 < 2 * 128 ^ g := by
        rw [Nat.pow_succ] at h
        omega
      rw [List.cons_append, readGroups, hb, if_neg (by omega), if_neg (by omega), ih _ hg]
      simp only [Prod.mk.injEq, Except.ok.injEq, and_true]
      omega

/-- A written number below `2 ^ 64` reads back, whatever follows it. -/
theorem readLeb128_leb128 {n : Nat} (h : n < UInt64.size) (rest : Bytes) :
    readLeb128 (leb128 n ++ rest) = (.ok n, rest) :=
  readGroups_leb128 9 n rest h

end IndexVault.Wire
