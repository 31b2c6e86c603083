namespace IndexVault

abbrev Bytes := List UInt8

namespace Bytes

/-- The UTF-8 bytes of a text. -/
def ofText (s : String) : Bytes :=
  s.toByteArray.data.toList

/-- The text whose UTF-8 bytes these are, if there is one. -/
def toText? (b : Bytes) : Option String :=
  String.fromUTF8? ⟨b.toArray⟩

/-- The bytes of a text read back as that text. -/
theorem toText?_ofText (s : String) : toText? (ofText s) = some s := by
  have h : (⟨(ofText s).toArray⟩ : ByteArray) = s.toByteArray := by
    simp [ofText]
  rw [toText?, h, String.fromUTF8?, dif_pos s.isValidUTF8]
  rfl

/-- Different texts have different bytes. -/
theorem ofText_injective {s t : String} (h : ofText s = ofText t) : s = t := by
  have h' := congrArg toText? h
  simpa only [toText?_ofText, Option.some.injEq] using h'

/-- The number that the bytes spell in base 256, most significant first. -/
def bigEndian (b : Bytes) : Nat :=
  b.foldl (fun n x => n * 256 + x.toNat) 0

/-- The last `width` base-256 digits of a number, most significant first. -/
def ofBigEndian : Nat → Nat → Bytes
  | 0, _ => []
  | width + 1, n => ofBigEndian width (n / 256) ++ [UInt8.ofNat n]

theorem length_ofBigEndian (width n : Nat) : (ofBigEndian width n).length = width := by
  induction width generalizing n with
  | zero => rfl
  | succ w ih => simp [ofBigEndian, ih]

/-- One more byte at the end shifts the others by one place. -/
theorem bigEndian_append_singleton (b : Bytes) (x : UInt8) :
    bigEndian (b ++ [x]) = bigEndian b * 256 + x.toNat := by
  simp [bigEndian]

/-- Digits read back as the number they were written for, as far as the width goes. -/
theorem bigEndian_ofBigEndian (width n : Nat) :
    bigEndian (ofBigEndian width n) = n % Nat.pow 256 width := by
  rw [Nat.pow_eq]
  induction width generalizing n with
  | zero => simp [ofBigEndian, bigEndian, Nat.mod_one]
  | succ w ih =>
    have hw : 256 ^ (w + 1) = 256 * 256 ^ w := Nat.pow_succ'
    have hm : n % (256 * 256 ^ w) = n % 256 + 256 * (n / 256 % 256 ^ w) := Nat.mod_mul
    rw [ofBigEndian, bigEndian_append_singleton, ih, UInt8.toNat_ofNat', hw, hm]
    omega

end Bytes

end IndexVault
