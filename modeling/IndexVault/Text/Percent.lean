import IndexVault.Text.Hex
import IndexVault.Text.Utf8

namespace IndexVault.Text

/-- The bytes that percent-encoded bytes stand for: `%` with two hexadecimal digits stands for a byte, and a
`%` without them for itself. -/
def percentDecode : Bytes → Bytes
  | 0x25 :: a :: b :: rest =>
    match hexValue? a, hexValue? b with
    | some high, some low => UInt8.ofNat (high * 16 + low) :: percentDecode rest
    | _, _ => 0x25 :: percentDecode (a :: b :: rest)
  | b :: rest => b :: percentDecode rest
  | [] => []
termination_by b => b.length

/-- Decodes one name or value of a form, in which a plus sign is a space. -/
def formText (b : Bytes) : String :=
  lossyText (percentDecode (b.map fun x => if x == 0x2b then 0x20 else x))

/-- The pieces between the occurrences of a separator. -/
def splitOnByte (sep : UInt8) : Bytes → List Bytes
  | [] => [[]]
  | b :: rest =>
    if b == sep then [] :: splitOnByte sep rest
    else
      match splitOnByte sep rest with
      | [] => [[b]]
      | piece :: pieces => (b :: piece) :: pieces

/-- The names and values of a form (`name=value` joined by `&`), in order; empty pieces are left
out, and a piece without `=` has the empty value. -/
def formFields (b : Bytes) : List (String × String) :=
  ((splitOnByte 0x26 b).filter (!·.isEmpty)).map fun piece =>
    (formText (piece.takeWhile (· != 0x3d)), formText ((piece.dropWhile (· != 0x3d)).drop 1))

/-- Without a percent sign there is nothing to decode. -/
theorem percentDecode_of_not_mem {b : Bytes} (h : 0x25 ∉ b) : percentDecode b = b := by
  induction b with
  | nil => rw [percentDecode]
  | cons x rest ih =>
    have hx : x ≠ 0x25 := fun hx => h (hx ▸ List.mem_cons_self)
    rw [percentDecode.eq_2, ih fun hm => h (List.mem_cons_of_mem _ hm)]
    intro a c r hx'
    exact absurd hx' hx

end IndexVault.Text
