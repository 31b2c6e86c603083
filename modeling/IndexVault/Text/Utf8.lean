import IndexVault.Bytes

namespace IndexVault.Text

/-- What a first byte of several announces: how many bytes follow, and the range of the next one. -/
def leadByte? (b : UInt8) : Option (Nat × UInt8 × UInt8) :=
  if 0xc2 ≤ b && b ≤ 0xdf then some (1, 0x80, 0xbf)
  else if b == 0xe0 then some (2, 0xa0, 0xbf)
  else if b == 0xed then some (2, 0x80, 0x9f)
  else if 0xe1 ≤ b && b ≤ 0xef then some (2, 0x80, 0xbf)
  else if b == 0xf0 then some (3, 0x90, 0xbf)
  else if 0xf1 ≤ b && b ≤ 0xf3 then some (3, 0x80, 0xbf)
  else if b == 0xf4 then some (3, 0x80, 0x8f)
  else none

/-- How many of the next `expected` bytes continue a character; the first lies in a range of its
own. -/
def continuingBytes : Nat → UInt8 → UInt8 → Bytes → Nat
  | 0, _, _, _ => 0
  | _ + 1, _, _, [] => 0
  | expected + 1, low, high, b :: rest =>
    if low ≤ b && b ≤ high then 1 + continuingBytes expected 0x80 0xbf rest else 0

/-- The code point of a first byte and the bytes that continue it. -/
def codePoint (first : UInt8) (following : Bytes) : Nat :=
  let payload := first.toNat % Nat.pow 2 (6 - following.length)
  following.foldl (fun n b => n * 64 + b.toNat % 64) payload

/-- The characters of a byte string, where every longest start of a character that breaks off is replaced by
one `U+FFFD`. -/
def lossyChars : Bytes → List Char
  | [] => []
  | b :: rest =>
    if b < 0x80 then Char.ofNat b.toNat :: lossyChars rest
    else
      match leadByte? b with
      | none => '\uFFFD' :: lossyChars rest
      | some (expected, low, high) =>
        let found := continuingBytes expected low high rest
        let c := if found = expected then Char.ofNat (codePoint b (rest.take found)) else '\uFFFD'
        c :: lossyChars (rest.drop found)
termination_by b => b.length
decreasing_by
  all_goals simp only [List.length_cons, List.length_drop]; omega

/-- The text of a byte string, broken characters replaced by `U+FFFD`. -/
def lossyText (b : Bytes) : String :=
  String.ofList (lossyChars b)

end IndexVault.Text
