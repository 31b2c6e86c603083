import IndexVault.Http.HeaderValue
import IndexVault.Http.Message
import IndexVault.Text.Blank
import IndexVault.Text.Decimal
import IndexVault.Text.Percent

namespace IndexVault.Http

/-- The thousandths behind the first digit of a weight: a point and up to three digits. -/
def thousandths? : Bytes → Option Nat
  | [] => some 0
  | 0x2e :: found =>
    if found.length ≤ 3 && found.all Text.isDigit then
      some (Text.readNat ((found ++ List.replicate 3 0x30).take 3))
    else none
  | _ => none

/-- The weight that a text of the form `q=0.5` spells, in thousandths; it is one at most. -/
def weight? : Bytes → Option Nat
  | q :: 0x3d :: unit :: rest =>
    if (q == 0x71 || q == 0x51) && (unit == 0x30 || unit == 0x31) then
      ((thousandths? rest).map (· + if unit == 0x31 then 1000 else 0)).filter (· ≤ 1000)
    else none
  | _ => none

/-- No weight is above one. -/
theorem weight?_le {b : Bytes} {n : Nat} (h : weight? b = some n) : n ≤ 1000 := by
  rw [weight?.eq_def] at h
  split at h
  · split at h
    · simpa using (Option.filter_eq_some_iff.mp h).2
    · simp at h
  · simp at h

/-- Whether a piece of a list names the coding that changes nothing, and wants it at all. -/
def wantsIdentity (piece : Bytes) : Bool :=
  let name := trimBlanks (piece.takeWhile (· != 0x3b))
  ((headerText? name).map (Text.eqIgnoringCase "identity")).getD false &&
    match piece.dropWhile (· != 0x3b) with
    | [] => true
    | _ :: weight => 0 < (weight? (trimBlanks weight)).getD 0

/-- Whether a request asks for content as it is, in one of its `accept-encoding` headers that can be read. A
header lists codings, each with a weight behind a semicolon if it has one. -/
def Request.wantsIdentity (r : Request) : Bool :=
  (r.header "accept-encoding").any fun value =>
    value.all isReadable && (Text.splitOnByte 0x2c value).any Http.wantsIdentity

end IndexVault.Http
