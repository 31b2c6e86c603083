import IndexVault.Http.HeaderValue
import IndexVault.Text.Decimal
import IndexVault.Text.Percent

namespace IndexVault.Http

/-- A range of bytes: from a first one on, up to a last one or to the end, or a number of them at
the end. -/
inductive ByteRange where
  | starting (first : Nat) (last : Option Nat)
  | ending (count : Nat)
  deriving DecidableEq, Repr

/-- The first and the last byte of a part of a file. -/
structure ByteSpan where
  first : Nat
  last : Nat
  deriving DecidableEq, Repr

namespace ByteRange

/-- The number that a text of digits stands for, which has no leading zeros and fits 64 bits. -/
def position? (b : Bytes) : Option Nat :=
  if b.head? = some 0x30 && b.length != 1 then none
  else (Text.nat? b).filter (· < UInt64.size)

def ofBytes? (b : Bytes) : Option ByteRange :=
  match Text.splitOnByte 0x2d b with
  | [[], count] => ((position? count).filter (0 < ·)).map ending
  | [first, []] => (position? first).map (starting · none)
  | [first, last] => do
    let first ← position? first
    let last ← position? last
    pure (starting first (some last))
  | _ => none

/-- The range that a piece of a list spells, which may have one blank in front. -/
def ofPiece? : Bytes → Option ByteRange
  | [] => none
  | b :: rest => ofBytes? (if isBlank b then rest else b :: rest)

/-- The ranges that a header value lists. -/
def listOfHeader? (value : Bytes) : Option (List ByteRange) :=
  let unit := Bytes.ofText "bytes="
  if unit.isPrefixOf value then
    let ranges := value.drop unit.length
    if (ranges.head?.map isBlank).getD false then none
    else (Text.splitOnByte 0x2c ranges).mapM ofPiece?
  else none

/-- The part of a file of some size that a range names. -/
def span? (size : Nat) : ByteRange → Option ByteSpan
  | starting first last =>
    -- What lies behind the end is cut off, and an empty file has a part that starts at zero.
    let last := min (last.getD (size - 1)) (size - 1)
    if first ≤ last then some ⟨first, last⟩ else none
  | ending count => if count ≤ size then some ⟨size - count, size - 1⟩ else none

end ByteRange

/-- A part of a file that holds anything lies in it and is not empty. -/
theorem ByteRange.span?_bounds {r : ByteRange} {size : Nat} {s : ByteSpan} (hsize : 0 < size)
    (hr : ∀ n, r = .ending n → 0 < n) (h : r.span? size = some s) :
    s.first ≤ s.last ∧ s.last < size := by
  cases r with
  | starting first last =>
    simp only [span?, Option.ite_none_right_eq_some, Option.some.injEq] at h
    obtain ⟨hle, rfl⟩ := h
    exact ⟨hle, by simp only; omega⟩
  | ending count =>
    simp only [span?, Option.ite_none_right_eq_some, Option.some.injEq] at h
    obtain ⟨hle, rfl⟩ := h
    have := hr count rfl
    exact ⟨by simp only; omega, by simp only; omega⟩

def ByteSpan.overlaps (a b : ByteSpan) : Bool :=
  a.first ≤ b.last && b.first ≤ a.last

def ByteSpan.slice (s : ByteSpan) (content : Bytes) : Bytes :=
  (content.drop s.first).take (s.last + 1 - s.first)

/-- A part of a file has all the bytes from its first to its last one. -/
theorem ByteSpan.length_slice {s : ByteSpan} {content : Bytes} (h : s.last < content.length) :
    (s.slice content).length = s.last + 1 - s.first := by
  simp only [slice, List.length_take, List.length_drop]
  omega

/-- The parts of a file of some size that a header value asks for, none of which overlap. -/
def spansOfHeader? (size : Nat) (value : Bytes) : Option (List ByteSpan) := do
  let ranges ← ByteRange.listOfHeader? value
  let spans ← ranges.mapM (·.span? size)
  if spans.Pairwise (fun a b => a.overlaps b = false) then pure spans else none

end IndexVault.Http
