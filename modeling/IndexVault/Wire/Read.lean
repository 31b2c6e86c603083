import IndexVault.Attempt
import IndexVault.Uid
import IndexVault.Wire.Leb128

namespace IndexVault.Wire

/-- A read from the front of a payload: the state is the bytes left, also when it fails. A field of fixed
size that does not fit consumes nothing, and a length that was read stays consumed when its body does not
fit. -/
abbrev Read := Attempt Bytes PayloadError

/-- Reads a field of fixed size. -/
def readRaw (size : Nat) : Read Bytes := ⟨fun input =>
  let found := input.take size
  if found.length < size then (.error (.unexpectedEnd size input.length), input)
  else (.ok found, input.drop size)⟩

def readNumber : Read Nat := ⟨readLeb128⟩

/-- Reads a byte string after its length. -/
def readBlob : Read Bytes := do
  let size ← readNumber
  readRaw size

def readUid : Read Uid := ⟨fun input =>
  let found := input.take 32
  if h : found.length = 32 then (.ok ⟨found, h⟩, input.drop 32)
  else (.error (.unexpectedEnd 32 input.length), input)⟩

/-- Refuses what is left after a complete payload. -/
def finish (input : Bytes) : Except PayloadError Unit :=
  if input.isEmpty then .ok () else .error (.trailingBytes input.length)

/-- A byte string after its length. -/
def blob (b : Bytes) : Bytes := leb128 b.length ++ b

/-- A field of fixed size is read as it stands, and what follows is left. -/
theorem run_readRaw_append (b rest : Bytes) :
    (readRaw b.length).run (b ++ rest) = (.ok b, rest) := by
  simp [readRaw]

theorem run_readUid_append (u : Uid) (rest : Bytes) :
    readUid.run (u.bytes ++ rest) = (.ok u, rest) := by
  have htake : (u.bytes ++ rest).take 32 = u.bytes := List.take_left' u.length_eq
  have hdrop : (u.bytes ++ rest).drop 32 = rest := List.drop_left' u.length_eq
  simp only [readUid]
  rw [dif_pos (by rw [htake, u.length_eq]), hdrop]
  exact Prod.ext (congrArg Except.ok (Uid.ext_bytes htake)) rfl

/-- A byte string of less than `2 ^ 64` bytes reads back from its written form. -/
theorem run_readBlob_append {b : Bytes} (h : b.length < UInt64.size) (rest : Bytes) :
    readBlob.run (blob b ++ rest) = (.ok b, rest) := by
  have hn : readNumber.run (leb128 b.length ++ (b ++ rest)) = (.ok b.length, b ++ rest) :=
    readLeb128_leb128 h _
  rw [blob, List.append_assoc, readBlob, Attempt.run_bind_of_ok hn, run_readRaw_append]

inductive Field where
  | number (n : Nat)
  | raw (b : Bytes)
  | blob (b : Bytes)
  deriving DecidableEq, Repr

/-- The kind of a field: what a reader has to know of it in advance. -/
inductive FieldShape where
  | number
  | raw (size : Nat)
  | blob
  deriving DecidableEq, Repr

def Field.write : Field → Bytes
  | number n => leb128 n
  | raw b => b
  | blob b => Wire.blob b

def Field.shape : Field → FieldShape
  | number _ => .number
  | raw b => .raw b.length
  | blob _ => .blob

def FieldShape.read : FieldShape → Read Field
  | number => do
    let n ← readNumber
    pure (.number n)
  | raw size => do
    let b ← readRaw size
    pure (.raw b)
  | blob => do
    let b ← readBlob
    pure (.blob b)

def writeFields (fields : List Field) : Bytes :=
  fields.flatMap Field.write

end IndexVault.Wire
