import IndexVault.Hash.Hmac

namespace IndexVault

/-- Why a body is refused. -/
inductive SignatureError where
  | missingSignature (length : Nat)
  | missingTimestamp (length : Nat)
  | seedLength (length : Nat)
  | mismatch
  | expired (now expiration : Nat)
  deriving DecidableEq, Repr

namespace SignatureError

def message : SignatureError → String
  | missingSignature length =>
    s!"Body of request is too small ({length} bytes), not enough bytes to read signature."
  | missingTimestamp length =>
    s!"Body of request is too small ({length} bytes), not enough bytes to read expiration timestamp."
  | seedLength length => s!"signature seed must be 16 bytes, got {length}"
  | mismatch => "invalid callback signature"
  | expired now expiration =>
    s!"Request expired (current time is {now}, expiration time is {expiration})"

end SignatureError

namespace SignedBody

def seedLength : Nat := 16

def signatureLength : Nat := 32

def timestampLength : Nat := 8

/-- The key of an index under a seed of 16 bytes, derived from its public id. -/
def deriveKey (seed : Bytes) (publicId : String) : Except SignatureError Bytes :=
  if seed.length = seedLength then .ok (Hash.hmac seed (Bytes.ofText publicId))
  else .error (.seedLength seed.length)

/-- The signature of a timestamp and data. -/
def signature (key timestamp data : Bytes) : Bytes :=
  Hash.hmac key (timestamp ++ data)

/-- The signed body of some data: a signature of 32 bytes, the second of expiration in 8 bytes, then the
data. -/
def sign (seed : Bytes) (publicId : String) (expiration : Nat) (data : Bytes) :
    Except SignatureError Bytes := do
  let key ← deriveKey seed publicId
  let timestamp := Bytes.ofBigEndian timestampLength expiration
  pure (signature key timestamp data ++ timestamp ++ data)

/-- The data of a signed body. The signature is checked before the expiration, and the second of
expiration itself still passes. -/
def check (body : Bytes) (publicId : String) (seed : Bytes) (now : Nat) :
    Except SignatureError Bytes :=
  if body.length < signatureLength then .error (.missingSignature body.length)
  else if body.length < signatureLength + timestampLength then
    .error (.missingTimestamp body.length)
  else
    let found := body.take signatureLength
    let timestamp := (body.drop signatureLength).take timestampLength
    let data := body.drop (signatureLength + timestampLength)
    match deriveKey seed publicId with
    | .error e => .error e
    | .ok key =>
      if found ≠ signature key timestamp data then .error .mismatch
      else if now > Bytes.bigEndian timestamp then .error (.expired now (Bytes.bigEndian timestamp))
      else .ok data

end SignedBody

end IndexVault
