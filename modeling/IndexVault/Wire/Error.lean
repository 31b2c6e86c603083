namespace IndexVault

/-- The first thing found wrong with a payload. -/
inductive PayloadError where
  /-- A field needs more bytes than are left. -/
  | unexpectedEnd (needed remaining : Nat)
  /-- An integer does not end within 64 bits. -/
  | integerOverflow
  /-- A length cannot be addressed. -/
  | lengthTooLarge (length : Nat)
  /-- Bytes follow a complete payload. -/
  | trailingBytes (count : Nat)
  /-- An identifier has the wrong number of bytes. -/
  | uidLength (expected actual : Nat)
  deriving DecidableEq, Repr

namespace PayloadError

def message : PayloadError → String
  | unexpectedEnd needed remaining =>
    s!"unexpected end of payload: needed {needed} bytes, {remaining} remaining"
  | integerOverflow => "LEB128 integer does not fit in 64 bits"
  | lengthTooLarge length => s!"length {length} does not fit in memory"
  | trailingBytes count => s!"{count} trailing bytes after payload"
  | uidLength expected actual => s!"UID must be {expected} bytes, got {actual}"

end PayloadError

end IndexVault
