import IndexVault.Hash.Sha256

namespace IndexVault.Hash

/-- A key as one block of 64 bytes; a longer key is hashed first. -/
def keyBlock (key : Bytes) : Bytes :=
  let short := if 64 < key.length then sha256 key else key
  short ++ List.replicate (64 - short.length) 0

/-- The authentication code of a message under a key (HMAC with SHA-256): 32 bytes. -/
def hmac (key message : Bytes) : Bytes :=
  let block := keyBlock key
  let inner := sha256 (block.map (· ^^^ 0x36) ++ message)
  sha256 (block.map (· ^^^ 0x5c) ++ inner)

theorem length_hmac (key message : Bytes) : (hmac key message).length = 32 :=
  length_sha256 _

end IndexVault.Hash
