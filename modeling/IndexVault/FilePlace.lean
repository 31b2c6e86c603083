import IndexVault.Bytes
import IndexVault.Failure

namespace IndexVault

/-- What is found at a path. -/
inductive FilePlace where
  | absent
  | present (content : Bytes)
  | directory
  | missingParent
  deriving DecidableEq, Repr

namespace FilePlace

def isThere : FilePlace → Bool
  | present _ | directory => true
  | absent | missingParent => false

/-- The content of a file that holds text. -/
def readText : FilePlace → Except FileFault Bytes
  | absent | missingParent => .error .notFound
  | directory => .error .isDirectory
  | present content => if (Bytes.toText? content).isSome then .ok content else .error .invalidText

/-- Writes a file, in place of what it held. -/
def write (b : Bytes) : FilePlace → Except FileFault FilePlace
  | absent | present _ => .ok (present b)
  | directory => .error .isDirectory
  | missingParent => .error .notFound

/-- Appends to a file, which is made when it is absent. -/
def append (b : Bytes) : FilePlace → Except FileFault FilePlace
  | absent => .ok (present b)
  | present content => .ok (present (content ++ b))
  | directory => .error .isDirectory
  | missingParent => .error .notFound

/-- Removes a file; an absent one is fine. -/
def remove : FilePlace → Except FileFault FilePlace
  | absent | present _ => .ok absent
  | directory => .error .isDirectory
  | missingParent => .ok missingParent

end FilePlace

end IndexVault
