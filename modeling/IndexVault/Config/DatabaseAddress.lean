import IndexVault.Text.Percent

namespace IndexVault

/-- A database address as it is understood: the name of the database, whether it is kept in memory,
whether its connections share what they read, what may be done to it, and the file system that it is
opened with, if one is asked for. -/
structure DatabaseAddress where
  name : String
  inMemory : Bool := false
  shared : Bool := false
  readOnly : Bool := false
  immutable : Bool := false
  fileSystem : Option String := none
  deriving DecidableEq, Repr

namespace DatabaseAddress

/-- A text without any number of occurrences of `word` at its front; `fuel` bounds their number. -/
def dropAll (word : Bytes) : Nat → Bytes → Bytes
  | 0, b => b
  | fuel + 1, b => if word.isPrefixOf b then dropAll word fuel (b.drop word.length) else b

def dropScheme (b : Bytes) : Bytes :=
  let b := dropAll (Bytes.ofText "sqlite://") b.length b
  dropAll (Bytes.ofText "sqlite:") b.length b

/-- The address of a database in memory under a name that no other has. -/
def memory : DatabaseAddress :=
  { name := "file:memory", inMemory := true, shared := true }

/-- The address that the part before the parameters spells. -/
def ofName? (spelled : Bytes) : Option DatabaseAddress :=
  if spelled = Bytes.ofText ":memory:" then some memory
  else (Bytes.toText? (Text.percentDecode spelled)).map fun name => { name := name }

/-- Takes in one parameter; an unknown name or value refuses the address. -/
def withParameter (a : DatabaseAddress) : String × String → Option DatabaseAddress
  | ("mode", "ro") => some { a with readOnly := true }
  | ("mode", "rw") | ("mode", "rwc") => some a
  | ("mode", "memory") => some { a with inMemory := true, shared := true }
  | ("cache", "private") => some { a with shared := false }
  | ("cache", "shared") => some { a with shared := true }
  | ("immutable", "true") | ("immutable", "1") => some { a with immutable := true }
  | ("immutable", "false") | ("immutable", "0") => some { a with immutable := false }
  | ("vfs", name) => some { a with fileSystem := some name }
  | _ => none

/-- Whether a byte is not the question mark that ends a name. -/
def isNameByte (b : UInt8) : Bool := b != 0x3f

/-- Reads an address: an optional scheme, a percent-encoded name up to the first question mark, and
parameters after it. -/
def ofText? (s : String) : Option DatabaseAddress := do
  let b := dropScheme (Bytes.ofText s)
  let a ← ofName? (b.takeWhile isNameByte)
  (Text.formFields ((b.dropWhile isNameByte).drop 1)).foldlM withParameter a

end DatabaseAddress

end IndexVault
