import IndexVault.Config.DatabaseAddress
import IndexVault.Text.Decimal

namespace IndexVault

/-- The name of a database: the path of a file, or a URI of the scheme `file`, which adds options to a path.
-/
structure DatabaseName where
  path : Bytes
  isUri : Bool := false
  options : List (Bytes × Bytes) := []
  deriving DecidableEq, Repr

namespace DatabaseName

/-- The bytes of a part of a URI up to the first NUL. -/
def untilNul (b : Bytes) : Bytes := b.takeWhile (· != 0)

def decodePart (b : Bytes) : Bytes := untilNul (Text.percentDecode b)

/-- The rest of a URI behind its host, which is this machine if it is named at all. -/
def afterHost? : Bytes → Option Bytes
  | 0x2f :: 0x2f :: rest =>
    let host := rest.takeWhile (· != 0x2f)
    if host.isEmpty || host = Bytes.ofText "localhost" then some (rest.drop host.length) else none
  | b => some b

/-- The options of a URI; one without a name is left out. -/
def optionsOf (query : Bytes) : List (Bytes × Bytes) :=
  let option (piece : Bytes) : Bytes × Bytes :=
    (decodePart (piece.takeWhile (· != 0x3d)), decodePart ((piece.dropWhile (· != 0x3d)).drop 1))
  ((Text.splitOnByte 0x26 query).map option).filter fun o => !o.1.isEmpty

def uriMark : Bytes := Bytes.ofText "file:"

def ofBytes? (b : Bytes) : Option DatabaseName :=
  if uriMark.isPrefixOf b then
    -- A fragment is passed over, wherever it stands.
    (afterHost? (b.drop uriMark.length)).map fun rest =>
      let rest := rest.takeWhile (· != 0x23)
      { path := decodePart (rest.takeWhile (· != 0x3f))
        isUri := true
        options := optionsOf ((rest.dropWhile (· != 0x3f)).drop 1) }
  else some { path := b }

/-- The query that asks for an immutable database and for a file system, whose name stands in it as
it is. -/
def queryOfAddress (a : DatabaseAddress) : Bytes :=
  let immutable := if a.immutable then [Bytes.ofText "immutable=true"] else []
  let fileSystem := a.fileSystem.toList.map fun name => Bytes.ofText "vfs=" ++ Bytes.ofText name
  [0x26].intercalate (immutable ++ fileSystem)

/-- The name of the database at an address. Where options are needed it is a URI with the name of
the address for its path. -/
def ofAddress? (a : DatabaseAddress) : Option DatabaseName :=
  let b := Bytes.ofText a.name
  if !a.immutable && a.fileSystem.isNone then
    if b.contains 0 then none else ofBytes? b
  else
    let query := queryOfAddress a
    -- A NUL ends the path, but there is no place for one in the options.
    if query.contains 0 then none
    else some
      { path := untilNul b
        isUri := true
        options := optionsOf (query.takeWhile (· != 0x23)) }

/-- A name that is no URI and holds no NUL is a path as it stands. -/
theorem ofAddress?_eq_path {a : DatabaseAddress} (himmutable : a.immutable = false)
    (hsystem : a.fileSystem = none) (hnul : 0 ∉ Bytes.ofText a.name)
    (huri : uriMark.isPrefixOf (Bytes.ofText a.name) = false) :
    ofAddress? a = some { path := Bytes.ofText a.name } := by
  simp [ofAddress?, himmutable, hsystem, hnul, ofBytes?, huri]

/-- The value of the first option of a name. -/
def option? (n : DatabaseName) (name : String) : Option Bytes :=
  n.options.lookup (Bytes.ofText name)

/-- The number at the front of a value: hexadecimal digits behind `0x`, or decimal ones. -/
def leadingNumber (value : Bytes) : Nat :=
  let hexadecimal : Bytes :=
    match value with
    | 0x30 :: x :: rest => if x == 0x78 || x == 0x58 then rest else []
    | _ => []
  match (hexadecimal.map Text.hexValue?).takeWhile Option.isSome with
  | [] => Text.readNat (value.takeWhile Text.isDigit)
  | found => found.foldl (fun n digit => n * 16 + digit.getD 0) 0

/-- Whether the value of an option means yes: a number or a word. -/
def isYes (value : Bytes) : Bool :=
  if (value.head?.map Text.isDigit).getD false then
    let n := leadingNumber value
    -- A number out of range means no; of one in range the last byte counts.
    n < 0x80000000 && n % 256 != 0
  else
    let word := value.map fun b => if 0x41 ≤ b && b ≤ 0x5a then b + 0x20 else b
    ["on", "yes", "true"].any fun w => Bytes.ofText w == word

/-- Whether a name has an option, and the first value of it means yes. -/
def asksFor (n : DatabaseName) (name : String) : Bool :=
  ((n.option? name).map isYes).getD false

end DatabaseName

end IndexVault
