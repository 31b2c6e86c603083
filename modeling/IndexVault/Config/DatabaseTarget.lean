import IndexVault.Config.DatabaseName
import IndexVault.FileTree

namespace IndexVault

/-- Where a database is kept. The tables that are made on a connection of its own are not found by
the next connection. -/
inductive DatabasePlace where
  | ownMemory
  | sharedMemory
  | file (path : Bytes)
  deriving DecidableEq, Repr

inductive DatabaseAccess where
  | unstated
  | read
  | write
  | create
  deriving DecidableEq, Repr

def DatabaseAccess.rank : DatabaseAccess → Nat
  | unstated => 0
  | read => 1
  | write => 2
  | create => 3

structure DatabaseOpening where
  access : DatabaseAccess
  inMemory : Bool
  shared : Bool
  fileSystem : Option Bytes := none
  deriving DecidableEq, Repr

namespace DatabaseOpening

def ofAddress (a : DatabaseAddress) : DatabaseOpening :=
  { access := if a.readOnly then .read else .create, inMemory := a.inMemory, shared := a.shared }

/-- Takes another access, which is not more than the one before, unless memory is opened. -/
def withAccess (o : DatabaseOpening) (access : DatabaseAccess) : Option DatabaseOpening :=
  if o.inMemory || access.rank ≤ o.access.rank then
    some { o with access := access, inMemory := false }
  else none

def withMode (o : DatabaseOpening) (value : Bytes) : Option DatabaseOpening :=
  if value = Bytes.ofText "ro" then o.withAccess .read
  else if value = Bytes.ofText "rw" then o.withAccess .write
  else if value = Bytes.ofText "rwc" then o.withAccess .create
  else if value = Bytes.ofText "memory" then some { o with access := .unstated, inMemory := true }
  else none

def withCache (o : DatabaseOpening) (value : Bytes) : Option DatabaseOpening :=
  if value = Bytes.ofText "shared" then some { o with shared := true }
  else if value = Bytes.ofText "private" then some { o with shared := false }
  else none

/-- Takes in an option of a name; one that does not bear on the opening is passed over. -/
def withOption (o : DatabaseOpening) (option : Bytes × Bytes) : Option DatabaseOpening :=
  if option.1 = Bytes.ofText "vfs" then some { o with fileSystem := some option.2 }
  else if option.1 = Bytes.ofText "mode" then o.withMode option.2
  else if option.1 = Bytes.ofText "cache" then o.withCache option.2
  else some o

/-- The file systems that keep databases in files, and changes in a log next to them. -/
def loggingFileSystems : List Bytes := ["unix", "unix-excl"].map Bytes.ofText

/-- The file systems that keep databases in files, and in a journal what a change replaces. -/
def journalFileSystems : List Bytes := ["unix-none", "unix-dotfile"].map Bytes.ofText

def memoryFileSystem : Bytes := Bytes.ofText "memdb"

/-- The longest name of a database on the file system in memory. -/
def maxMemoryName : Nat := 1016

def knowsFileSystem (o : DatabaseOpening) : Bool :=
  match o.fileSystem with
  | none => true
  | some name =>
    (memoryFileSystem :: loggingFileSystems ++ journalFileSystems).contains name

/-- How the name of the file ends that is made next to a database when it is opened: that of a
journal, without which no log is started, or that of a lock. -/
def companion (o : DatabaseOpening) : String :=
  match o.fileSystem with
  | none => "-journal"
  | some name =>
    if loggingFileSystems.contains name then "-journal"
    else if name = Bytes.ofText "unix-dotfile" then ".lock"
    else ""

/-- Whether connections find each other's database on the file system in memory: its name starts
with a slash and goes on. -/
def isCommonName (path : Bytes) : Bool :=
  match path with
  | b :: _ :: _ => b == 0x2f || b == 0x5c
  | _ => false

/-- Whether memory is kept by the engine itself, which does not ask whether it is immutable. -/
def isEngineMemory (o : DatabaseOpening) (name : DatabaseName) : Bool :=
  o.inMemory || name.path == Bytes.ofText ":memory:"

/-- Where a database is kept. -/
def place? (o : DatabaseOpening) (name : DatabaseName) : Option DatabasePlace :=
  -- Without a name it is a temporary file, which is not shared.
  if name.path.isEmpty then some .ownMemory
  else if o.isEngineMemory name then
    some (if o.shared && name.isUri then .sharedMemory else .ownMemory)
  else if o.fileSystem != some memoryFileSystem then some (.file name.path)
  else if maxMemoryName < name.path.length then none
  else some (if o.shared || isCommonName name.path then .sharedMemory else .ownMemory)

end DatabaseOpening

/-- What an address opens; how the name of a file ends that opening makes next to it, and the path
of another that it takes its permissions from, if there are such files. -/
structure DatabaseTarget where
  place : DatabasePlace
  access : DatabaseAccess
  immutable : Bool
  companion : String
  permissionsOf : Option Bytes
  deriving DecidableEq, Repr

/-- What is left by a connection to a database: directories and files, and whether the tables were
made. -/
structure ConnectedDatabase where
  tree : FileTree
  hasTables : Bool
  deriving DecidableEq, Repr

namespace DatabaseTarget

def ofAddress? (a : DatabaseAddress) : Option DatabaseTarget := do
  let name ← DatabaseName.ofAddress? a
  let o ← name.options.foldlM DatabaseOpening.withOption (.ofAddress a)
  let place ← o.place? name
  let immutable := name.asksFor "immutable"
  if o.knowsFileSystem then
    some
      { place := place
        access := o.access
        immutable := immutable && !o.isEngineMemory name
        companion := if immutable || name.asksFor "nolock" then "" else o.companion
        permissionsOf := name.option? "modeof" }
  else none

def ofText? (s : String) : Option DatabaseTarget :=
  (DatabaseAddress.ofText? s).bind ofAddress?

/-- The longest path of a file together with the name of its journal. -/
def maxPathLength : Nat := 512

/-- Whether a file may have a name with such an ending behind its own. -/
def hasRoom (names : Names) (companion : String) : Bool :=
  (names.getLast?.getD []).length + companion.utf8ByteSize ≤ maxNameLength

/-- The names that lead to the file at a path, if a file with such an ending has room next to it. -/
def fileNames? (tree : FileTree) (path : Bytes) (companion : String) : Option Names :=
  (tree.resolved? (maxPathLength - 1) path).filter fun names =>
    pathLength names + "-journal".utf8ByteSize ≤ maxPathLength && hasRoom names companion

/-- Opens a database, and makes its file when it is absent and may be made; answers what lies there
then. -/
def opened? (t : DatabaseTarget) (tree : FileTree) : Option FileTree :=
  match t.place with
  | .ownMemory | .sharedMemory => some tree
  | .file path => do
    let names ← fileNames? tree path t.companion
    -- The file that permissions are taken from has to be there, also when the database is.
    if !(t.permissionsOf.map tree.leadsSomewhere).getD true then none
    else if tree.databases.contains names then some tree
    else if tree.isFile names || tree.isDirectory names then none
    else if t.access = .create && tree.isDirectory names.dropLast then
      some { tree with databases := names :: tree.databases }
    else none

/-- Whether tables can be made in the open database for all connections to see, for which a file
needs a journal. -/
def isMigratable (t : DatabaseTarget) (tree : FileTree) : Bool :=
  t.access != .read && !t.immutable &&
    match t.place with
    | .ownMemory => false
    | .sharedMemory => true
    | .file path => (fileNames? tree path "-journal").isSome

/-- Connects to a database and makes its tables, which opens it once more. -/
def connect? (t : DatabaseTarget) (tree : FileTree) : Option ConnectedDatabase :=
  (t.opened? tree).map fun left =>
    { tree := left, hasTables := t.isMigratable left && (t.opened? left).isSome }

/-- A database in memory leaves all directories and files as they are. -/
theorem connect?_tree_of_memory {t : DatabaseTarget} (h : ∀ path, t.place ≠ .file path)
    (tree : FileTree) : (t.connect? tree).map ConnectedDatabase.tree = some tree := by
  cases hp : t.place with
  | file path => exact absurd hp (h path)
  | ownMemory => simp [connect?, opened?, hp]
  | sharedMemory => simp [connect?, opened?, hp]

end DatabaseTarget

end IndexVault
