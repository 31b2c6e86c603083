import IndexVault.FilePath
import IndexVault.Text.Percent

namespace IndexVault

/-- The names that lead to a directory or a file from the root on. -/
abbrev Names := List Bytes

/-- A tree of directories and files, each under the names that lead to it from the root. A path that does
not start at the root starts in the working directory. -/
structure FileTree where
  workingDirectory : Names := []
  directories : List Names := []
  databases : List Names := []
  otherFiles : List Names := []
  deriving DecidableEq, Repr

/-- The length of a path, in which each name stands behind a slash. -/
def pathLength (names : Names) : Nat :=
  names.foldl (fun n name => n + 1 + name.length) 0

/-- The names to a place when one more is followed: a point stays, and two points go back. -/
def followName (names : Names) (name : Bytes) : Names :=
  if name.isEmpty || name = [0x2e] then names
  else if name = [0x2e, 0x2e] then names.dropLast
  else names ++ [name]

/-- A step adds one name at most. -/
theorem length_followName_le (names : Names) (name : Bytes) :
    (followName names name).length ≤ names.length + 1 := by
  unfold followName
  split
  · omega
  · split
    · rw [List.length_dropLast]
      omega
    · exact Nat.le_of_eq List.length_append

namespace FileTree

def isDirectory (t : FileTree) (names : Names) : Bool :=
  names.isEmpty || t.directories.contains names

def isFile (t : FileTree) (names : Names) : Bool :=
  t.databases.contains names || t.otherFiles.contains names

def start (t : FileTree) (path : Bytes) : Names :=
  if path.head? = some 0x2f then [] else t.workingDirectory

/-- The place that a path leads to from directory to directory. -/
def walked? (t : FileTree) (path : Bytes) : Option Names :=
  (Text.splitOnByte 0x2f path).foldlM
    (fun names name => if t.isDirectory names then some (followName names name) else none)
    (t.start path)

/-- Whether a path leads to a directory or a file; the empty path leads nowhere. -/
def leadsSomewhere (t : FileTree) (path : Bytes) : Bool :=
  !path.isEmpty && (t.walked? path).any fun names => t.isDirectory names || t.isFile names

/-- Follows one more name of a path as it is written, which stays within a length. -/
def stepWritten? (t : FileTree) (maxLength : Nat) (names : Names) (name : Bytes) : Option Names :=
  let next := followName names name
  if next.length ≤ names.length then some next
  -- Below a file nothing can be looked up, nor in a directory a name that is too long.
  else if maxLength < pathLength next || t.isFile names ||
      (t.isDirectory names && maxNameLength < name.length) then none
  else some next

/-- The place that a path as it is written leads to: two points take back a name whether or not it is there.
-/
def resolved? (t : FileTree) (maxLength : Nat) (path : Bytes) : Option Names :=
  (Text.splitOnByte 0x2f path).foldlM (t.stepWritten? maxLength) (t.start path)

end FileTree

end IndexVault
