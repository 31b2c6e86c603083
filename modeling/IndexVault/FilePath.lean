namespace IndexVault

/-- A file name below a directory: an absolute name stands for itself, and one slash divides a
directory from a name. -/
def joinPath (directory file : String) : String :=
  if file.toList.head? = some '/' then file
  else if directory.isEmpty || directory.toList.getLast? = some '/' then directory ++ file
  else directory ++ "/" ++ file

/-- The longest name in a path. -/
def maxNameLength : Nat := 255

end IndexVault
