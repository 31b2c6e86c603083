import IndexVault.Failure
import IndexVault.IndexRecord

namespace IndexVault

/-- The database of indexes: its rows by internal number, whether the table was made, and whether the
database is open. Rows are never removed: a deleted index keeps its row, and with it its public id and its
internal number. -/
structure Registry where
  rows : List Index := []
  isMigrated : Bool := true
  isOpen : Bool := true

namespace Registry

/-- Whether statements on the table run. -/
def ready (r : Registry) : Except Failure Unit :=
  if !r.isOpen then .error (.database .closed)
  else if !r.isMigrated then .error (.database (.tableMissing "indexes"))
  else .ok ()

/-- Makes the table if it is absent. -/
def migrate (r : Registry) : Except Failure Registry :=
  if r.isOpen then .ok { r with isMigrated := true } else .error (.database .closed)

def close (r : Registry) : Registry := { r with isOpen := false }

/-- Opens the database again; the rows are those it was closed with. -/
def reopen (r : Registry) : Registry := { r with isOpen := true }

/-- Whether the first index comes before the second in a listing: by stored time, latest first,
then by internal number, highest first. -/
def listsBefore (i j : Index) : Bool :=
  match compare i.createdAt.stored j.createdAt.stored with
  | .gt => true
  | .eq => j.id ≤ i.id
  | .lt => false

/-- The live indexes of a project, newest first. -/
def list (r : Registry) (project : String) : Except Failure (List Index) := do
  r.ready
  pure ((r.rows.filter fun i => i.projectUuid == project && i.isLive).mergeSort listsBefore)

def findLive (r : Registry) (publicId : String) : Option Index :=
  r.rows.find? fun i => i.publicId == publicId && i.isLive

/-- Reads the live index with a public id. -/
def get? (r : Registry) (publicId : String) : Except Failure (Option Index) := do
  r.ready
  pure (r.findLive publicId)

/-- Whether some row, live or deleted, has a public id. -/
def isTaken (r : Registry) (publicId : String) : Bool :=
  r.rows.any fun i => i.publicId == publicId

def nextId (r : Registry) : IndexId := r.rows.length + 1

/-- Creates an index under the first public id that no row has: the one asked for, or a spare
one. -/
def create (r : Registry) (new : NewIndex) (spareIds : List String) :
    Except Failure (Registry × Index) := do
  r.ready
  -- A deleted index keeps its public id, which no other index gets.
  match (new.publicId :: spareIds).find? fun id => !r.isTaken id with
  | none => .error (.database (.duplicateKey "indexes.public_id"))
  | some publicId =>
    let index := new.placed r.nextId publicId
    pure ({ r with rows := r.rows ++ [index] }, index)

/-- Whether a deletion by an owner applies to a row. -/
def isDeletable (publicId authzId : String) (i : Index) : Bool :=
  i.publicId == publicId && i.authzId == authzId && i.isLive

/-- Marks the live index with a public id and an owner as deleted; answers whether there was
one. -/
def delete (r : Registry) (publicId authzId : String) (now : Moment) :
    Except Failure (Registry × Bool) := do
  r.ready
  let rows := r.rows.map fun i =>
    if isDeletable publicId authzId i then { i with deletedAt := some now } else i
  pure ({ r with rows := rows }, r.rows.any (isDeletable publicId authzId))

end Registry

end IndexVault
