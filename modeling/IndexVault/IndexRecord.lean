import IndexVault.Calendar.Moment
import IndexVault.Json.Value
import IndexVault.SignedBody
import IndexVault.Storage.KeyValue

namespace IndexVault

structure Seeds where
  fetchEntries : Bytes
  fetchChains : Bytes
  upsertEntries : Bytes
  insertChains : Bytes
  deriving DecidableEq, Repr

/-- A row of the index table: who owns an index, and the seeds that sign its callbacks. -/
structure Index where
  id : IndexId
  publicId : String
  authzId : String
  projectUuid : String
  name : String
  seeds : Seeds
  createdAt : Moment
  deletedAt : Option Moment := none
  deriving DecidableEq, Repr

structure NewIndex where
  publicId : String
  authzId : String
  projectUuid : String
  name : String
  seeds : Seeds
  createdAt : Moment
  deriving DecidableEq, Repr

/-- The row of a new index under an internal number and a public id. -/
def NewIndex.placed (n : NewIndex) (id : IndexId) (publicId : String) : Index where
  id := id
  publicId := publicId
  authzId := n.authzId
  projectUuid := n.projectUuid
  name := n.name
  seeds := n.seeds
  createdAt := n.createdAt

/-- Bytes as an array of numbers. -/
def bytesJson (b : Bytes) : Json.Value :=
  .array (b.map fun x => .nat x.toNat)

/-- What the owner sees of an index; the internal number stays hidden. -/
def Index.toJson (i : Index) (size : Option Int) : Json.Value :=
  .object
    [("public_id", .text i.publicId), ("authz_id", .text i.authzId),
     ("project_uuid", .text i.projectUuid), ("name", .text i.name),
     ("fetch_entries_key", bytesJson i.seeds.fetchEntries),
     ("fetch_chains_key", bytesJson i.seeds.fetchChains),
     ("upsert_entries_key", bytesJson i.seeds.upsertEntries),
     ("insert_chains_key", bytesJson i.seeds.insertChains),
     ("size", .ofOption .int size), ("created_at", .text i.createdAt.isoText)]

def Index.isLive (i : Index) : Bool := i.deletedAt.isNone

/-- The random parts of a new index: four seeds, and a public id for each attempt to place it. -/
structure Draw where
  seed : Fin 4 → Fin 16 → UInt8
  letter : Fin 3 → Fin 5 → Fin 62

def publicIdLetter (n : Fin 62) : Char :=
  if n.val < 26 then Char.ofNat (0x41 + n.val)
  else if n.val < 52 then Char.ofNat (0x61 + (n.val - 26))
  else Char.ofNat (0x30 + (n.val - 52))

namespace Draw

/-- The public id of an attempt: five letters or digits. -/
def publicId (d : Draw) (attempt : Fin 3) : String :=
  String.ofList (List.ofFn fun i => publicIdLetter (d.letter attempt i))

/-- The public ids to fall back on when the first one is taken. -/
def spareIds (d : Draw) : List String := [d.publicId 1, d.publicId 2]

/-- The four seeds, each of 16 bytes. -/
def seeds (d : Draw) : Seeds where
  fetchEntries := List.ofFn (d.seed 0)
  fetchChains := List.ofFn (d.seed 1)
  upsertEntries := List.ofFn (d.seed 2)
  insertChains := List.ofFn (d.seed 3)

/-- Every seed that is drawn is whole. -/
theorem length_seeds (d : Draw) :
    d.seeds.fetchEntries.length = 16 ∧ d.seeds.fetchChains.length = 16 ∧
      d.seeds.upsertEntries.length = 16 ∧ d.seeds.insertChains.length = 16 := by
  simp [seeds]

/-- Every public id that is drawn has five characters, and all are letters or digits
(`isAlphanum_publicId`). -/
theorem length_publicId (d : Draw) (attempt : Fin 3) :
    (d.publicId attempt).toList.length = 5 := by
  simp [publicId]

end Draw

theorem isAlphanum_publicIdLetter (n : Fin 62) : (publicIdLetter n).isAlphanum = true := by
  revert n
  decide

theorem Draw.isAlphanum_publicId (d : Draw) (attempt : Fin 3) {c : Char}
    (hc : c ∈ (d.publicId attempt).toList) : c.isAlphanum = true := by
  rw [publicId, String.toList_ofList, List.mem_ofFn] at hc
  obtain ⟨i, rfl⟩ := hc
  exact isAlphanum_publicIdLetter _

/-- A fresh index with random seeds and public id. -/
def NewIndex.generate (authzId projectUuid name : String) (draw : Draw) (createdAt : Moment) :
    NewIndex :=
  ⟨draw.publicId 0, authzId, projectUuid, name, draw.seeds, createdAt⟩

end IndexVault
