import IndexVault.Service.State
import IndexVault.Wire.Payload

namespace IndexVault.Http.Callback

/-- The seed that signs a callback of an index. -/
def seed (c : Callback) (i : Index) : Bytes :=
  match c with
  | fetchEntries => i.seeds.fetchEntries
  | fetchChains => i.seeds.fetchChains
  | upsertEntries => i.seeds.upsertEntries
  | insertChains => i.seeds.insertChains

/-- The index of a callback and the data of its body. The signature is the credential, so the index is found
by its public id alone. -/
def verified (w : Surroundings) (c : Callback) (publicId : String) (body : Bytes) :
    Action (Index × Bytes) := do
  let index ← Action.cachedIndex publicId
  match SignedBody.check body index.publicId (c.seed index) w.seconds with
  | .ok data => pure (index, data)
  | .error e => Action.fail (.ofSignature e)

/-- The index of a callback and the lines that its body carries. -/
def opened {α : Type} (w : Surroundings) (c : Callback) (read : Bytes → Except PayloadError α)
    (publicId : String) (body : Bytes) : Action (Index × α) := do
  let (index, data) ← verified w c publicId body
  match read data with
  | .ok lines => pure (index, lines)
  | .error e => Action.fail (.payload e)

/-- Records a fetch where requests are logged. -/
def recorded (w : Surroundings) (kind : TableKind) (uids : UidSet) (found : EncryptedTable)
    (s : Service) : Service :=
  match s.log with
  | none => s
  | some log =>
    -- A fetch is answered whatever its record comes to.
    { s with log := some (log.recordTask w.brokenRecord w.millis kind uids found).1 }

/-- Answers the lines present among the identifiers asked for. -/
def fetch (w : Surroundings) (kind : TableKind) (publicId : String) (body : Bytes) :
    Action Response := do
  let (index, uids) ← opened w (fetching kind) Wire.readUidSet publicId body
  let s ← Attempt.state
  let found ← Action.ofResult (s.storage.fetch index.id kind uids)
  Attempt.modify (recorded w kind uids found)
  pure (.octets (Wire.writeTable found w.order))

/-- Compares and swaps entries; answers the rejected lines with their stored values. -/
def upsert (w : Surroundings) (publicId : String) (body : Bytes) : Action Response := do
  let (index, batch) ← opened w .upsertEntries Wire.readUpsertData publicId body
  let s ← Attempt.state
  let (storage, rejected) ← Action.ofResult (s.storage.upsertEntries index.id batch)
  Attempt.modify fun s => { s with storage := storage }
  pure (.octets (Wire.writeTable rejected w.order))

def insert (w : Surroundings) (publicId : String) (body : Bytes) : Action Response := do
  let (index, chains) ← opened w .insertChains Wire.readTable publicId body
  let s ← Attempt.state
  let storage ← Action.ofResult (s.storage.insertChains index.id chains)
  Attempt.modify fun s => { s with storage := storage }
  pure (.ok .null)

def perform (w : Surroundings) (c : Callback) (publicId : String) (body : Bytes) :
    Action Response :=
  match c with
  | fetchEntries => fetch w .entries publicId body
  | fetchChains => fetch w .chains publicId body
  | upsertEntries => upsert w publicId body
  | insertChains => insert w publicId body

def answer (w : Surroundings) (r : Request) (c : Callback) (id : Bytes) : Action Response := do
  let publicId ← Action.parameter id
  let body ← Action.bodyWithin r
  c.perform w publicId body

end IndexVault.Http.Callback
