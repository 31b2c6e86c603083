import IndexVault.Http.MediaType
import IndexVault.IndexRequest
import IndexVault.Service.State

namespace IndexVault.Management

/-- The caller of a request: the sole owner, or whoever the bearer token names. -/
def caller (w : Surroundings) (r : Http.Request) : Action Caller := do
  let s ← Attempt.state
  match s.tenancy with
  | none => pure Tenancy.soleOwner
  | some tenancy =>
    let token ← Action.ofResult (Bearer.token (r.header "authorization"))
    let (identity, answer) := tenancy.identity.validate w.userInfo token w.uptime
    -- The cache of tokens is kept whatever the answer.
    Attempt.modify fun s => { s with tenancy := some { tenancy with identity := identity } }
    Action.ofResult answer

/-- The project that a request works on. -/
def project (w : Surroundings) (caller : Caller) (requested : Option String) : Action String := do
  let s ← Attempt.state
  Action.ofResult (Tenancy.resolveProject s.tenancy w.projects caller requested)

/-- The project that a query asks for; it may be given once. -/
def queriedProject (r : Http.Request) : Action (Option String) :=
  match (Text.formFields r.query).filter fun f => f.1 == "project_uuid" with
  | [] => pure none
  | [field] => pure (some field.2)
  | _ => Action.reject 400 "Failed to deserialize query string: duplicate field `project_uuid`"

/-- The indexes of a project with their sizes, newest first. -/
def list (w : Surroundings) (r : Http.Request) : Action Http.Response := do
  let caller ← caller w r
  let requested ← queriedProject r
  let project ← project w caller requested
  let s ← Attempt.state
  let indexes ← Action.ofResult (s.registry.list project)
  let sizes ← Action.ofResult (s.storage.sizes (indexes.map (·.id)))
  pure (.ok (.array ((indexes.zip sizes).map fun (i, size) => i.toJson (some size))))

/-- What a body asks to create. -/
def createRequest (r : Http.Request) : Action CreateRequest := do
  if ((r.header "content-type").head?.map Http.MediaType.announcesJson).getD false then
    let body ← Action.bodyWithin r
    -- Reading stops behind the value, so any text may follow it.
    match Json.readFront CreateRequest.read body with
    | .ok request => pure request
    | .error .malformed => Action.reject 400 "Failed to parse the request body as JSON"
    | .error .mismatch =>
      Action.reject 422 "Failed to deserialize the JSON body into the target type"
  else Action.reject 415 "Expected request with `Content-Type: application/json`"

def create (w : Surroundings) (r : Http.Request) : Action Http.Response := do
  let caller ← caller w r
  let request ← createRequest r
  let name := Text.trim request.name
  if name.isEmpty then Action.fail (.badRequest "index name cannot be empty")
  else
    let project ← project w caller request.projectUuid
    let s ← Attempt.state
    let new := NewIndex.generate caller.authzId project name w.draw w.moment
    let (registry, index) ← Action.ofResult (s.registry.create new w.draw.spareIds)
    Attempt.modify fun s => { s with registry := registry }
    pure (.ok (index.toJson none))

/-- Shows an index to its owner, with its size. -/
def show? (w : Surroundings) (r : Http.Request) (id : Bytes) : Action Http.Response := do
  let caller ← caller w r
  let publicId ← Action.parameter id
  let s ← Attempt.state
  let row ← Action.ofResult (s.registry.get? publicId)
  -- An index of someone else is answered like one that is not there.
  match row.filter fun i => i.authzId == caller.authzId with
  | none => Action.fail (.unknownIndex publicId)
  | some index =>
    let size ← Action.ofResult (s.storage.size index.id)
    pure (.ok (index.toJson (some size)))

/-- Deletes an index of the caller; its lines stay, but it is no longer found. -/
def delete (w : Surroundings) (r : Http.Request) (id : Bytes) : Action Http.Response := do
  let caller ← caller w r
  let publicId ← Action.parameter id
  let s ← Attempt.state
  let (registry, _) ← Action.ofResult (s.registry.delete publicId caller.authzId w.moment)
  Attempt.modify fun s => { s with registry := registry }
  -- The index is evicted even when there was nothing to delete.
  Attempt.modify fun s => { s with cache := s.cache.evict publicId }
  pure (.ok .null)

end IndexVault.Management
