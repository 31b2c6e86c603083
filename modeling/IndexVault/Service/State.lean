import IndexVault.Attempt
import IndexVault.Http.Route
import IndexVault.Http.StaticFiles
import IndexVault.Metadata.Cache
import IndexVault.RequestLog
import IndexVault.SortedMap.VisitOrder
import IndexVault.Storage.Backend
import IndexVault.Tenancy.Projects

namespace IndexVault

/-- The state of the service. -/
structure Service where
  registry : Registry := {}
  cache : IndexCache := {}
  storage : Storage := .keyValue {}
  tenancy : Option Tenancy := none
  log : Option RequestLog := none
  bodyLimit : Nat := 50000000
  files : Option Http.StaticFiles := none

/-- What surrounds the service during one request: the time in milliseconds since 1970, the time
since the start, random values, the remote services as they answer now, what the record of a fetch
leaves of the log's file if its task breaks off, and the order in which the lines of a table are visited
when it is answered. -/
structure Surroundings where
  millis : Nat
  uptime : Nat
  draw : Draw
  userInfo : RemoteService
  projects : RemoteService
  brokenRecord : Option FilePlace := none
  order : SortedMap.VisitOrder Uid := .ascending

namespace Surroundings

/-- The second that expirations are compared with. -/
def seconds (w : Surroundings) : Nat := w.millis / 1000

/-- The time that a new index gets. -/
def moment (w : Surroundings) : Moment := Moment.ofUnixSeconds w.seconds

end Surroundings

/-- A part of answering a request. -/
abbrev Action := Attempt Service Http.Refusal

namespace Action

/-- An answer that may be a failure of the service. -/
def ofResult {α : Type} : Except Failure α → Action α
  | .ok a => pure a
  | .error f => Attempt.fail (.failure f)

def fail {α : Type} (f : Failure) : Action α := Attempt.fail (.failure f)

/-- A request that does not have the form its route asks for. -/
def reject {α : Type} (status : Nat) (reason : String) : Action α :=
  Attempt.fail (.rejection status reason)

def parameter (spelled : Bytes) : Action String :=
  match Http.Route.parameter? spelled with
  | some s => pure s
  | none => reject 400 "Invalid UTF-8 in path parameter"

/-- The body of a request, unless it is over the limit. -/
def bodyWithin (r : Http.Request) : Action Bytes := do
  let s ← Attempt.state
  if r.body.length > s.bodyLimit then reject 413 "length limit exceeded" else pure r.body

/-- The live index with a public id, through the cache. -/
def cachedIndex (publicId : String) : Action Index := do
  let s ← Attempt.state
  let (cache, row) := s.cache.lookup s.registry publicId
  -- What was looked up stays cached, also when the action fails later on.
  Attempt.modify fun s => { s with cache := cache }
  match ← ofResult row with
  | some index => pure index
  | none => fail (.unknownIndex publicId)

end Action

end IndexVault
