import IndexVault.Json.Record
import IndexVault.SortedMap
import IndexVault.Tenancy.Bearer

namespace IndexVault

/-- An authenticated caller; the bearer is forwarded to the project backend. -/
structure Caller where
  authzId : String
  bearer : Option String
  deriving DecidableEq, Repr

/-- What comes back from a remote service. -/
inductive Reply where
  | unreachable
  | answered (status : Nat) (body : Bytes)

/-- The statuses of clients' and servers' errors; a reply with any other is read. -/
def Reply.isErrorStatus (status : Nat) : Bool :=
  400 ≤ status && status < 600

/-- A remote service as it answers at one moment: the reply to a bearer token. -/
abbrev RemoteService := String → Reply

/-- Asks a remote service; a token that cannot stand in a header is never sent. -/
def RemoteService.ask (service : RemoteService) (token : String) : Reply :=
  if (Bearer.forwarded token).all Bearer.isSendable then service token else .unreachable

/-- A subject that the provider gave for a token, and when it stops counting. -/
structure CachedToken where
  subject : String
  expiresAt : Nat
  deriving DecidableEq, Repr

/-- The client of an identity provider; times are in milliseconds. -/
structure IdentityProvider where
  lifetime : Nat
  tokens : SortedMap String CachedToken := ∅

namespace IdentityProvider

/-- What is read of a user description. -/
def userInfoFields : List (Json.Field (Option String)) :=
  [{ Json.Field.setting "sub" (Json.readOptional Json.readText) (fun _ s => s) with
      optionalInArray := false }]

def subjectOf : Reply → Except Failure String
  | .unreachable => .error (.provider .unreachable)
  | .answered status body =>
    if status = 401 ∨ status = 403 then .error (.forbidden "token rejected by identity provider")
    else if Reply.isErrorStatus status then .error (.provider (.status status))
    else
      match Json.readWhole (Json.readRecord userInfoFields none) body with
      | .error _ => .error (.provider .malformedReply)
      | .ok none => .error (.forbidden "token carries no subject")
      | .ok (some subject) =>
        if subject.isEmpty then .error (.forbidden "token carries no subject") else .ok subject

/-- The subject of a token that is cached and has not expired. -/
def cached? (p : IdentityProvider) (token : String) (now : Nat) : Option String :=
  match p.tokens.get? token with
  | some c => if c.expiresAt > now then some c.subject else none
  | none => none

/-- Keeps an accepted token. -/
def remember (p : IdentityProvider) (token subject : String) (now : Nat) : IdentityProvider :=
  -- Every token that is kept drops those that have expired, so they do not pile up.
  let alive := p.tokens.filter fun _ c => c.expiresAt > now
  { p with tokens := alive.insert token ⟨subject, now + p.lifetime⟩ }

/-- Takes in a reply to a token: an accepted one is kept. -/
def receive (p : IdentityProvider) (token : String) (reply : Reply) (now : Nat) :
    IdentityProvider × Except Failure Caller :=
  match subjectOf reply with
  | .ok subject => (p.remember token subject now, .ok ⟨subject, some token⟩)
  | .error e => (p, .error e)

/-- Resolves a bearer token to its subject: from the cache of tokens that were accepted, or else by the
provider. -/
def validate (p : IdentityProvider) (service : RemoteService) (token : String) (now : Nat) :
    IdentityProvider × Except Failure Caller :=
  match p.cached? token now with
  | some subject => (p, .ok ⟨subject, some token⟩)
  | none => p.receive token (service.ask token) now

end IdentityProvider

end IndexVault
