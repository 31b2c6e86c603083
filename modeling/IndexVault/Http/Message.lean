import IndexVault.Failure
import IndexVault.Json.Value

namespace IndexVault.Http

/-- A request; header names are in lower case. -/
structure Request where
  method : String
  target : String
  headers : List (String × Bytes) := []
  body : Bytes := []

/-- The values of the headers of a name, in order. -/
def Request.header (r : Request) (name : String) : List Bytes :=
  (r.headers.filter fun h => h.1 == name).map Prod.snd

/-- A target up to its fragment, which is not sent. -/
def withoutFragment (target : Bytes) : Bytes :=
  target.takeWhile (· != 0x23)

/-- What follows the scheme of a target and its two slashes. -/
def afterScheme? (target : Bytes) : Option Bytes :=
  let isSchemeByte (b : UInt8) : Bool :=
    (Char.ofNat b.toNat).isAlphanum || b == 0x2b || b == 0x2d || b == 0x2e
  match target.dropWhile isSchemeByte with
  | 0x3a :: 0x2f :: 0x2f :: rest => some rest
  | _ => none

/-- The path and the query of a target. With a scheme and a host in front they are what follows the
host; a host alone has neither. -/
def pathAndQuery (target : Bytes) : Bytes :=
  if target.head? = some 0x2f || target = [0x2a] then target
  else
    match afterScheme? target with
    | none => []
    | some rest =>
      let rest := rest.dropWhile fun b => b != 0x2f && b != 0x3f
      -- A path that is left out behind a host is the root.
      if rest.head? = some 0x2f then rest else 0x2f :: rest

def Request.path (r : Request) : Bytes :=
  (pathAndQuery (withoutFragment (Bytes.ofText r.target))).takeWhile (· != 0x3f)

/-- The query of a request, as it is spelled; empty where there is none. -/
def Request.query (r : Request) : Bytes :=
  ((pathAndQuery (withoutFragment (Bytes.ofText r.target))).dropWhile (· != 0x3f)).drop 1

/-- A response, as far as the service decides on it. -/
structure Response where
  status : Nat
  contentType : Option String := none
  body : Bytes := []
  allowOrigin : Option String := none

namespace Response

def empty (status : Nat) : Response := { status := status }

def json (v : Json.Value) (status : Nat) : Response :=
  { status := status, contentType := some "application/json", body := v.compact }

def ok (v : Json.Value) : Response := json v 200

def text (s : String) (status : Nat) : Response :=
  { status := status, contentType := some "text/plain; charset=utf-8", body := Bytes.ofText s }

def octets (b : Bytes) : Response :=
  { status := 200, contentType := some "application/octet-stream", body := b }

def ofFailure (f : Failure) : Response :=
  json (.object [("error", .text f.message)]) f.status

end Response

/-- Why a request gets no answer of its handler: a failure of the service, or a request that does
not have the form its route asks for. -/
inductive Refusal where
  | failure (f : Failure)
  | rejection (status : Nat) (reason : String)

def Refusal.response : Refusal → Response
  | failure f => .ofFailure f
  | rejection status reason => .text reason status

end IndexVault.Http
