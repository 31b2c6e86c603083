import IndexVault.Tenancy.Identity

namespace IndexVault

namespace Projects

/-- What is read of a project; its id goes by either of two names. -/
def projectFields : List (Json.Field String) :=
  [{ Json.Field.setting "uuid" Json.readText (fun _ s => s) with
      names := ["uuid", "id"]
      optionalInObject := false
      optionalInArray := false }]

def ofReply : Reply → Except Failure (List String)
  | .unreachable => .error (.provider .unreachable)
  | .answered status body =>
    if Reply.isErrorStatus status then .error (.provider (.status status))
    else
      match Json.readWhole (Json.readList (Json.readRecord projectFields "")) body with
      | .ok projects => .ok projects
      | .error _ => .error (.provider .malformedReply)

/-- The projects that a caller can see. -/
def list (service : RemoteService) (caller : Caller) : Except Failure (List String) :=
  match caller.bearer with
  | none => .error .missingBearer
  | some bearer => ofReply (service.ask bearer)

/-- Refuses a project that the caller cannot see. -/
def ensure (service : RemoteService) (caller : Caller) (project : String) :
    Except Failure Unit := do
  let projects ← list service caller
  if projects.contains project then pure () else .error (.unknownProject project)

end Projects

/-- The remote services of a server with many tenants, which vouch for callers and projects; a server with
one tenant has one fixed owner and project. -/
structure Tenancy where
  identity : IdentityProvider
  identityUrl : String
  backendUrl : String

namespace Tenancy

def soleOwner : Caller := ⟨"SINGLE_TENANT_AUTHZ_ID", none⟩

def soleProject : String := "SINGLE_TENANT_PROJECT_UUID"

/-- Whether a text has `://` in it. -/
def namesScheme : List Char → Bool
  | ':' :: '/' :: '/' :: _ => true
  | _ :: rest => namesScheme rest
  | [] => false

/-- The base of the addresses of a domain: without slashes at its end, and with `https` unless it
names a scheme. -/
def baseUrl (domain : String) : String :=
  let kept := (domain.toList.reverse.dropWhile (· == '/')).reverse
  if namesScheme kept then String.ofList kept else "https://" ++ String.ofList kept

/-- The project that a request works on: the sole one, or the one asked for, which the caller has to
see. -/
def resolveProject (tenancy : Option Tenancy) (projects : RemoteService) (caller : Caller)
    (requested : Option String) : Except Failure String :=
  match tenancy with
  | none => .ok soleProject
  | some _ =>
    match requested.filter (!·.isEmpty) with
    | none => .error (.badRequest "project_uuid is required")
    | some project => (Projects.ensure projects caller project).map fun _ => project

end Tenancy

end IndexVault
