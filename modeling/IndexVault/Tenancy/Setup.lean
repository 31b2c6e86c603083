import IndexVault.Config.Basic
import IndexVault.Tenancy.Projects

namespace IndexVault.Tenancy

/-- The remote services that a configuration names; a server with one tenant has none. -/
def ofConfig (c : TenancyConfig) : Except Failure (Option Tenancy) :=
  if !c.multitenant then .ok none
  else
    match c.identityDomain, c.backendDomain with
    | none, _ => .error (.configuration
        "multi-tenant mode needs `AUTH0_DOMAIN` (e.g. \"tenant.eu.auth0.com\")")
    | some _, none => .error (.configuration
        "multi-tenant mode needs `BACKEND_DOMAIN` (e.g. \"backend.example.com\")")
    | some identity, some backend => .ok (some
        { identity := { lifetime := 1000 * c.tokenCacheSeconds.toNat }
          identityUrl := baseUrl identity
          backendUrl := baseUrl backend })

end IndexVault.Tenancy
