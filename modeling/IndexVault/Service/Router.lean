import IndexVault.Service.Callbacks
import IndexVault.Service.LogAccess
import IndexVault.Service.Management

namespace IndexVault.Service

def version : String := "0.3.0"

def buildTime : String := "unknown"

def health : Http.Response :=
  .ok (.object [("build_time", .text buildTime), ("status", .text "ok"),
    ("version", .text version)])

/-- What a route does under a method; `none` stands for a method that it does not take. -/
def action? (w : Surroundings) (r : Http.Request) : String → Http.Route →
    Option (Action Http.Response)
  | "GET", .health => some (pure health)
  | "GET", .indexes => some (Management.list w r)
  | "POST", .indexes => some (Management.create w r)
  | "GET", .index id => some (Management.show? w r id)
  | "DELETE", .index id => some (Management.delete w r id)
  | "POST", .callback c id => some (c.answer w r id)
  | "POST", .setTimeDiff time => some (do
      let time ← Action.parameter time
      LogAccess.setTimeDiff w time)
  | "GET", .requestsLog => some LogAccess.read
  | "POST", .resetRequestsLog => some LogAccess.reset
  | "GET", .exportTable kind id => some (do
      let publicId ← Action.parameter id
      LogAccess.exportTable kind publicId)
  | _, _ => none

def carryOut (s : Service) (action : Action Http.Response) : Service × Http.Response :=
  match action.run s with
  | (.ok response, s') => (s', response)
  | (.error refusal, s') => (s', refusal.response)

/-- Answers a request by its route, or by a static file where there is none. -/
def route (s : Service) (w : Surroundings) (r : Http.Request) : Service × Http.Response :=
  match Http.Route.ofPath? s.log.isSome r.path with
  | none => (s, Http.serveStatic s.files r)
  | some route =>
    -- A `HEAD` request is routed as a `GET` request whose content is left out.
    match action? w r (if r.method = "HEAD" then "GET" else r.method) route with
    | none => (s, .empty 405)
    | some action =>
      let (s', response) := s.carryOut action
      (s', { response with body := if r.method = "HEAD" then [] else response.body })

/-- Answers a request by the route of its path and its method; every response may be read from other
origins. -/
def respond (s : Service) (w : Surroundings) (r : Http.Request) : Service × Http.Response :=
  -- Any origin may read the response, and a request for options is answered with that alone.
  if r.method = "OPTIONS" then (s, { Http.Response.empty 200 with allowOrigin := some "*" })
  else
    let (s', response) := s.route w r
    (s', { response with allowOrigin := some "*" })

end IndexVault.Service
