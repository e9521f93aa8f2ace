import Infrastructure.Domain.Kind
import Infrastructure.FunctionService
import Infrastructure.Handler
import Infrastructure.Net.Escape

/-! The API server, as far as a request to invoke a function goes: the check in front of the router,
the route and the endpoint. -/

namespace Infrastructure.Httpsrv

open Concurrency State Domain Text Net FunctionService

def apiBase : String := "/api/v1"

def healthPath : String := "/healthz"

/-- `ssl.GlobalRootUID`. -/
def globalRootUID : String := "public-root"

/-- `authenticated` is whether the server was built with an authenticator. -/
structure Server where
  service : Service
  authenticated : Bool

/-- The identity is what the authenticator makes of the request, if it accepts it. -/
structure HTTPRequest where
  method : String
  escapedPath : List Char
  path : List Char
  decodes : pathUnescape escapedPath = some path
  contentType : String := ""
  identity : Option Identity := none

/-- `other` is the answer of a handler that is not looked at here. -/
inductive Response where
  | failure (status : Nat) (msg : String)
  | served (body : String)
  | other
  deriving DecidableEq, Repr

/-- The path that `http.ServeMux` serves a request under; others are redirected to it. -/
def cleanPath (path : List Char) : List Char :=
  if path = [] then ['/']
  else
    let rooted := if path.head? = some '/' then path else '/' :: path
    let cleaned := (clean rooted).render
    if rooted.getLast? = some '/' ∧ cleaned ≠ ['/'] then cleaned ++ ['/'] else cleaned

/-- The segments that patterns are matched with; one that does not decode stands for itself. -/
def routeSegments (path : List Char) : List (List Char) :=
  (segments path.tail).map fun seg => (pathUnescape seg).getD seg

/-- Whether the router picks `POST /api/v1/function/{uid}/invoke`, and the uid. A slash matches no
wildcard. -/
def HTTPRequest.invokes (r : HTTPRequest) : Option (List Char) :=
  if r.method = "POST" ∧ cleanPath r.escapedPath = r.escapedPath then
    match routeSegments r.escapedPath with
    | [api, v, kind, uid, action] =>
      if api = "api".toList ∧ v = "v1".toList ∧ kind = kindFunction.toList ∧
        action = "invoke".toList ∧
        uid ≠ ['/'] then some uid
      else none
    | _ => none
  else none

def trimPrefix (start text : List Char) : List Char :=
  if start.isPrefixOf text then text.drop start.length else text

def HTTPRequest.parts (r : HTTPRequest) : List (List Char) :=
  segments (trimPrefix (apiBase ++ "/").toList r.path)

namespace Server

variable (server : Server)

/-- The endpoint. The instance is released when the body of the response is closed. -/
def invoke (uid contentType : String) : Prog Response := do
  match ← server.service.invoke uid contentType with
  | .error err =>
    if err.is errNotFound then return .failure 404 "not found"
    else if err.is errNotReady || err.is errNoWarmInstance then return .failure 503 err.text
    else return .failure 502 err.text
  | .ok (response, inst) =>
    let _ ← Program.perform (Op.host ["copy", response])
    let _ ← server.service.release inst
    return .served response

def route (r : HTTPRequest) : Prog Response :=
  match r.invokes with
  | some uid => server.invoke (.ofList uid) r.contentType
  | none => return .other

/-- The check of an invocation: its function is looked up and write permission asked for. -/
def authorizeInvoke (identity : Option Identity) (uid : String) : Prog (Option Response) := do
  match ← server.service.functions.get uid with
  | .error _ => return some (.failure 403 "function unavailable")
  | .ok fn =>
    match identity with
    | none => return some (.failure 403 "forbidden")
    | some identity =>
      if ← Program.perform (Op.ask (.allowed identity.subject (identity.hasRole adminRole)
          fn.metadata.ownerUID fn.metadata.projectID .write)) then return none
      else return some (.failure 403 "forbidden")

/-- The response to a request that may not go on. -/
def authorizeSpecialized (r : HTTPRequest) (identity : Option Identity) : Prog (Option Response) :=
  let parts := r.parts
  let kind := String.ofList (parts.headD [])
  if kind ∈ [Kind.secret.text, Kind.secretVersion.text, Kind.sslCA.text, Kind.sslCert.text] then
    if identity.isSome && r.method = "GET" &&
      parts = [Kind.sslCA.text.toList, globalRootUID.toList] then return none
    else if identity.any fun identity => identity.hasRole adminRole then return none
    else return some (.failure 403 "admin role required")
  else if kind = kindFunction then
    match parts with
    | [_, uid, action] =>
      if r.method ≠ "POST" ∨ action ≠ "invoke".toList then return none
      else server.authorizeInvoke identity (.ofList uid)
    | _ => return none
  else return none

def serve (r : HTTPRequest) : Prog Response :=
  if !server.authenticated then server.route r
  else if r.path = healthPath.toList ∨ r.path = "/readyz".toList then server.route r
  else
    match r.identity with
    | none => return .failure 401 "unauthorized"
    | some identity => do
        match ← server.authorizeSpecialized r (some identity) with
        | some response => return response
        | none => server.route r

end Server

end Infrastructure.Httpsrv
