import FlatQuery.Http.DecodeBody
import FlatQuery.Http.MediaType
import FlatQuery.Http.Message
import FlatQuery.Service.Basic

/-!
# The HTTP server

A server offers a search service under six routes. A route has one method; `HEAD` goes where `GET`
goes, without the body, and `OPTIONS` is answered everywhere. Every response says which origin may
read it: any origin, or the one that asks if it is on the list of the server.
-/

namespace FlatQuery.Http

structure Server where
  service : Service
  /-- The name of the catalog file that is loaded on demand. -/
  catalogFile : String
  /-- The origins that may read responses; an empty list allows any. -/
  origins : List String := []
deriving Repr

/-- Routes by what they do. -/
inductive Route where
  | health
  | metrics
  | compile
  | search
  | decode
  | reload
deriving DecidableEq, Repr

namespace Route

def ofPath? (path : String) : Option Route :=
  match path with
  | "/health" => some health
  | "/metrics" => some metrics
  | "/v1/compile" => some compile
  | "/v1/search" => some search
  | "/v1/decode" => some decode
  | "/admin/reload-catalog" => some reload
  | _ => none

def method : Route → String
  | decode | reload => "POST"
  | _ => "GET"

end Route

/-! ## Bodies of responses -/

def version : String := "0.1.0"

def healthBody : Json :=
  .ofMembers [("status", .str "ok"), ("version", .str version)]

def reloadBody (c : Catalog) : Json :=
  .ofMembers [("status", .str "reloaded"), ("fields", .ofNat c.size),
    ("nested_paths", .ofNat c.nested.paths.length)]

/-- The body that reports an error. -/
def errorBody (e : ServiceError) : Json :=
  .ofMembers ([("error", .str e.message), ("code", .ofNat e.status)] ++
    e.code?.toList.map fun code => ("error_code", .str code))

/-! ## Handlers -/

def failed (e : ServiceError) : Response := { status := e.status, body := some (errorBody e) }

/-- The response that the outcome of a step makes, and the service after it. -/
def respond {α : Type} (s : Service) (step : ServiceM α) (body : α → Json) : Response × Service :=
  match s.run step with
  | (.ok a, s) => ({ status := 200, body := some (body a) }, s)
  | (.error e, s) => (failed e, s)

/-- Runs a step on the request in a query string. One that cannot be read never reaches the
service. -/
def onQuery {α : Type} (s : Service) (query : String) (step : FlatQuery.Request → ServiceM α)
    (body : α → Json) : Response × Service :=
  match FlatQuery.Request.ofQueryString query with
  | .ok r => respond s (step r) body
  | .error rejection => (failed (.rejected rejection), s)

/-- Answers a decode request, whose body has to be JSON and be announced as such. -/
def handleDecode (s : Service) (r : Request) : Response × Service :=
  if !(r.header? "content-type").any MediaType.isJson then ({ status := 415 }, s)
  else
    match DecodeBody.ofText r.body with
    | .error .unreadable => ({ status := 400 }, s)
    | .error .misshapen => ({ status := 422 }, s)
    | .ok body => onQuery s body.query (fun q => Service.decode q body.response) Answer.toJson

/-- Answers a request on a route. `file` is what the catalog file holds at this time, and `elapsed`
the time that a search takes. -/
def handle (server : Server) (file : Except FileFault String) (elapsed : Double) (r : Request) :
    Route → Response × Service
  | .health => ({ status := 200, body := some healthBody }, server.service)
  | .metrics => ({ status := 200, body := some server.service.counters.toJson }, server.service)
  | .compile => onQuery server.service r.pathAndQuery.2 Service.compile Plan.body
  | .search =>
    onQuery server.service r.pathAndQuery.2 (fun q => Service.search q elapsed) Answer.toJson
  | .decode => handleDecode server.service r
  | .reload => respond server.service (Service.reload server.catalogFile file) reloadBody

/-! ## Origins -/

/-- Whether a text can be the value of a header. -/
def isHeaderValue (text : String) : Bool :=
  text.toList.all fun c => c = '\t' || (31 < c.toNat && c.toNat != 127)

/-- The origin that may read the response to a request. -/
def Server.allowedOrigin (server : Server) (r : Request) : Option String :=
  if server.origins.isEmpty then some "*"
  else
    (r.header? "origin").filter fun origin =>
      isHeaderValue origin && server.origins.contains origin

/-! ## Dispatch -/

/-- The response before its origin is settled. -/
def Server.dispatch (server : Server) (file : Except FileFault String) (elapsed : Double)
    (r : Request) : Response × Service :=
  if r.method = "OPTIONS" then ({ status := 200 }, server.service)
  else
    match Route.ofPath? r.pathAndQuery.1 with
    | none => ({ status := 404 }, server.service)
    | some route =>
      if r.method = route.method then handle server file elapsed r route
      else if r.method = "HEAD" ∧ route.method = "GET" then
        let (response, s) := handle server file elapsed r route
        ({ response with body := none }, s)
      else ({ status := 405 }, server.service)

/-- Answers one request: the response, and the server after it. -/
def Server.answer (server : Server) (file : Except FileFault String) (elapsed : Double)
    (r : Request) : Response × Server :=
  let (response, service) := server.dispatch file elapsed r
  ({ response with allowOrigin := server.allowedOrigin r }, { server with service })

end FlatQuery.Http
