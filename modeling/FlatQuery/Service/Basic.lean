import FlatQuery.Catalog.File
import FlatQuery.Files.Fault
import FlatQuery.Plan.Body
import FlatQuery.Reply.Answer
import FlatQuery.Service.Counters
import FlatQuery.Service.Error

/-!
# The search service

A service answers requests against its current catalog. A search takes the catalog once, at its
start, and keeps it to the end: it compiles the request, sends the body to the engine, and reads the
reply. These are steps of their own, so that other requests and changes of the catalog may come in
between. A catalog that cannot be loaded leaves the current one in place.
-/

namespace FlatQuery

structure Service where
  catalog : Catalog
  engine : Engine := .silent
  settings : PlanSettings := {}
  index : String := "documents"
  counters : Counters := {}
  /-- What the engine was asked last, if it has answered at all. -/
  lastRequest : Option EngineRequest := none
deriving Repr, Inhabited

/-- A step of a service. The state it leaves is kept when it fails. -/
abbrev ServiceM := ExceptT ServiceError (StateM Service)

/-- A request that is being answered: its plan, and the catalog it was compiled against. -/
structure InFlight where
  catalog : Catalog
  plan : Plan
deriving Repr

namespace Service

/-- Runs a step from a state: its outcome, and the state after it. -/
def run {α : Type} (s : Service) (step : ServiceM α) : Except ServiceError α × Service :=
  (ExceptT.run step).run s

def count (f : Counters → Counters) : ServiceM Unit :=
  modify fun s => { s with counters := f s.counters }

/-! ## Steps of a request -/

/-- Takes the current catalog and compiles the request against it. -/
def start (r : Request) : ServiceM InFlight := do
  let s ← get
  match FlatQuery.compile s.catalog s.settings r with
  | .ok plan =>
    count (·.compiled plan.nestedQueries.length)
    return ⟨s.catalog, plan⟩
  | .error rejection =>
    count Counters.rejected
    throw (.rejected rejection)

/-- What the engine is asked for a plan. -/
def engineRequest (s : Service) (plan : Plan) : EngineRequest :=
  { index := s.index, body := plan.body, countOnly := plan.countOnly }

/-- Sends the body of a plan to the engine. -/
def send (flight : InFlight) : ServiceM Json := do
  let s ← get
  match s.engine.answer with
  | .ok reply =>
    set { s with lastRequest := some (s.engineRequest flight.plan) }
    return reply
  | .error e => throw (.engine e)

/-- Reads a reply with the plan and the catalog of its request. -/
def finish (flight : InFlight) (raw : Json) (searchTime : Option Double) : ServiceM Answer :=
  match FlatQuery.decode flight.catalog flight.plan raw searchTime with
  | .ok (answer, counts) => do
    count (·.decoded counts)
    return answer
  | .error e => throw (.reply e)

/-! ## Requests -/

def compile (r : Request) : ServiceM Plan := do
  return (← start r).plan

/-- A whole search; `elapsed` is the time that the engine takes. -/
def search (r : Request) (elapsed : Double) : ServiceM Answer := do
  let flight ← start r
  let raw ← send flight
  finish flight raw (some elapsed)

/-- Reads a reply that was obtained elsewhere. -/
def decode (r : Request) (raw : Json) : ServiceM Answer := do
  let flight ← start r
  finish flight raw none

/-! ## Catalogs -/

/-- The catalog in the file `name`, as far as the file could be read. -/
def loadCatalog (name : String) : Except FileFault String → Except CatalogError Catalog
  | .ok text => Catalog.ofText name text
  | .error fault => .error (.unreadable name fault.message)

def replace (c : Catalog) : ServiceM Unit :=
  modify fun s => { s with catalog := c }

/-- Loads the catalog file and puts its catalog in place. -/
def reload (name : String) (file : Except FileFault String) : ServiceM Catalog := do
  match loadCatalog name file with
  | .ok c =>
    replace c
    count Counters.reloaded
    return c
  | .error e => throw (.catalog e)

end Service

end FlatQuery
