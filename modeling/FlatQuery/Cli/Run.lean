import FlatQuery.Cli.Arguments
import FlatQuery.Cli.Error
import FlatQuery.Http.Server
import FlatQuery.Plan.Summary

/-!
# Running commands

A command reads its files, runs once and gives one JSON document. What it reads comes through a
`Host`, so that the same commands run in an operating system and in a tree of files. The order in
which files are read is part of a command: the first fault is the one it reports.
-/

namespace FlatQuery.Cli

/-- Where a command finds its input. -/
structure Host (m : Type → Type) where
  file : String → m (Except FileFault String)
  input : m String

/-- A command may fail at each step. -/
abbrev CliM (m : Type → Type) := ExceptT CliError m

variable {m : Type → Type} [Monad m]

/-- Passes an error on. -/
def orFail {ε α : Type} (f : ε → CliError) (x : Except ε α) : CliM m α :=
  ExceptT.mk (pure (x.mapError f))

/-! ## Inputs -/

def loadConfig (host : Host m) (path : String) : CliM m Loaded := do
  orFail .config (Loaded.ofFile path (← host.file path))

/-- A service with the catalog of a configuration. -/
def openService (host : Host m) (loaded : Loaded) (engine : Engine) : CliM m Service := do
  let file ← host.file loaded.catalogFile
  let catalog ← orFail .catalog (Service.loadCatalog loaded.catalogFile file)
  return { catalog, engine, settings := loaded.settings, index := loaded.config.index }

/-- The JSON value in a document. -/
def readDocument (text : String) : Except CliError Json :=
  if (Text.trim text).isEmpty then .error .emptyDocument
  else
    match Json.parse? text with
    | some v => .ok v
    | none => .error .badDocument

/-- The document in a file, or in the input where no file is named. -/
def loadDocument (host : Host m) : Option String → CliM m Json
  | none => do
    orFail id (readDocument (← host.input))
  | some path => do
    let text ← orFail (.unreadableDocument path) (← host.file path)
    orFail id (readDocument text)

def readQuery (query : String) : CliM m Request :=
  orFail .rejected (Request.ofQueryString query)

/-! ## Commands -/

/-- The body that a query string becomes. -/
def compileData (host : Host m) (config query : String) : CliM m Json := do
  let loaded ← loadConfig host config
  let service ← openService host loaded .silent
  let r ← readQuery query
  let plan ← orFail .ofService (service.run (Service.compile r)).1
  return .ofMembers [("index", .str service.index), ("count_only", .bool plan.countOnly),
    ("body", plan.body)]

/-- The summary of a query string. A rejection is what it says, not a failure. -/
def explainData (host : Host m) (config query : String) : CliM m Json := do
  let loaded ← loadConfig host config
  let service ← openService host loaded .silent
  let result := (Request.ofQueryString query).bind (compile service.catalog service.settings)
  let summary := Summary.ofResult result
  return .ofMembers [("plan", summary.toJson), ("text", .str summary.text)]

/-- The answer that a reply to a query string makes. -/
def decodeData (host : Host m) (config query : String) (response : Option String) :
    CliM m Json := do
  let loaded ← loadConfig host config
  let service ← openService host loaded .silent
  let r ← readQuery query
  let raw ← loadDocument host response
  let answer ← orFail .ofService (service.run (Service.decode r raw)).1
  return answer.toJson

/-- The server that a configuration describes, ready to listen at its address. -/
def openServer (host : Host m) (config : String) (response : Option String) :
    CliM m (Http.Server × String) := do
  let loaded ← loadConfig host config
  let engine ←
    match response with
    | none => pure Engine.silent
    | some path => do
      let reply ← loadDocument host (some path)
      pure (Engine.canned reply)
  let service ← openService host loaded engine
  return ({ service, catalogFile := loaded.catalogFile, origins := loaded.config.corsOrigins },
    loaded.config.address)

/-! ## Outcomes -/

/-- What a command does in the end. -/
inductive Outcome where
  | printed (data : Json)
  /-- A command that prints its errors, as all do but `serve`. -/
  | failed (e : CliError)
  /-- A command that fails without printing anything. -/
  | failedSilently (e : CliError)
  | serving (server : Http.Server) (address : String)
deriving Repr

namespace Outcome

def ofData : Except CliError Json → Outcome
  | .ok data => printed data
  | .error e => failed e

def ofServer : Except CliError (Http.Server × String) → Outcome
  | .ok (server, address) => serving server address
  | .error e => failedSilently e

/-- The document that is printed, if any. -/
def output? : Outcome → Option Json
  | printed data => some (.ofMembers [("status", .str "ok"), ("data", data)])
  | failed e =>
    some (.ofMembers [("status", .str "error"), ("code", .str e.code), ("message", .str e.message)])
  | failedSilently _ | serving .. => none

def error? : Outcome → Option CliError
  | failed e | failedSilently e => some e
  | printed _ | serving .. => none

end Outcome

def runCommand (host : Host m) : Command → m Outcome
  | .compile config query => Outcome.ofData <$> (compileData host config query).run
  | .explain config query => Outcome.ofData <$> (explainData host config query).run
  | .decode config query response => Outcome.ofData <$> (decodeData host config query response).run
  | .serve config response => Outcome.ofServer <$> (openServer host config response).run

end FlatQuery.Cli
