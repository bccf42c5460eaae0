import FlatQuery.Files.Fault
import FlatQuery.Files.Path
import FlatQuery.Json.Tree
import FlatQuery.Net.SocketAddress
import FlatQuery.Plan.Basic

/-!
# Configuration files

A configuration names the catalog file and says what a service needs besides. Only the catalog file
has no default. The faults of a configuration are looked for in the order of `check`.
-/

namespace FlatQuery.Cli

structure Config where
  catalogPath : String
  index : String := "documents"
  defaultPageSize : Nat := 20
  sortModeWord : String := "direction"
  host : String := "0.0.0.0"
  port : Nat := 4060
  corsOrigins : List String := []
deriving DecidableEq, Repr

/-- Why a configuration cannot be used. -/
inductive ConfigError where
  | unreadable (fault : FileFault)
  /-- The text is not JSON or does not have the shape of a configuration. -/
  | malformed
  | noCatalogPath
  | badPageSize (size : Nat)
  | badSortMode (r : Rejection)
  | badAddress
deriving DecidableEq, Repr

namespace ConfigError

def message : ConfigError → String
  | unreadable fault => "Failed to read config: " ++ fault.message
  | malformed => "Invalid config JSON: not a configuration"
  | noCatalogPath => "catalog_path must not be empty"
  | badPageSize size => s!"default_page_size must be between 1 and {maxPageSize}, got {size}"
  | badSortMode r => r.message
  | badAddress => "Invalid host/port: invalid socket address syntax"

end ConfigError

namespace Config

def names : List String :=
  ["catalog_path", "index", "default_page_size", "nested_sort_mode", "host", "port",
    "cors_origins"]

/-- Ports are numbers of 16 bits. -/
def readPort? (t : Json.Tree) : Option Nat :=
  t.count?.filter (· < 0x10000)

def ofTree? (t : Json.Tree) : Option Config := do
  match ← t.record? names with
  | [some catalogPath, index, size, sortMode, host, port, origins] =>
    some {
      catalogPath := ← catalogPath.text?
      index := ← Json.Tree.orDefault? "documents" Json.Tree.text? index
      defaultPageSize := ← Json.Tree.orDefault? 20 Json.Tree.count? size
      sortModeWord := ← Json.Tree.orDefault? "direction" Json.Tree.text? sortMode
      host := ← Json.Tree.orDefault? "0.0.0.0" Json.Tree.text? host
      port := ← Json.Tree.orDefault? 4060 readPort? port
      corsOrigins := ← Json.Tree.orDefault? [] (·.list? Json.Tree.text?) origins }
  | _ => none

def address (config : Config) : String :=
  s!"{config.host}:{config.port}"

/-- The settings for plans, once the configuration is found to be usable. -/
def check (config : Config) : Except ConfigError PlanSettings := do
  if (Text.trim config.catalogPath).isEmpty then throw .noCatalogPath
  if config.defaultPageSize < 1 ∨ maxPageSize < config.defaultPageSize then
    throw (.badPageSize config.defaultPageSize)
  let sortMode ← (SortMode.read config.sortModeWord).mapError .badSortMode
  if !SocketAddress.isValid config.address then throw .badAddress
  return { defaultPageSize := config.defaultPageSize, sortMode }

end Config

/-- A configuration that was found to be usable, and where it came from. -/
structure Loaded where
  config : Config
  settings : PlanSettings
  path : String
deriving DecidableEq, Repr

namespace Loaded

/-- The configuration in the file at `path`. -/
def ofFile (path : String) (file : Except FileFault String) : Except ConfigError Loaded := do
  let text ← file.mapError .unreadable
  let (tree, rest) := Json.Tree.ofText text
  match if rest.isEmpty then Config.ofTree? tree else none with
  | none => throw .malformed
  | some config => return { config, settings := ← config.check, path }

/-- The catalog file; a relative path begins in the directory of the configuration. -/
def catalogFile (loaded : Loaded) : String :=
  Path.join (Path.parent loaded.path) loaded.config.catalogPath

end Loaded

end FlatQuery.Cli
