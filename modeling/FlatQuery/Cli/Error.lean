import FlatQuery.Cli.Config
import FlatQuery.Service.Error

/-!
# Errors of commands

Why a command fails. Each error has a code for programs and a message for readers.
-/

namespace FlatQuery.Cli

inductive CliError where
  | config (e : ConfigError)
  | unreadableDocument (path : String) (fault : FileFault)
  | emptyDocument
  /-- The document is not JSON. -/
  | badDocument
  | catalog (e : CatalogError)
  | rejected (r : Rejection)
  | engine (e : EngineError)
  | reply (e : ReplyError)
  | notServed (reason : String)
deriving DecidableEq, Repr

namespace CliError

def code : CliError → String
  | config _ => "NESTSEARCH_CLI_CONFIG_ERROR"
  | unreadableDocument .. | emptyDocument | badDocument => "NESTSEARCH_CLI_IO_ERROR"
  | catalog _ => "NESTSEARCH_CLI_CATALOG_ERROR"
  | rejected _ => "NESTSEARCH_CLI_INVALID_REQUEST"
  | engine _ | reply _ => "NESTSEARCH_CLI_DECODE_ERROR"
  | notServed _ => "NESTSEARCH_CLI_SERVE_FAILED"

def message : CliError → String
  | config e => e.message
  | unreadableDocument path fault => s!"Failed to read {path}: {fault.message}"
  | emptyDocument => "Empty input"
  | badDocument => "JSON error: not a document"
  | catalog e => e.message
  | rejected r => r.display
  | engine e => e.message
  | reply e => e.message
  | notServed reason => reason

/-- The message with its code. -/
def display (e : CliError) : String :=
  e.code ++ ": " ++ e.message

def ofService : ServiceError → CliError
  | .rejected r => rejected r
  | .engine e => engine e
  | .reply e => reply e
  | .catalog e => catalog e

end CliError

end FlatQuery.Cli
