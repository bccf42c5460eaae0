import FlatQuery.Catalog.Error
import FlatQuery.Reply.Basic
import FlatQuery.Request.Rejection
import FlatQuery.Service.Engine

/-!
# Errors of a service

What can go wrong between a request and its answer, and whose fault it is.
-/

namespace FlatQuery

inductive ServiceError where
  | rejected (r : Rejection)
  | engine (e : EngineError)
  | reply (e : ReplyError)
  | catalog (e : CatalogError)
deriving DecidableEq, Repr

namespace ServiceError

def message : ServiceError → String
  | rejected r => r.display
  | engine e => e.message
  | reply e => e.message
  | catalog e => "Catalog error: " ++ e.message

/-- Whether the request itself is at fault. -/
def isInvalidRequest : ServiceError → Bool
  | rejected _ => true
  | _ => false

/-- The status of a response that reports the error. A request and a reply come from the caller,
the engine and the catalog belong to the service. -/
def status : ServiceError → Nat
  | rejected _ | reply _ => 400
  | engine _ | catalog _ => 500

/-- The code of a rejection. -/
def code? : ServiceError → Option String
  | rejected r => some r.code
  | _ => none

end ServiceError

end FlatQuery
