import FlatQuery.Json.Basic
import FlatQuery.Text.Split

/-!
# HTTP messages

The parts of requests and responses that the service reads and writes.
-/

namespace FlatQuery.Http

structure Request where
  method : String
  /-- The target as it was sent. -/
  target : String
  headers : List (String × String) := []
  body : String := ""
deriving DecidableEq, Repr

structure Response where
  status : Nat
  /-- The JSON value in the body; a body may be empty or not JSON. -/
  body : Option Json := none
  /-- The origin that may read the response. -/
  allowOrigin : Option String := none
deriving DecidableEq, Repr

namespace Request

/-- The value of a header; letter case does not count in its name. -/
def header? (r : Request) (name : String) : Option String :=
  (r.headers.find? fun header => Text.asciiLower header.1 == name).map Prod.snd

/-- The target without scheme and host. -/
def dropHost (target : List Char) : List Char :=
  match target with
  | '/' :: _ => target
  | _ =>
    match (Text.cut ':' target).map Prod.snd with
    | some ('/' :: '/' :: rest) =>
      match rest.dropWhile fun c => c != '/' && c != '?' with
      | '/' :: cs => '/' :: cs
      | cs => '/' :: cs
    | _ => target

/-- The path of a target and its query string. What follows a number sign is not sent. -/
def pathAndQuery (r : Request) : String × String :=
  let target := (dropHost r.target.toList).takeWhile (· != '#')
  match Text.cut '?' target with
  | none => (String.ofList target, "")
  | some (path, query) => (String.ofList path, String.ofList query)

end Request

end FlatQuery.Http
