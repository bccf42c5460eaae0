import FlatQuery.Json.Basic

/-!
# The engine

The engine takes a search body and gives a reply. Here it either has one reply for every search or
fails every one of them.
-/

namespace FlatQuery

/-- What the engine is asked. -/
structure EngineRequest where
  index : String
  body : Json
  /-- Only the number of documents and statistics are needed. -/
  countOnly : Bool
deriving DecidableEq, Repr

inductive EngineError where
  | unavailable (reason : String)
  /-- The engine gives something that is no reply to a search. -/
  | unexpected (reason : String)
deriving DecidableEq, Repr

namespace EngineError

def message : EngineError → String
  | unavailable reason => "Search engine unavailable: " ++ reason
  | unexpected reason => "Unexpected engine reply: " ++ reason

end EngineError

inductive Engine where
  | canned (reply : Json)
  | failing (error : EngineError)
deriving DecidableEq, Repr

namespace Engine

/-- The reply without hits. -/
def emptyReply : Json :=
  .ofMembers [("took", .ofNat 0),
    ("hits", .ofMembers [("total", .ofNat 0), ("hits", .arr [])])]

def silent : Engine := canned emptyReply

instance : Inhabited Engine := ⟨silent⟩

def answer : Engine → Except EngineError Json
  | canned reply => .ok reply
  | failing error => .error error

end Engine

end FlatQuery
