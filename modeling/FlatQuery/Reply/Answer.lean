import FlatQuery.Reply.Document

/-!
# Answers

An answer is what a request gets: the documents of one page, how many there are in all, and times
and statistics where they are wanted.
-/

namespace FlatQuery

structure Answer where
  total : Nat
  page : Nat
  pageSize : Nat
  /-- The time of the whole search, in seconds. -/
  searchTime : Option Double
  /-- The time that the engine took, in milliseconds. -/
  took : Option Nat
  documents : List Json
  aggregations : Option (Dict Json)
deriving DecidableEq, Repr

/-- Keeps the named statistics of a field; none named keeps all. -/
def keepMetrics (metrics : List String) : Json → Json
  | .obj stats => .obj (stats.filter fun entry => metrics.contains entry.1)
  | v => v

def keepAllMetrics (metrics : List String) (aggregations : Dict Json) : Dict Json :=
  if metrics.isEmpty then aggregations
  else aggregations.mapValues fun _ v => keepMetrics metrics v

namespace Answer

/-- The page that a window is; one without results is the first. -/
def pageOf (paging : Paging) : Nat :=
  if paging.size = 0 then 0 else paging.start / paging.size

/-- The answer that the documents of a reply make. -/
def ofDocuments (plan : Plan) (reply : Reply) (documents : List Json)
    (searchTime : Option Double) : Answer :=
  { total := reply.total
    page := pageOf plan.paging
    pageSize := plan.paging.size
    searchTime := if plan.output.debug then searchTime else none
    took := if plan.output.debug then reply.took else none
    documents
    aggregations :=
      if plan.output.stats then
        some (keepAllMetrics plan.output.metrics (reply.aggregations.getD []))
      else none }

/-! ## The written form -/

/-- A member that is left out where there is no value. -/
def optionalMember {α : Type} (key : String) (f : α → Json) (value : Option α) :
    List (String × Json) :=
  value.toList.map fun a => (key, f a)

def metadata (answer : Answer) : Json :=
  .ofMembers ([("total", .ofNat answer.total), ("page", .ofNat answer.page),
    ("per_page", .ofNat answer.pageSize)] ++
    optionalMember "search_time" .ofDouble answer.searchTime ++
    optionalMember "took_ms" .ofNat answer.took)

def toJson (answer : Answer) : Json :=
  .ofMembers ([("metadata", answer.metadata), ("results", .arr answer.documents)] ++
    optionalMember "aggregations" .obj answer.aggregations)

end Answer

/-- Reads the reply to a plan. -/
def decode (c : Catalog) (plan : Plan) (raw : Json) (searchTime : Option Double) :
    Except ReplyError (Answer × DecodeCounts) := do
  let reply ← Reply.read raw
  let (documents, counts) := decodeHits c plan reply
  .ok (.ofDocuments plan reply documents searchTime, counts)

end FlatQuery
