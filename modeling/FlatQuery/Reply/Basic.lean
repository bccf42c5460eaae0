import FlatQuery.Json.Printer
import FlatQuery.Json.Record

/-!
# Replies of the engine

A reply is read from JSON in as far as it is needed: its hits, their number, the time it took and
its statistics. Parts that are absent are empty. The subdocuments of a hit are not read until it is
known which of them were asked for.
-/

namespace FlatQuery

/-- A document that was found, or a subdocument of one. -/
structure Hit where
  source : Option Json := none
  fields : Option (Dict Json) := none
  /-- For each nested path the section with the matching subdocuments, as it came. -/
  innerHits : Option (Dict Json) := none
deriving DecidableEq, Repr, Inhabited

structure Hits where
  total : Option Nat := none
  hits : List Hit := []
deriving DecidableEq, Repr, Inhabited

structure Reply where
  /-- The time that the engine took, in milliseconds. -/
  took : Option Nat := none
  hits : Hits := {}
  aggregations : Option (Dict Json) := none
deriving DecidableEq, Repr, Inhabited

/-- Why a reply cannot be used. -/
inductive ReplyError where
  /-- It does not have the shape of a reply. -/
  | malformed
  /-- The engine reports that the search failed. -/
  | engine (reason : String)
deriving DecidableEq, Repr

namespace ReplyError

def message : ReplyError → String
  | malformed => "Malformed search response: not a reply"
  | engine reason => "Search engine error: " ++ reason

end ReplyError

/-- The number of hits: a count, or an object with a count as its `value`. -/
def readTotal? : Json → Option Nat
  | .obj members => (Dict.find? members "value").bind Json.count?
  | v => v.count?

namespace Hit

def ofJson? (v : Json) : Option Hit := do
  match ← v.record? ["_source", "fields", "inner_hits"] with
  | [source, fields, innerHits] =>
    some {
      source := ← Json.optional? some source
      fields := ← Json.optional? Json.members? fields
      innerHits := ← Json.optional? Json.members? innerHits }
  | _ => none

end Hit

namespace Hits

def ofJson? (v : Json) : Option Hits := do
  match ← v.record? ["total", "hits"] with
  | [total, hits] =>
    some {
      total := ← Json.optional? readTotal? total
      hits := ← Json.orDefault? [] (Json.list? Hit.ofJson?) hits }
  | _ => none

/-- The subdocuments in a section; `none` if it does not have the shape of one. -/
def ofSection? (v : Json) : Option Hits := do
  match ← v.record? ["hits"] with
  | [hits] => Json.orDefault? {} ofJson? hits
  | _ => none

end Hits

namespace Reply

/-- The reply in a value, and the error that it reports, if any. -/
def ofJson? (v : Json) : Option (Reply × Option Json) := do
  match ← v.record? ["took", "hits", "aggregations", "error"] with
  | [took, hits, aggregations, error] =>
    let reply : Reply := {
      took := ← Json.optional? Json.count? took
      hits := ← Json.orDefault? {} Hits.ofJson? hits
      aggregations := ← Json.optional? Json.members? aggregations }
    some (reply, ← Json.optional? some error)
  | _ => none

/-- What an error says: the text of its reason, or all of it. -/
def errorReason (error : Json) : String :=
  ((error.get? "reason").bind Json.str?).getD error.text

def read (v : Json) : Except ReplyError Reply :=
  match ofJson? v with
  | none => .error .malformed
  | some (_, some error) => .error (.engine (errorReason error))
  | some (reply, none) => .ok reply

/-- The number of documents that match; a reply that does not say has none. -/
def total (reply : Reply) : Nat :=
  reply.hits.total.getD 0

end Reply

end FlatQuery
