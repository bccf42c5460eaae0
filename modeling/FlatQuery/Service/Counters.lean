import FlatQuery.Json.Basic
import FlatQuery.Reply.Document

/-!
# Counters

What a service has done so far. Counters are words of 64 bits and begin anew after the greatest.
-/

namespace FlatQuery

structure Counters where
  queriesCompiled : UInt64 := 0
  queriesRejected : UInt64 := 0
  nestedQueriesBuilt : UInt64 := 0
  responsesDecoded : UInt64 := 0
  innerHitGroupsMerged : UInt64 := 0
  nullFieldsFilled : UInt64 := 0
  catalogReloads : UInt64 := 0
deriving DecidableEq, Repr, Inhabited

namespace Counters

/-- Counts a compiled request with its nested queries. -/
def compiled (k : Counters) (nestedQueries : Nat) : Counters :=
  { k with
    queriesCompiled := k.queriesCompiled + 1
    nestedQueriesBuilt := k.nestedQueriesBuilt + UInt64.ofNat nestedQueries }

def rejected (k : Counters) : Counters :=
  { k with queriesRejected := k.queriesRejected + 1 }

/-- Counts an answer and what was added to its documents. -/
def decoded (k : Counters) (counts : DecodeCounts) : Counters :=
  { k with
    responsesDecoded := k.responsesDecoded + 1
    innerHitGroupsMerged := k.innerHitGroupsMerged + UInt64.ofNat counts.innerHitGroups
    nullFieldsFilled := k.nullFieldsFilled + UInt64.ofNat counts.nullFields }

def reloaded (k : Counters) : Counters :=
  { k with catalogReloads := k.catalogReloads + 1 }

def toJson (k : Counters) : Json :=
  let member (key : String) (n : UInt64) : String × Json := (key, .ofNat n.toNat)
  .ofMembers [member "queries_compiled" k.queriesCompiled,
    member "queries_rejected" k.queriesRejected,
    member "nested_queries_built" k.nestedQueriesBuilt,
    member "responses_decoded" k.responsesDecoded,
    member "inner_hit_groups_merged" k.innerHitGroupsMerged,
    member "null_fields_filled" k.nullFieldsFilled,
    member "catalog_reloads" k.catalogReloads]

end Counters

end FlatQuery
