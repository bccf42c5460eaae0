import FlatQuery.Json.Tree

/-!
# Bodies of decode requests

A decode request carries a query string and the reply to read: `query`, which may be left out, and
`response`. The body is read from left to right and the first fault decides: a text that is not JSON
is unreadable, JSON of another shape is misshapen. What follows the value is not looked at.
-/

namespace FlatQuery.Http

inductive BodyFault where
  /-- The text is not JSON, or holds a number that is too large or too many brackets. -/
  | unreadable
  /-- The value does not have the shape of a decode request. -/
  | misshapen
deriving DecidableEq, Repr

structure DecodeBody where
  query : String
  response : Json
deriving DecidableEq, Repr

namespace DecodeBody

open Json (Tree)

/-- The response lies within one pair of brackets, which counts for its depth. -/
def responseDepth : Nat := Json.maxDepth - 1

def readQuery : Tree → Except BodyFault String
  | .str (some s) => .ok s
  | .str none | .broken => .error .unreadable
  | .num literal => .error (if literal.value?.isSome then .misshapen else .unreadable)
  | _ => .error .misshapen

def readResponse (t : Tree) : Except BodyFault Json :=
  match t.toJson? responseDepth with
  | some v => .ok v
  | none => .error .unreadable

/-- Reads the members of an object; a key that was there before is a fault of its own. -/
def readMembers (query : Option String) (response : Option Json) :
    List (Option String × Tree) → Except BodyFault DecodeBody
  | [] =>
    match response with
    | some response => .ok ⟨query.getD "", response⟩
    | none => .error .misshapen
  | (none, _) :: _ => .error .unreadable
  | (some key, t) :: members =>
    if key = "query" then
      if query.isSome then .error .misshapen
      else do
        let s ← readQuery t
        readMembers (some s) response members
    else if key = "response" then
      if response.isSome then .error .misshapen
      else do
        let v ← readResponse t
        readMembers query (some v) members
    else if t.intact then readMembers query response members
    else .error .unreadable

/-- The two parts may also stand in an array. -/
def readItems : List Tree → Except BodyFault DecodeBody
  | [] => .error .misshapen
  | query :: items => do
    let query ← readQuery query
    match items with
    | [] => .error .misshapen
    | response :: rest =>
      let response ← readResponse response
      if rest.isEmpty then .ok ⟨query, response⟩ else .error .unreadable

def ofText (text : String) : Except BodyFault DecodeBody :=
  match (Tree.ofText text).1 with
  | .obj members => readMembers none none members
  | .arr items => readItems items
  | .broken | .str none => .error .unreadable
  | .num literal => .error (if literal.value?.isSome then .misshapen else .unreadable)
  | _ => .error .misshapen

end DecodeBody

end FlatQuery.Http
