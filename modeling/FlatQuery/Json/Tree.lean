import FlatQuery.Json.Basic
import FlatQuery.Json.Token

/-!
# The tree of a JSON text

A tree keeps what a text says and a value does not: repeated keys, literals of numbers, and the
place where the text breaks off, marked `broken`. After a mark nothing of the text is kept, so the
first fault met from left to right is the first fault of the text.
-/

namespace FlatQuery.Json

inductive Tree where
  | null
  | bool (b : Bool)
  | num (literal : Number.Literal)
  | str (value : Option String)
  | arr (items : List Tree)
  | obj (members : List (Option String × Tree))
  | broken
deriving Repr, Inhabited

namespace Tree

/-! ## Reading -/

mutual

/-- Reads one value: its tree, and the tokens after it. -/
def ofTokens : (fuel : Nat) → List Token → Tree × List Token
  | 0, _ => (.broken, [])
  | fuel + 1, tokens =>
    match tokens with
    | .null :: rest => (.null, rest)
    | .bool b :: rest => (.bool b, rest)
    | .num literal :: rest => (.num literal, rest)
    | .str value :: rest => (.str value, rest)
    | .openArray :: .closeArray :: rest => (.arr [], rest)
    | .openArray :: rest =>
      let (items, rest) := itemsOfTokens fuel rest
      (.arr items, rest)
    | .openObject :: .closeObject :: rest => (.obj [], rest)
    | .openObject :: rest =>
      let (members, rest) := membersOfTokens fuel rest
      (.obj members, rest)
    | _ => (.broken, [])

/-- Reads the items of an array and its closing bracket. -/
def itemsOfTokens : (fuel : Nat) → List Token → List Tree × List Token
  | 0, _ => ([.broken], [])
  | fuel + 1, tokens =>
    let (item, rest) := ofTokens fuel tokens
    match rest with
    | .comma :: rest =>
      let (items, rest) := itemsOfTokens fuel rest
      (item :: items, rest)
    | .closeArray :: rest => ([item], rest)
    | _ => ([item, .broken], [])

/-- Reads the members of an object and its closing brace. -/
def membersOfTokens : (fuel : Nat) → List Token → List (Option String × Tree) × List Token
  | 0, _ => ([(none, .broken)], [])
  | fuel + 1, tokens =>
    match tokens with
    | .str key :: .colon :: rest =>
      let (value, rest) := ofTokens fuel rest
      match rest with
      | .comma :: rest =>
        let (members, rest) := membersOfTokens fuel rest
        ((key, value) :: members, rest)
      | .closeObject :: rest => ([(key, value)], rest)
      | _ => ([(key, value), (none, .broken)], [])
    | .str key :: _ => ([(key, .broken)], [])
    | _ => ([(none, .broken)], [])

end

/-- The tree of a text, and the tokens left after it. Of two nested readings one takes a token, so
twice their number bounds the steps. -/
def ofText (text : String) : Tree × List Token :=
  let tokens := Token.ofText text
  ofTokens (2 * tokens.length + 2) tokens

mutual

/-- Whether the text of the tree was read to its end. -/
def intact : Tree → Bool
  | .arr items => intactItems items
  | .obj members => intactMembers members
  | .broken => false
  | _ => true
termination_by structural t => t

def intactItems : List Tree → Bool
  | [] => true
  | t :: ts => t.intact && intactItems ts
termination_by structural ts => ts

def intactMembers : List (Option String × Tree) → Bool
  | [] => true
  | (_, t) :: ms => t.intact && intactMembers ms
termination_by structural ms => ms

end

mutual

/-- The value of a tree whose arrays and objects are nested at most `depth` deep. -/
def toJson? : Tree → (depth : Nat) → Option Json
  | .null, _ => some .null
  | .bool b, _ => some (.bool b)
  | .num literal, _ => literal.value?.map .num
  | .str value, _ => value.map .str
  | .arr items, depth =>
    if depth = 0 then none else (itemsToJson? items (depth - 1)).map .arr
  | .obj members, depth =>
    if depth = 0 then none else (membersToJson? members (depth - 1)).map Json.ofMembers
  | .broken, _ => none
termination_by structural t => t

def itemsToJson? : List Tree → (depth : Nat) → Option (List Json)
  | [], _ => some []
  | t :: ts, depth => do
    let v ← toJson? t depth
    let vs ← itemsToJson? ts depth
    some (v :: vs)
termination_by structural ts => ts

def membersToJson? : List (Option String × Tree) → (depth : Nat) → Option (List (String × Json))
  | [], _ => some []
  | (key, t) :: ms, depth => do
    let k ← key
    let v ← toJson? t depth
    let vs ← membersToJson? ms depth
    some ((k, v) :: vs)
termination_by structural ms => ms

end

/-! ## Typed parts -/

def text? : Tree → Option String
  | .str value => value
  | _ => none

def number? : Tree → Option Number
  | .num literal => literal.value?
  | _ => none

def count? (t : Tree) : Option Nat :=
  t.number?.bind Number.toNat?

def double? (t : Tree) : Option Double :=
  t.number?.map Number.toDouble

/-- An optional part: null stands for its absence. -/
def optional? {α : Type} (f : Tree → Option α) : Tree → Option (Option α)
  | .null => some none
  | t => (f t).map some

def list? {α : Type} (f : Tree → Option α) : Tree → Option (List α)
  | .arr items => items.mapM f
  | _ => none

/-- A dictionary; of repeated keys the last one stays, and every value has to be readable. -/
def dict? {α : Type} (f : Tree → Option α) : Tree → Option (Dict α)
  | .obj members =>
    (members.mapM fun (member : Option String × Tree) => do
      some ((← member.1), (← f member.2))).map Dict.ofList
  | _ => none

/-- The fields of a record with the given names, each present or absent. A record is written as an
object, where unknown keys are passed over and a known key may stand once, or as an array of its
fields in order, where trailing fields may be left out. -/
def record? (names : List String) : Tree → Option (List (Option Tree))
  | .arr items =>
    if items.length ≤ names.length then
      some (items.map some ++ List.replicate (names.length - items.length) none)
    else none
  | .obj members =>
    let readable := members.all fun member =>
      match member.1 with
      | none => false
      | some key => names.contains key || member.2.intact
    let unrepeated := names.all fun name =>
      (members.filter fun member => member.1 == some name).length ≤ 1
    if readable && unrepeated then
      some (names.map fun name =>
        (members.find? fun member => member.1 == some name).map Prod.snd)
    else none
  | _ => none

/-- A field that has a value when it is absent. -/
def orDefault? {α : Type} (value : α) (f : Tree → Option α) : Option Tree → Option α
  | none => some value
  | some t => f t

end Tree

/-- How deep arrays and objects of a text may be nested. -/
def maxDepth : Nat := 127

/-- The value of a text that holds one value and nothing else. -/
def parseWithin? (depth : Nat) (text : String) : Option Json :=
  let (tree, rest) := Tree.ofText text
  if rest.isEmpty then tree.toJson? depth else none

def parse? (text : String) : Option Json :=
  parseWithin? maxDepth text

end FlatQuery.Json
