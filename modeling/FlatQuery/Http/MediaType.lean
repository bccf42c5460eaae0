import FlatQuery.Text.Split

/-!
# Media types

Whether the content type of a request is JSON: `application/json`, or another kind of application
with the ending `+json`. Parameters after a semicolon have to be well formed.
-/

namespace FlatQuery.Http.MediaType

def isTokenChar (c : Char) : Bool :=
  c.isAlphanum || "!#$%&'+-.^_\x60|~".toList.contains c

/-! ## Parameters -/

/-- What follows a quoted value: spaces, then the end or the next parameter. -/
def afterQuoted? (cs : List Char) : Option (List Char) :=
  match cs.dropWhile (· == ' ') with
  | [] => some []
  | ';' :: rest => some rest
  | _ => none

/-- Passes over a value. Between quotes it has at least one character, which may be a quote; a token
may only be empty at the end. -/
def afterValue? : List Char → Option (List Char)
  | '"' :: _ :: cs =>
    match cs.dropWhile (· != '"') with
    | _ :: rest => afterQuoted? rest
    | [] => none
  | ';' :: _ => none
  | cs =>
    match cs.dropWhile isTokenChar with
    | [] => some []
    | ';' :: rest => some rest
    | _ => none

/-- Passes over a parameter: a name, an equals sign, a value. -/
def afterParameter? (cs : List Char) : Option (List Char) :=
  match cs.takeWhile isTokenChar, cs.dropWhile isTokenChar with
  | _ :: _, '=' :: rest => afterValue? rest
  | _, _ => none

/-- Whether the text is a list of parameters. Spaces may stand before a name. A parameter takes at
least one character, so the length bounds the steps. -/
def areParameters : (fuel : Nat) → List Char → Bool
  | 0, cs => cs.isEmpty
  | fuel + 1, cs =>
    match cs.dropWhile (· == ' ') with
    | [] => true
    | cs => (afterParameter? cs).any (areParameters fuel)

/-! ## Types -/

/-- A subtype and what follows its last plus. A plus at the very beginning belongs to the name. -/
def nameAndEnding : List Char → List Char × Option (List Char)
  | [] => ([], none)
  | c :: cs =>
    match Text.cut '+' cs.reverse with
    | none => (c :: cs, none)
    | some (ending, name) => (c :: name.reverse, some ending.reverse)

/-- Content types have no control characters and only ASCII. -/
def isPrintable (c : Char) : Bool :=
  32 ≤ c.toNat && c.toNat < 127

def lower (cs : List Char) : String :=
  Text.asciiLower (String.ofList cs)

/-- Whether a content type says that a body is JSON. -/
def isJson (text : String) : Bool :=
  let cs := text.toList
  match Text.cut '/' cs with
  | none => false
  | some (kind, rest) =>
    let subtype := rest.takeWhile (· != ';')
    let (name, ending) := nameAndEnding subtype
    let parameters := (rest.dropWhile (· != ';')).drop 1
    cs.all isPrintable && kind.all isTokenChar &&
      subtype.all isTokenChar && areParameters (parameters.length + 1) parameters &&
      lower kind == "application" &&
      (lower name == "json" || ending.any fun ending => lower ending == "json")

end FlatQuery.Http.MediaType
