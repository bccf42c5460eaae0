import FlatQuery.Number.Literal
import FlatQuery.Request.Options
import FlatQuery.Text.Blank
import FlatQuery.Text.FormEncoded

/-!
# Requests

A request is a list of conditions on fields and a record of options. It is read from pairs of keys
and values: a key that names an option sets it, the last time for good, and any other key is a
field. The values of a field that occurs more than once form a list.
-/

namespace FlatQuery

/-- The value of a field: one text, or the texts of a field given several times. -/
inductive ParamValue where
  | single (text : String)
  | list (texts : List String)
deriving DecidableEq, Repr

/-- A condition on a field, which may carry an operator. -/
structure Param where
  path : String
  value : ParamValue
deriving DecidableEq, Repr

structure Request where
  params : List Param := []
  options : Options := {}
deriving DecidableEq, Repr

namespace ParamValue

/-- Another text for the same field. -/
def push : ParamValue → String → ParamValue
  | single first, text => list [first, text]
  | list texts, text => list (texts ++ [text])

end ParamValue

/-! ## Options -/

def readCount (option text : String) : Except Rejection Nat :=
  match Number.readCount? (Text.trim text) with
  | some n => .ok n
  | none => .error (.notCount option text)

/-- A flag without a text is set. -/
def readFlag (option text : String) : Except Rejection Bool :=
  match Text.trim text with
  | "" | "true" | "1" => .ok true
  | "false" | "0" => .ok false
  | other => .error (.notFlag option other)

/-- The texts between commas, without blank characters around them and without empty ones. -/
def commaList (text : String) : List String :=
  ((Text.splitOn text ',').map Text.trim).filter fun piece => !piece.isEmpty

/-- An option may be written with an underscore before its name. -/
def optionName (key : String) : String :=
  match key.toList with
  | '_' :: cs => String.ofList cs
  | _ => key

/-- The options after the option `name` is set to `text`; `none` if there is no such option. -/
def Options.set? (o : Options) (name text : String) : Option (Except Rejection Options) :=
  match name with
  | "page" => some ((readCount name text).map fun n => { o with page := n })
  | "per_page" => some ((readCount name text).map fun n => { o with perPage := some n })
  | "fields" => some (.ok { o with fields := commaList text })
  | "sort" => some (.ok { o with sort := some text })
  | "command" => some ((Command.read (Text.trim text)).map fun c => { o with command := some c })
  | "metrics" => some (.ok { o with metrics := commaList text })
  | "zip" => some (.ok { o with zip := some text })
  | "distance" => some (.ok { o with distance := some text })
  | "all_programs" => some ((readFlag name text).map fun b => { o with allPrograms := b })
  | "all_programs_nested" =>
    some ((readFlag name text).map fun b => { o with allProgramsNested := b })
  | "keys_nested" => some ((readFlag name text).map fun b => { o with keysNested := b })
  | "debug" => some ((readFlag name text).map fun b => { o with debug := b })
  | "nested_sort_mode" =>
    some ((SortMode.read (Text.trim text)).map fun m => { o with nestedSortMode := some m })
  | _ => none

/-! ## Pairs -/

/-- Adds a text to the field `path`, after the fields that came first if it is new. -/
def addParam (path text : String) : List Param → List Param
  | [] => [⟨path, .single text⟩]
  | p :: ps =>
    if p.path = path then { p with value := p.value.push text } :: ps
    else p :: addParam path text ps

namespace Request

/-- The request after one more pair. A pair without a key says nothing. -/
def add (r : Request) (key text : String) : Except Rejection Request :=
  if key.isEmpty then .ok r
  else
    match r.options.set? (optionName key) text with
    | some options => options.map fun o => { r with options := o }
    | none => .ok { r with params := addParam key text r.params }

def ofPairs (pairs : List (String × String)) : Except Rejection Request :=
  pairs.foldlM (fun r (pair : String × String) => r.add pair.1 pair.2) {}

/-- The request of a query string, which may begin with its question mark. -/
def ofQueryString (query : String) : Except Rejection Request :=
  let query :=
    match query.toList with
    | '?' :: cs => String.ofList cs
    | _ => query
  ofPairs (Text.FormEncoded.pairs query)

end Request

end FlatQuery
