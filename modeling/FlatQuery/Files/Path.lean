import FlatQuery.Text.Split

/-!
# Paths of files

A path is a text with names between slashes. An empty name and the name `.` stand for nothing,
except for a `.` at the very beginning.
-/

namespace FlatQuery.Path

/-- Whether a path begins at the root. -/
def isAbsolute (path : String) : Bool :=
  path.toList.head? = some '/'

/-- Whether a piece of a path stands for nothing; `first` says whether the path begins with it. -/
def isIdle (piece : List Char) (first : Bool) : Bool :=
  piece = [] || (piece = ['.'] && !first)

/-- Drops the last pieces that stand for nothing; the pieces come last first. -/
def dropIdle : List (List Char) → List (List Char)
  | [] => []
  | piece :: pieces =>
    if isIdle piece pieces.isEmpty then dropIdle pieces else piece :: pieces

/-- The pieces of a path between its slashes, last first. -/
def lastFirst (path : String) : List (List Char) :=
  (Text.pieces (· == '/') path.toList).reverse

/-- The path of the directory that a path lies in; empty if it names none. -/
def parent (path : String) : String :=
  match dropIdle (lastFirst path) with
  | [] => ""
  | _ :: pieces =>
    match dropIdle pieces with
    | [] => if isAbsolute path then "/" else ""
    | pieces => "/".intercalate (pieces.reverse.map String.ofList)

/-- The path `path` seen from the directory `base`. -/
def join (base path : String) : String :=
  if isAbsolute path || base.isEmpty then path
  else if base.endsWith "/" then base ++ path
  else base ++ "/" ++ path

end FlatQuery.Path
