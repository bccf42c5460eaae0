import FlatQuery.Files.Fault
import FlatQuery.Text.Split

/-!
# File trees

A tree of files and directories that is known from the start. `read` follows a path through it name
by name, as an operating system does.
-/

namespace FlatQuery

/-- The names of the directories on the way to a file, and its own. -/
abbrev Location := List String

structure Files where
  texts : List (Location × String)
  /-- Directories besides those that hold files. -/
  directories : List Location := []
  /-- Where relative paths begin. -/
  home : Location := []
deriving DecidableEq, Repr

namespace Files

/-- The longest name of a file, in bytes. -/
def maxName : Nat := 255

/-- The longest path, in bytes. -/
def maxPath : Nat := 4095

/-- Whether the directory is on the way to a file or to another directory. -/
def isDirectory (files : Files) (location : Location) : Bool :=
  location.isEmpty ||
    files.directories.any (fun directory => location.isPrefixOf directory) ||
    files.texts.any fun entry =>
      location.isPrefixOf entry.1 && location.length < entry.1.length

def text? (files : Files) (location : Location) : Option String :=
  (files.texts.find? fun entry => entry.1 == location).map Prod.snd

/-- Follows the names of a path from a location that exists. -/
def follow (files : Files) (location : Location) : List String → Except FileFault Location
  | [] => .ok location
  | name :: names =>
    if !files.isDirectory location then .error .notDirectory
    else if name = "" ∨ name = "." then follow files location names
    else if name = ".." then follow files location.dropLast names
    else if maxName < name.utf8ByteSize then .error .nameTooLong
    else
      let next := location ++ [name]
      if files.isDirectory next || (files.text? next).isSome then follow files next names
      else .error .missing

def read (files : Files) (path : String) : Except FileFault String :=
  if path.toList.contains '\x00' then .error .nulInPath
  else if path.isEmpty then .error .missing
  else if maxPath < path.utf8ByteSize then .error .nameTooLong
  else
    match files.follow (if path.startsWith "/" then [] else files.home) (Text.splitOn path '/') with
    | .error fault => .error fault
    | .ok location =>
      match files.text? location with
      | some text => .ok text
      | none => .error .isDirectory

end Files

end FlatQuery
