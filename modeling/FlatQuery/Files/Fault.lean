/-!
# Faults of files

Why a file cannot be read, and the words of the operating system for it.
-/

namespace FlatQuery

inductive FileFault where
  | missing
  /-- A directory is named where a file should be. -/
  | isDirectory
  /-- A file is named where a directory should be. -/
  | notDirectory
  | nameTooLong
  /-- A path with the character NUL. -/
  | nulInPath
  | other (message : String)
deriving DecidableEq, Repr

namespace FileFault

def message : FileFault → String
  | missing => "No such file or directory (os error 2)"
  | isDirectory => "Is a directory (os error 21)"
  | notDirectory => "Not a directory (os error 20)"
  | nameTooLong => "File name too long (os error 36)"
  | nulInPath => "file name contained an unexpected NUL byte"
  | other message => message

end FileFault

end FlatQuery
