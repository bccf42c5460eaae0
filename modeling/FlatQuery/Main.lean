import FlatQuery.Cli.Run

/-!
# The program

Runs one command of the command line on the files and the input of the operating system. Documents
go to the standard output, errors to the standard error.
-/

namespace FlatQuery

/-- The fault that an error of the operating system stands for. -/
def FileFault.ofError : IO.Error → FileFault
  | .noFileOrDirectory .. => .missing
  | e => .other (toString e)

/-- The operating system as a host. -/
def systemHost : Cli.Host IO where
  file path := do
    try return .ok (← IO.FS.readFile path)
    catch e => return .error (.ofError e)
  input := do (← IO.getStdin).readToEnd

def report (e : Cli.CliError) : IO UInt32 := do
  (← IO.getStderr).putStrLn e.display
  return 1

/-- Prints what a command gives. There is no listener for `serve` in this program. -/
def conclude (outcome : Cli.Outcome) : IO UInt32 := do
  if let some document := outcome.output? then
    (← IO.getStdout).putStrLn document.text
  match outcome with
  | .serving _ address => report (.notServed s!"HTTP server failed: cannot listen at {address}")
  | outcome =>
    match outcome.error? with
    | some e => report e
    | none => return 0

end FlatQuery

def main (args : List String) : IO UInt32 := do
  match FlatQuery.Cli.readArguments args with
  | .error e =>
    (← if e.exitCode = 0 then IO.getStdout else IO.getStderr).putStrLn e.message
    return e.exitCode
  | .ok command => FlatQuery.conclude (← FlatQuery.Cli.runCommand FlatQuery.systemHost command)
