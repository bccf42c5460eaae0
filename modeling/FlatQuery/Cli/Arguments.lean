/-!
# Arguments of the command line

There are four commands, each with some of three options that take a value. An option is written
`--name value` or `--name=value`, at most once. The value of an option is settled when the next
option begins or the arguments end; an argument that is unknown is reported before that.
-/

namespace FlatQuery.Cli

inductive Command where
  | compile (config query : String)
  | explain (config query : String)
  | decode (config query : String) (response : Option String)
  | serve (config : String) (response : Option String)
deriving DecidableEq, Repr

/-- Why there is no command to run. Asking for help or for the version is such a reason. -/
inductive UsageError where
  | help
  | version
  | noCommand
  | unknownCommand
  | unknownArgument
  /-- A value for something that takes none. -/
  | unwantedValue
  /-- An option without a value, or an empty path. -/
  | missingValue
  | repeatedOption
deriving DecidableEq, Repr

namespace UsageError

def message : UsageError → String
  | help | noCommand => "Usage: nestsearch <compile|explain|decode|serve> [--config <path>] [--query <query string>] [--response <file>]"
  | version => "nestsearch 0.1.0"
  | unknownCommand => "error: unknown command"
  | unknownArgument => "error: unexpected argument"
  | unwantedValue => "error: unexpected value"
  | missingValue => "error: an option needs a value"
  | repeatedOption => "error: an option is given twice"

/-- Help and version were asked for; anything else is a fault of usage. -/
def exitCode : UsageError → UInt32
  | help | version => 0
  | _ => 2

end UsageError

inductive CommandName where
  | compile
  | explain
  | decode
  | serve
deriving DecidableEq, Repr

inductive OptionName where
  | config
  | query
  | response
deriving DecidableEq, Repr

namespace OptionName

def word : OptionName → String
  | config => "config"
  | query => "query"
  | response => "response"

/-- Whether the value is the path of a file, which may not be empty. -/
def isPath : OptionName → Bool
  | query => false
  | _ => true

end OptionName

namespace CommandName

def word : CommandName → String
  | compile => "compile"
  | explain => "explain"
  | decode => "decode"
  | serve => "serve"

def ofWord? (s : String) : Option CommandName :=
  [compile, explain, decode, serve].find? fun name => name.word == s

def options : CommandName → List OptionName
  | compile | explain => [.config, .query]
  | decode => [.config, .query, .response]
  | serve => [.config, .response]

def option? (name : CommandName) (s : String) : Option OptionName :=
  name.options.find? fun option => option.word == s

end CommandName

/-! ## Shapes of arguments -/

/-- What an argument looks like before it is known what it means. -/
inductive Shape where
  /-- The two dashes after which nothing is an option. -/
  | stop
  | long (name : String) (value : Option String)
  | short (first : Char)
  | plain (text : String)
deriving DecidableEq, Repr

/-- A name and a value with an equals sign between them. -/
def longShape (cs : List Char) : Shape :=
  match cs.dropWhile (· != '=') with
  | [] => .long (String.ofList cs) none
  | _ :: value => .long (String.ofList (cs.takeWhile (· != '='))) (some (String.ofList value))

/-- A single dash is no option. -/
def shapeOf (text : String) : Shape :=
  match text.toList with
  | ['-', '-'] => .stop
  | '-' :: '-' :: cs => longShape cs
  | '-' :: c :: _ => .short c
  | _ => .plain text

/-! ## Options of a command -/

/-- The options read so far. -/
structure Reading where
  settled : List (OptionName × String) := []
  /-- The option that was read last, and its value if it has come. -/
  pending : Option (OptionName × Option String) := none
deriving DecidableEq, Repr

namespace Reading

/-- Gives an option its value. -/
def settle (settled : List (OptionName × String)) (option : OptionName) (value : String) :
    Except UsageError (List (OptionName × String)) :=
  if settled.any fun entry => entry.1 = option then .error .repeatedOption
  else if option.isPath ∧ value.isEmpty then .error .missingValue
  else .ok (settled ++ [(option, value)])

/-- Settles the option that was read last. -/
def close (r : Reading) : Except UsageError (List (OptionName × String)) :=
  match r.pending with
  | none => .ok r.settled
  | some (_, none) => .error .missingValue
  | some (option, some value) => settle r.settled option value

end Reading

/-- Reads the arguments after the name of a command. -/
def readOptions (name : CommandName) (r : Reading) :
    List String → Except UsageError (List (OptionName × String))
  | [] => r.close
  | text :: rest =>
    match shapeOf text with
    | .stop => if rest.isEmpty then r.close else .error .unknownArgument
    | .long word value =>
      match name.option? word, value with
      | some option, some value => do
        let settled ← r.close
        let settled ← Reading.settle settled option value
        readOptions name { settled } rest
      | some option, none => do
        let settled ← r.close
        readOptions name { settled, pending := some (option, none) } rest
      | none, some _ => .error (if word = "help" then .unwantedValue else .unknownArgument)
      | none, none =>
        if word = "help" then r.close.bind fun _ => .error .help else .error .unknownArgument
    | .short 'h' => r.close.bind fun _ => .error .help
    | .short _ => .error .unknownArgument
    | .plain text =>
      match r.pending with
      | some (option, none) => readOptions name { r with pending := some (option, some text) } rest
      | _ => .error .unknownArgument

/-! ## Commands -/

def defaultConfig : String := "./nestsearch.json"

/-- The command that a name and its options make. -/
def makeCommand (name : CommandName) (options : List (OptionName × String)) : Command :=
  let value? (option : OptionName) : Option String :=
    (options.find? fun entry => entry.1 = option).map Prod.snd
  let config := (value? .config).getD defaultConfig
  let query := (value? .query).getD ""
  match name with
  | .compile => .compile config query
  | .explain => .explain config query
  | .decode => .decode config query (value? .response)
  | .serve => .serve config (value? .response)

/-- Whether the word names a command, the one for help included. -/
def isCommandWord (text : String) : Bool :=
  (CommandName.ofWord? text).isSome || text = "help"

/-- Help may be asked about one command, the one for help included. -/
def readHelp : List String → UsageError
  | [] => .help
  | [topic] => if isCommandWord topic then .help else .unknownCommand
  | _ => .unknownCommand

/-- The command that the arguments of a program ask for. -/
def readArguments : List String → Except UsageError Command
  | [] => .error .noCommand
  | text :: rest =>
    match shapeOf text with
    | .stop =>
      match rest with
      | [] => .error .noCommand
      | next :: _ => .error (if isCommandWord next then .unknownArgument else .unknownCommand)
    | .long word value =>
      match word, value with
      | "help", none => .error .help
      | "version", none => .error .version
      | "help", some _ | "version", some _ => .error .unwantedValue
      | _, _ => .error .unknownArgument
    | .short 'h' => .error .help
    | .short 'V' => .error .version
    | .short _ => .error .unknownArgument
    | .plain text =>
      if text = "help" then .error (readHelp rest)
      else
        match CommandName.ofWord? text with
        | none => .error .unknownCommand
        | some name => (readOptions name {} rest).map (makeCommand name)

end FlatQuery.Cli
