import MemberNames.Text.Basic

/-!
# Command line

Options that every command shares may stand before or behind the name of the command; the place
behind it has precedence. Each option but the verbosity may be given once at either place. Two
hyphens end the options.

* `Arguments.Command`: the commands with their values
* `Arguments.parse`: what a list of arguments asks for
-/

namespace MemberNames
namespace Arguments

/-- A command and its values. -/
inductive Command where
  | normalize (names : List Text)
  | check (quiet : Bool)
  | encode (name : Text)
  | decode (hex : Text)
  deriving DecidableEq, Repr

/-- A command with the options that every command shares. -/
structure Invocation where
  /-- The path of a configuration file. -/
  config : Option Text
  json : Bool
  /-- How many times more log output was asked for; the reports do not depend on it. -/
  verbosity : Nat
  command : Command
  deriving DecidableEq, Repr

/-- What a list of arguments asks for. -/
inductive Request where
  | run (invocation : Invocation)
  | version
  | help
  | usageError
  deriving DecidableEq, Repr

/-! ## Places for options -/

/-- Where an option stands: before the name of a command, or behind it. -/
inductive Place where
  | front
  | normalize
  | check
  | encode
  | decode
  deriving DecidableEq, Repr

namespace Place

def ofName? (s : Text) : Option Place :=
  [("normalize", normalize), ("check", check), ("encode", encode), ("decode", decode)].findSome?
    fun (name, place) => if name.toList = s then some place else none

/-- How many values a command may have. -/
def capacity? : Place → Option Nat
  | .normalize => none
  | .encode | .decode => some 1
  | .front | .check => some 0

end Place

/-- The options without a value. -/
inductive Flag where
  | verbose
  | json
  | quiet
  | version
  | help
  deriving DecidableEq, Repr

namespace Flag

/-- Whether the flag is known at the place. -/
def isKnown (place : Place) : Flag → Bool
  | .verbose | .json | .help => true
  | .quiet => place = .check
  | .version => place = .front

def ofLongName? (place : Place) (name : Text) : Option Flag :=
  [("verbose", verbose), ("json", json), ("quiet", quiet), ("version", version),
    ("help", help)].findSome? fun (long, flag) =>
      if long.toList = name && flag.isKnown place then some flag else none

def ofLetter? (place : Place) (letter : Char) : Option Flag :=
  [('v', verbose), ('q', quiet), ('V', version), ('h', help)].findSome? fun (short, flag) =>
    if short = letter && flag.isKnown place then some flag else none

end Flag

/-! ## Options that have been read -/

/-- The options and values that have been read at a place. -/
structure Seen where
  config : Option Text
  json : Bool
  quiet : Bool
  verbosity : Nat
  values : List Text

namespace Seen

def empty : Seen :=
  ⟨none, false, false, 0, []⟩

def addFlag (seen : Seen) : Flag → Except Request Seen
  | .verbose => .ok { seen with verbosity := seen.verbosity + 1 }
  | .json => if seen.json then .error .usageError else .ok { seen with json := true }
  | .quiet => if seen.quiet then .error .usageError else .ok { seen with quiet := true }
  | .version => .error .version
  | .help => .error .help

/-- Adds the letters behind one hyphen. -/
def addLetters (place : Place) (seen : Seen) (letters : Text) : Except Request Seen :=
  letters.foldlM (fun seen letter =>
    match Flag.ofLetter? place letter with
    | none => .error .usageError
    | some flag => seen.addFlag flag) seen

def addConfig (seen : Seen) (path : Text) : Except Request Seen :=
  if seen.config.isSome || path.isEmpty then .error .usageError
  else .ok { seen with config := some path }

def addValue (place : Place) (seen : Seen) (value : Text) : Except Request Seen :=
  if place.capacity?.any (· ≤ seen.values.length) then .error .usageError
  else .ok { seen with values := seen.values ++ [value] }

/-- The command at a place with what has been read there and in front. -/
def request (front : Seen) (place : Place) (seen : Seen) : Request :=
  let run (command : Command) : Request :=
    .run {
      config := seen.config <|> front.config
      json := seen.json || front.json
      verbosity := if seen.verbosity = 0 then front.verbosity else seen.verbosity
      command
    }
  match place, seen.values with
  | .normalize, name :: names => run (.normalize (name :: names))
  | .check, [] => run (.check seen.quiet)
  | .encode, [name] => run (.encode name)
  | .decode, [hex] => run (.decode hex)
  | _, _ => .usageError

end Seen

/-! ## Arguments -/

/-- The kinds of arguments. -/
inductive Argument where
  | terminator
  | long (name : Text) (value : Option Text)
  | letters (s : Text)
  | value (s : Text)

/-- A lone hyphen is a value. -/
def Argument.ofText : Text → Argument
  | ['-', '-'] => .terminator
  | '-' :: '-' :: s =>
    match Text.splitFirst '=' s with
    | none => .long s none
    | some (name, given) => .long name (some given)
  | '-' :: c :: s => .letters (c :: s)
  | s => .value s

def Argument.isValue : Argument → Bool
  | .value _ => true
  | _ => false

def configName : Text :=
  "config".toList

/-- Adds an option that needs no further argument. -/
def addOption (place : Place) (seen : Seen) (name : Text) (value : Option Text) :
    Except Request Seen :=
  match value with
  | some path => if name = configName then seen.addConfig path else .error .usageError
  | none =>
    match Flag.ofLongName? place name with
    | none => .error .usageError
    | some flag => seen.addFlag flag

/-- Reads the arguments behind the name of a command. -/
def readCommand (place : Place) (seen : Seen) : List Text → Except Request Seen
  | [] => .ok seen
  | arg :: args =>
    match Argument.ofText arg with
    | .terminator => args.foldlM (Seen.addValue place) seen
    | .value s => do readCommand place (← seen.addValue place s) args
    | .letters s => do readCommand place (← seen.addLetters place s) args
    | .long name value =>
      if name = configName && value.isNone then
        match args with
        | [] => .error .usageError
        | path :: args =>
          if (Argument.ofText path).isValue then do
            readCommand place (← seen.addConfig path) args
          else .error .usageError
      else do readCommand place (← addOption place seen name value) args

/-- What the word `help` and the arguments behind it ask for. -/
def helpRequest : List Text → Request
  | [] => .help
  | [name] => if (Place.ofName? name).isSome || name = "help".toList then .help else .usageError
  | _ => .usageError

/-- Reads the arguments up to the name of a command, and those behind it. -/
def readFront (seen : Seen) : List Text → Request
  | [] => .usageError
  | arg :: args =>
    match Argument.ofText arg with
    | .terminator => .usageError
    | .value s =>
      match Place.ofName? s with
      | none => if s = "help".toList then helpRequest args else .usageError
      | some place =>
        match readCommand place .empty args with
        | .error request => request
        | .ok here => Seen.request seen place here
    | .letters s =>
      match seen.addLetters .front s with
      | .error request => request
      | .ok seen => readFront seen args
    | .long name value =>
      if name = configName && value.isNone then
        match args with
        | [] => .usageError
        | path :: args =>
          if (Argument.ofText path).isValue then
            match seen.addConfig path with
            | .error request => request
            | .ok seen => readFront seen args
          else .usageError
      else
        match addOption .front seen name value with
        | .error request => request
        | .ok seen => readFront seen args

def parse (args : List Text) : Request :=
  readFront .empty args

/-- The answer to a request for the version. -/
def versionLine : Text :=
  "mxn 0.1.0\n".toList

/-- The answer to a request for help. -/
def helpText : Text :=
  "Usage: mxn [OPTIONS] <COMMAND>\n\nCommands:\n  normalize <NAME>...\n  check [-q]\n".toList ++
    "  encode <NAME>\n  decode <HEX>\n\nOptions: -v, --config <CONFIG>, --json, -h, -V\n".toList

end Arguments
end MemberNames
