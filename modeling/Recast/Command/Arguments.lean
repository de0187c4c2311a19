import Recast.Command.Help

/-!
# Command lines

What a command line asks for. There are two commands: `detect` with one or more documents, and
`config`. The option that names a configuration file may stand before or after the command, and the
one after it counts.

* `Invocation.ofArguments` reads a command line from left to right; the first thing that ends it
  early, a request for help or a mistake, decides.
-/

namespace Recast

/-- What is to be done. -/
inductive Action where
  | detect (documents : List String) (json : Bool)
  | config
deriving DecidableEq

/-- A command line that can be run. -/
structure Invocation where
  /-- The configuration file that was named. -/
  config : Option String
  action : Action
deriving DecidableEq

/-- A command line that cannot be run. -/
inductive EarlyEnd where
  /-- A text was asked for. -/
  | shown (text : Help)
  /-- Something is wrong with the arguments. -/
  | misused
deriving DecidableEq

namespace Arguments

/-! ## 1. Options -/

/-- An argument that starts with a hyphen and is more than that. -/
def isOption (arg : String) : Bool :=
  match arg.toList with
  | '-' :: _ :: _ => true
  | _ => false

/-- The value of an argument `name=value`. -/
def attached? (name arg : String) : Option String :=
  let start := (name ++ "=").toList
  if start.isPrefixOf arg.toList then some (String.ofList (arg.toList.drop start.length)) else none

/-- A short option, possibly with more of them behind it: the first decides. -/
def startsShort (c : Char) (arg : String) : Bool :=
  match arg.toList with
  | '-' :: d :: _ => c = d
  | _ => false

/-- The path of a configuration file, which must not be empty and stand only once. -/
def setConfig (config : Option String) (path : String) : Except EarlyEnd (Option String) :=
  if path.isEmpty ∨ config.isSome then .error .misused else .ok (some path)

/-! ## 2. Commands -/

/-- Reads the arguments of `detect`. -/
def detect (config : Option String) (json : Bool) (documents : List String) :
    List String → Except EarlyEnd (Option String × Action)
  | [] =>
    if documents.isEmpty then .error .misused else .ok (config, .detect documents.reverse json)
  | "--" :: rest =>
    let documents := documents.reverse ++ rest
    if documents.isEmpty ∨ rest.any String.isEmpty then .error .misused
    else .ok (config, .detect documents json)
  | "--json" :: rest => if json then .error .misused else detect config true documents rest
  | ["--config"] => .error .misused
  | "--config" :: path :: rest =>
    if isOption path then .error .misused
    else
      match setConfig config path with
      | .ok config => detect config json documents rest
      | .error e => .error e
  | "--help" :: _ => .error (.shown .onDetect)
  | arg :: rest =>
    if isOption arg then
      match attached? "--config" arg with
      | some path =>
        match setConfig config path with
        | .ok config => detect config json documents rest
        | .error e => .error e
      | none => .error (if startsShort 'h' arg then .shown .onDetect else .misused)
    else if arg.isEmpty then .error .misused
    else detect config json (arg :: documents) rest

/-- Reads the arguments of `config`. -/
def config (named : Option String) : List String → Except EarlyEnd (Option String × Action)
  | [] => .ok (named, .config)
  | ["--"] => .ok (named, .config)
  | ["--config"] => .error .misused
  | "--config" :: path :: rest =>
    if isOption path then .error .misused
    else
      match setConfig named path with
      | .ok named => config named rest
      | .error e => .error e
  | "--help" :: _ => .error (.shown .onConfig)
  | arg :: rest =>
    match attached? "--config" arg with
    | some path =>
      match setConfig named path with
      | .ok named => config named rest
      | .error e => .error e
    | none => .error (if startsShort 'h' arg then .shown .onConfig else .misused)

/-- Reads the arguments of `help`. -/
def helpOn : List String → EarlyEnd
  | [] => .shown .onProgram
  | ["help"] => .shown .onHelp
  | ["detect"] => .shown .onDetect
  | ["config"] => .shown .onConfig
  | _ => .misused

/-- Reads a command and its arguments, if one stands first. -/
def command? : List String → Option (Except EarlyEnd (Option String × Action))
  | "detect" :: rest => some (detect none false [] rest)
  | "config" :: rest => some (config none rest)
  | "help" :: rest => some (.error (helpOn rest))
  | _ => none

/-- Reads the arguments before a command, and the command. A path that stands by itself right before
    the command is looked at only after the command; a path behind the command counts for more. -/
def top (named : Option String) (args : List String) : Except EarlyEnd Invocation :=
  match command? args with
  | some outcome => outcome.map fun (inner, action) => ⟨inner.or named, action⟩
  | none =>
    match args with
    | [] | ["--config"] => .error .misused
    | "--help" :: _ => .error (.shown .onProgram)
    | "--version" :: _ => .error (.shown .version)
    | "--config" :: path :: rest =>
      if isOption path then .error .misused
      else
        match command? rest, setConfig named path with
        | some (.error e), _ | _, .error e => .error e
        | _, .ok named => top named rest
    | arg :: rest =>
      match attached? "--config" arg with
      | some path =>
        match setConfig named path with
        | .ok named => top named rest
        | .error e => .error e
      | none =>
        .error
          (if startsShort 'h' arg then .shown .onProgram
           else if startsShort 'V' arg then .shown .version
           else .misused)
termination_by args.length

end Arguments

/-- What a command line asks for. -/
def Invocation.ofArguments (args : List String) : Except EarlyEnd Invocation :=
  Arguments.top none args

end Recast
