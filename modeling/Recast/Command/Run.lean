import Recast.Command.Arguments
import Recast.Config.Discovery
import Recast.Document.Json
import Recast.LogFilter.Basic
import Recast.Refactoring.Json

/-!
# Running a command

A run takes a command line, the files of a machine and a little of its environment, and gives what
is written to either stream and the exit code.

* A configuration that cannot be loaded ends the run with code 2, and a log filter that is a fault
  ends it with code 101.
* `detect` reads every document it is given; one that does not load is a failure of its own and
  touches no other. The exit code is 0 when there are no failures and 1 otherwise.
-/

namespace Recast

/-- What a run leaves behind. -/
structure Outcome where
  code : Nat
  stdout : String
  /-- What is written to the error stream, each with a line break after it. -/
  errors : List String
deriving DecidableEq

/-- What parsers say of the texts that they refuse. The wording is theirs, and nothing depends on
    it. -/
structure Wording where
  /-- Of a text that is no document. -/
  document : String → String := fun _ => "not a document"
  /-- Of a text that is no configuration. -/
  config : String → String := fun _ => "not a configuration"

/-- What a run knows of its surroundings. -/
structure Surroundings where
  files : Files
  /-- The current directory. -/
  dir : String
  /-- The configuration file that the environment names. -/
  namedConfig : Option String := none
  /-- The log directives of the environment. -/
  logDirectives : Option String := none
  /-- The word of the environment that forbids styles, if it is not empty. -/
  noStyles : Option String := none
  /-- The word of the environment that asks for styles, if it is not empty. -/
  forceStyles : Option String := none
  wording : Wording := {}

/-- Whether texts are written with styles. What is written goes to no terminal, so styles must be
    asked for. -/
def Surroundings.styled (s : Surroundings) : Bool :=
  (s.noStyles.getD "").isEmpty && !(s.forceStyles.getD "").isEmpty

/-- What the parser says of the configuration file at a path. -/
def Surroundings.configWords (s : Surroundings) (path : String) : String :=
  s.wording.config ((s.files.read path).toOption.getD "")

namespace Invocation

/-- The configuration of a run, or what is said about its absence. -/
def loadConfig (inv : Invocation) (s : Surroundings) : Except String Config :=
  match inv.config with
  | some path =>
    (Config.loadFile s.files path).mapError fun e =>
      s!"loading config {path}: {e.fullMessage (s.configWords path)}"
  | none =>
    match Config.loadFor s.files s.dir s.namedConfig with
    | .ok (c, _) => .ok c
    | .error e =>
      let path := (Config.discover? s.files s.dir s.namedConfig).getD ""
      .error s!"loading config for {s.dir}: {e.fullMessage (s.configWords path)}"

/-- The difference in a document, or why it does not load. -/
def loadDocument (wording : Wording) (files : Files) (path : String) :
    Except Failure (String × Diff) :=
  match files.read path with
  | .error e => .error (.refused path s!"reading diff document: {e.message}")
  | .ok text =>
    match Document.ofText text with
    | .error e => .error (.refused path (e.fullMessage (wording.document text)))
    | .ok document =>
      match document.load with
      | .error e => .error (.refused path (e.fullMessage (wording.document text)))
      | .ok d => .ok (document.path, d)

/-- The text of what was found: a JSON array, or a line for each description. -/
def renderFound (json : Bool) (found : Refactorings) : String :=
  if json then Refactoring.listToText found.records ++ "\n"
  else String.join (found.descriptions.map (· ++ "\n"))

/-- Detection in documents. -/
def runDetect (c : Config) (wording : Wording) (files : Files) (documents : List String)
    (json : Bool) : Outcome :=
  let loaded := documents.map (loadDocument wording files)
  let diffs := loaded.filterMap Except.toOption
  let unreadable := loaded.filterMap fun r =>
    match r with
    | .error f => some f
    | .ok _ => none
  let report := detectMany diffs c.passes
  let failures := unreadable ++ report.failures
  { code := if failures.isEmpty then 0 else 1
    stdout := renderFound json report.refactorings
    errors := failures.map Failure.message }

/-- Does what is asked for under a configuration. The log filter is made before anything else. -/
def perform (action : Action) (c : Config) (s : Surroundings) : Outcome :=
  match c.logging.filter s.logDirectives with
  | .error fault => { code := 101, stdout := "", errors := [fault.message] }
  | .ok _ =>
    match action with
    | .detect documents json => runDetect c s.wording s.files documents json
    | .config =>
      match c.toText? with
      | some text => { code := 0, stdout := text, errors := [] }
      | none => { code := 2, stdout := "", errors := ["failed to serialize config"] }

/-- Runs a command line that has been read. -/
def run (inv : Invocation) (s : Surroundings) : Outcome :=
  match inv.loadConfig s with
  | .error message => { code := 2, stdout := "", errors := [message] }
  | .ok c => perform inv.action c s

/-- The files that a run may look at. -/
def paths (inv : Invocation) (dir : String) (named : Option String) : List String :=
  let configs :=
    match inv.config, named with
    | some path, _ => [path]
    | none, some path => [joinPath dir path]
    | none, none => Config.fileNames.map (joinPath dir)
  match inv.action with
  | .detect documents _ => configs ++ documents
  | .config => configs

end Invocation

/-- Runs a command line. -/
def runCommand (args : List String) (s : Surroundings) : Outcome :=
  match Invocation.ofArguments args with
  | .ok inv => inv.run s
  | .error (.shown text) => { code := 0, stdout := text.render s.styled, errors := [] }
  | .error .misused => { code := 2, stdout := "", errors := ["refmine: invalid arguments"] }

end Recast
