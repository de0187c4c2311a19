import Recast.Config.Toml
import Recast.Files

/-!
# Where the configuration comes from

A configuration file can be named by the environment; otherwise a directory has it under one of two
names, or there is none and the defaults hold.
-/

namespace Recast

/-- Why there is no configuration. -/
inductive ConfigError where
  | unreadable (path : String) (cause : ReadError)
  | notConfig
deriving DecidableEq

namespace ConfigError

/-- The wording of a configuration error, without what the parser says of the text. -/
def message : ConfigError → String
  | .unreadable path cause => s!"failed to read config file {path}: {cause.message}"
  | .notConfig => "failed to parse toml config"

/-- The wording of a configuration error followed by its cause; `words` are what the parser says of
    the text. -/
def fullMessage (words : String) : ConfigError → String
  | .unreadable path cause =>
    s!"{(ConfigError.unreadable path cause).message}: {cause.message}"
  | .notConfig => s!"{ConfigError.notConfig.message}: {words}"

end ConfigError

namespace Config

/-- The names a configuration file may have in its directory, the first one first. -/
def fileNames : List String := ["refmine.toml", ".refmine.toml"]

/-- The configuration file for a directory: the one named by the environment, whether it is there
    or not, or else the first of the usual ones that is there. -/
def discover? (files : Files) (dir : String) (named : Option String) : Option String :=
  match named with
  | some path => some (joinPath dir path)
  | none => (fileNames.map (joinPath dir)).find? files.isFile

/-- Reads a configuration file. -/
def loadFile (files : Files) (path : String) : Except ConfigError Config :=
  match files.read path with
  | .error cause => .error (.unreadable path cause)
  | .ok text =>
    match ofText? text with
    | some c => .ok c
    | none => .error .notConfig

/-- The configuration for a directory, and the file it comes from if there is one. -/
def loadFor (files : Files) (dir : String) (named : Option String) :
    Except ConfigError (Config × Option String) :=
  match discover? files dir named with
  | none => .ok ({}, none)
  | some path => (loadFile files path).map fun c => (c, some path)

end Config

end Recast
