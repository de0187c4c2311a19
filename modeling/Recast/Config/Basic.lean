import Recast.Detect

/-!
# Configuration

Which passes run, on how many threads, and what is logged. Every setting has a default, so that no
configuration at all is one too.
-/

namespace Recast

/-- Which passes run, and on how many threads. The number of threads never changes what is found. -/
structure DetectConfig where
  renames : Bool := true
  typeChanges : Bool := true
  threads : Option Nat := none
deriving DecidableEq

/-- What is logged: a level, or directives for parts of the program. -/
structure LoggingConfig where
  level : String := "info"
  json : Bool := false
deriving DecidableEq

/-- The configuration of a run. -/
structure Config where
  detect : DetectConfig := {}
  logging : LoggingConfig := {}
deriving DecidableEq

/-- The passes that a configuration asks for. -/
def Config.passes (c : Config) : Passes :=
  { renames := c.detect.renames, typeChanges := c.detect.typeChanges }

end Recast
