import Recast.Text.Digit

/-!
# Log levels

How much is logged, from nothing to everything. A level is written by its name in any case, or by
its number from the quietest on.
-/

namespace Recast

/-- How much is logged. -/
inductive LogLevel where
  | off | error | warn | info | debug | trace
deriving DecidableEq

namespace LogLevel

/-- Every level, from the quietest on. -/
def all : List LogLevel := [.off, .error, .warn, .info, .debug, .trace]

/-- The name of a level. -/
def name : LogLevel → String
  | .off => "off"
  | .error => "error"
  | .warn => "warn"
  | .info => "info"
  | .debug => "debug"
  | .trace => "trace"

/-- A run with its ASCII letters in lower case. -/
def lower (cs : List Char) : List Char := cs.map Char.toLower

/-- A level by its number from the quietest on. -/
def ofNumber? (cs : List Char) : Option LogLevel :=
  let digits := match cs with
    | '+' :: cs => cs
    | cs => cs
  (Text.decimal? digits).bind fun n => all[n]?

/-- A level by its name in any case, or by its number. -/
def ofChars? (cs : List Char) : Option LogLevel :=
  (ofNumber? cs).or (all.find? fun l => l.name.toList == lower cs)

end LogLevel

end Recast
