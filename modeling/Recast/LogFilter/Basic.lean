import Recast.Config.Basic
import Recast.LogFilter.Directive

/-!
# Log filters

What is logged is decided by directives with commas between them. The directives of the
configuration come first and those of the environment after them; of two for the same the later
holds.

A directive that makes no sense spoils the whole text it is in. Then the directives of the
environment stand alone, or else those of the configuration, or else the level `info`. A directive
that cannot be taken apart is a fault.
-/

namespace Recast

/-- A filter: directives for different things. -/
abbrev LogFilter := List Directive

namespace LogFilter

/-- Adds a directive in place of the one for the same. -/
def add (f : LogFilter) (d : Directive) : LogFilter := f.filter (fun e => !e.same d) ++ [d]

/-- Splits a text at its commas, `piece` being the piece read so far in reverse. -/
def piecesAux (piece : List Char) : List Char → List (List Char)
  | [] => [piece.reverse]
  | c :: cs =>
    if c = ',' then piece.reverse :: piecesAux [] cs else piecesAux (c :: piece) cs

/-- The pieces of a text between its commas; those without a character do not count. -/
def pieces (cs : List Char) : List (List Char) := (piecesAux [] cs).filter (· ≠ [])

/-- Adds the directives of pieces one after the other, up to the first that is none. -/
def addPieces (f : LogFilter) : List (List Char) → Except Refusal LogFilter
  | [] => .ok f
  | p :: ps =>
    match Directive.ofChars p with
    | .ok d => (f.add d).addPieces ps
    | .error e => .error e

/-- The filter of a text: `none` when it makes no sense. -/
def ofText? (s : String) : Except Fault (Option LogFilter) :=
  match addPieces [] (pieces s.toList) with
  | .ok f => .ok (some f)
  | .error .senseless => .ok none
  | .error (.broken e) => .error (.badCut e)

/-- The texts of the directives, in order and each once; a filter without directives has an empty
    text. -/
def render (f : LogFilter) : List String :=
  if f.isEmpty then [""] else ((f.map Directive.render).mergeSort fun a b => a ≤ b).eraseDups

end LogFilter

namespace LoggingConfig

/-- The directives that a configured level stands for: the names of levels in any case, with one
    more name for `warn`, no text at all for `info`, and anything else for itself. -/
def directives (c : LoggingConfig) : String :=
  let level := Text.trim c.level.toList
  let name := String.ofList (LogLevel.lower level)
  if level.isEmpty then "info"
  else if (LogLevel.all.map LogLevel.name).contains name then name
  else if name = "warning" then "warn"
  else String.ofList level

/-- The filter of the configuration alone. -/
def ownFilter (c : LoggingConfig) : Except Fault LogFilter :=
  (LogFilter.ofText? c.directives).map fun f => f.getD [{ level := .info }]

/-- The filter of the configuration with the directives of the environment. -/
def filter (c : LoggingConfig) (environment : Option String) : Except Fault LogFilter :=
  match environment.map Text.trimmed with
  | none | some "" => c.ownFilter
  | some directives => do
    match ← LogFilter.ofText? s!"{c.directives},{directives}" with
    | some f => return f
    | none =>
      match ← LogFilter.ofText? directives with
      | some f => return f
      | none => c.ownFilter

end LoggingConfig

end Recast
