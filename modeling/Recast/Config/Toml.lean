import Recast.Config.Basic
import Recast.Text.Search
import Recast.Toml.Reader

/-!
# Configuration as TOML text

The keys of a configuration. Unknown keys are refused. A table may also be written as an array of
its values in order, of which those at the end may be missing and those in excess do not count.

A level is written in the plainest of five forms that can hold it; `quoteString` picks it.
-/

namespace Recast

/-! ## 1. Reading -/

namespace Toml

/-- The fields of a table, in the given order; `none` inside for one that is missing. -/
def record? (names : List String) : Toml → Option (List (Option Toml))
  | .table _ entries =>
    if entries.all fun e => names.contains e.1 then
      some (names.map fun name => entries.lookup name)
    else none
  | .array items => some (names.mapIdx fun i _ => items[i]?)
  | .tables items => some (names.mapIdx fun i _ => items.reverse[i]?)
  | _ => none

/-- A truth value, or the default. -/
def boolOr? (default : Bool) : Option Toml → Option Bool
  | none => some default
  | some (.bool b) => some b
  | some _ => none

/-- A string, or the default. -/
def stringOr? (default : String) : Option Toml → Option String
  | none => some default
  | some (.string s) => some s
  | some _ => none

/-- A natural number, or nothing. -/
def natOr? : Option Toml → Option (Option Nat)
  | none => some none
  | some (.integer n) => if 0 ≤ n then some (some n.toNat) else none
  | some _ => none

end Toml

/-- Reads the settings of detection. -/
def DetectConfig.decode? : Option Toml → Option DetectConfig
  | none => some {}
  | some t => do
    match ← t.record? ["renames", "type_changes", "threads"] with
    | [renames, typeChanges, threads] =>
      return {
        renames := ← Toml.boolOr? true renames
        typeChanges := ← Toml.boolOr? true typeChanges
        threads := ← Toml.natOr? threads }
    | _ => none

/-- Reads the settings of logging. -/
def LoggingConfig.decode? : Option Toml → Option LoggingConfig
  | none => some {}
  | some t => do
    match ← t.record? ["level", "json"] with
    | [level, json] =>
      return { level := ← Toml.stringOr? "info" level, json := ← Toml.boolOr? false json }
    | _ => none

/-- Reads a configuration. -/
def Config.decode? (t : Toml) : Option Config := do
  match ← t.record? ["detect", "logging"] with
  | [detect, logging] =>
    return { detect := ← DetectConfig.decode? detect, logging := ← LoggingConfig.decode? logging }
  | _ => none

/-- The configuration written in a text. -/
def Config.ofText? (text : String) : Option Config := (Toml.parse? text).bind Config.decode?

/-! ## 2. Writing strings -/

namespace Toml

/-- Whether a run has `n` times the same character in a row. -/
def hasRun (x : Char) (n : Nat) (cs : List Char) : Bool :=
  (Text.offsetOf? (List.replicate n x) cs).isSome

/-- Whether every character can stand as it is on one line. -/
def isOneLine (cs : List Char) : Bool := cs.all isPlain

/-- Whether every character can stand as it is on several lines. -/
def isLines (cs : List Char) : Bool := cs.all fun c => isPlain c || c = '\n'

/-- A hexadecimal digit in upper case. -/
def hexChar (n : Nat) : Char := if n < 10 then Char.ofNat (48 + n) else Char.ofNat (55 + n)

/-- A character with its escape, if it needs one. -/
def escape (c : Char) : List Char :=
  if c.toNat = 8 then ['\\', 'b']
  else if c = '\t' then ['\\', 't']
  else if c = '\n' then ['\\', 'n']
  else if c.toNat = 12 then ['\\', 'f']
  else if c = '\r' then ['\\', 'r']
  else if c = '"' then ['\\', '"']
  else if c = '\\' then ['\\', '\\']
  else if isControl c then
    ['\\', 'u', '0', '0', hexChar (c.toNat / 16), hexChar (c.toNat % 16)]
  else [c]

/-- Escapes for several lines: line feeds stay, and of quotes in a row each third is escaped.
    `quotes` counts those just before. -/
def escapeLines (quotes : Nat) : List Char → List Char
  | [] => []
  | c :: cs =>
    if c = '"' then
      if quotes = 2 then '\\' :: '"' :: escapeLines 0 cs else '"' :: escapeLines (quotes + 1) cs
    else if c = '\n' then '\n' :: escapeLines 0 cs
    else escape c ++ escapeLines 0 cs

/-- The line break after opening quotes, for a string of several lines. -/
def openingBreak (cs : List Char) : List Char := if cs.contains '\n' then ['\n'] else []

/-- A string between quotes, in the first of these forms that can hold it: basic without
    backslashes and quotes; literal; the same two over several lines; and basic with escapes. -/
def quoteString (cs : List Char) : List Char :=
  let q := '"'
  let a := '\x27'
  if isOneLine cs && !cs.contains '\\' && !cs.contains q then
    q :: cs.flatMap escape ++ [q]
  else if isOneLine cs && !cs.contains a then a :: cs ++ [a]
  else if isLines cs && !cs.contains '\\' && !hasRun q 3 cs then
    [q, q, q] ++ openingBreak cs ++ escapeLines 0 cs ++ [q, q, q]
  else if isLines cs && !hasRun a 3 cs then
    [a, a, a] ++ openingBreak cs ++ cs ++ [a, a, a]
  else if cs.contains '\n' then
    [q, q, q] ++ openingBreak cs ++ escapeLines 0 cs ++ [q, q, q]
  else q :: cs.flatMap escape ++ [q]

end Toml

/-! ## 3. Writing configurations -/

/-- A line with a key and its value. -/
def keyLine (key : String) (value : String) : String := key ++ " = " ++ value ++ "\n"

/-- A truth value. -/
def boolText (b : Bool) : String := if b then "true" else "false"

/-- The text of a configuration. -/
def Config.toText (c : Config) : String :=
  "[detect]\n" ++ keyLine "renames" (boolText c.detect.renames) ++
    keyLine "type_changes" (boolText c.detect.typeChanges) ++
    (match c.detect.threads with
      | some n => keyLine "threads" (String.ofList (Nat.toDigits 10 n))
      | none => "") ++
    "\n[logging]\n" ++
    keyLine "level" (String.ofList (Toml.quoteString c.logging.level.toList)) ++
    keyLine "json" (boolText c.logging.json)

/-- The text of a configuration, unless its number of threads is past the largest integer. -/
def Config.toText? (c : Config) : Option String :=
  if c.detect.threads.all fun (n : Nat) => Toml.fits n then some c.toText else none

end Recast
