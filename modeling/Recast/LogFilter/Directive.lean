import Recast.Fault
import Recast.LogFilter.FieldMatch

/-!
# Log directives

A directive sets the level for everything, for a target, for a span, for a field, or for a
combination of these: `target[span{field=value}]=level`, where every part may be missing. Without a
level it is the loudest.

A directive is read from left to right without the blanks around it, but its parts are cut out of
the text with the blanks, by the offsets that were counted without them. So blanks at the front
shift every part, and a cut can fall inside a character.
-/

namespace Recast

/-- A level, and what it is for. -/
structure Directive where
  target : Option String := none
  span : Option String := none
  field : Option FieldMatch := none
  level : LogLevel := .trace
deriving DecidableEq

/-- Why a text is no directive. -/
inductive Refusal where
  /-- It makes no sense. -/
  | senseless
  /-- It cannot be taken apart. -/
  | broken (e : Text.CutError)
deriving DecidableEq

namespace Directive

/-! ## 1. Reading -/

/-- What is being read, and where it starts. -/
inductive Stage where
  | start
  /-- A level or a target. -/
  | name (start : Nat)
  | span (start : Nat)
  | field (start : Nat)
  /-- After the brace that closes the field. -/
  | fieldEnd
  /-- After the bracket that closes the span. -/
  | spanEnd
  | level (start : Nat)
deriving DecidableEq

/-- Whether a directive may start with this character. -/
def isStart (c : Char) : Bool := c = '-' || c = ':' || c = '_' || Text.isAlphanumeric c

/-- A part of the whole text. -/
def part (text : List Char) (start stop : Nat) : Except Refusal (List Char) :=
  (Text.cut text start stop).mapError .broken

/-- Reads one character, which stands at `offset`. -/
def step (text : List Char) (offset : Nat) (stage : Stage) (d : Directive) (c : Char) :
    Except Refusal (Stage × Directive) :=
  match stage with
  | .start =>
    if c = '[' then .ok (.span (offset + 1), d)
    else if isStart c then .ok (.name offset, d)
    else .error .senseless
  | .name start =>
    if c = '=' then
      (part text start offset).map fun t =>
        (.level (offset + 1), { d with target := some (String.ofList t) })
    else if c = '[' then
      (part text start offset).map fun t =>
        (.span (offset + 1), { d with target := some (String.ofList t) })
    else .ok (stage, d)
  | .span start =>
    if c = ']' then
      (part text start offset).map fun s => (.spanEnd, { d with span := some (String.ofList s) })
    else if c = '\x7b' then
      (part text start offset).map fun s =>
        (.field (offset + 1), { d with span := if s.isEmpty then none else some (String.ofList s) })
    else .ok (stage, d)
  | .field start =>
    if c = '\x7d' then
      (part text start offset).bind fun t =>
        if t.isEmpty then .error .senseless
        else
          match FieldMatch.ofChars? t with
          | some f => .ok (.fieldEnd, { d with field := some f })
          | none => .error .senseless
    else .ok (stage, d)
  | .fieldEnd => if c = ']' then .ok (.spanEnd, d) else .error .senseless
  | .spanEnd => if c = '=' then .ok (.level (offset + 1), d) else .error .senseless
  | .level _ => .ok (stage, d)

/-- Reads characters one after the other, the first of which stands at `offset`. -/
def run (text : List Char) (offset : Nat) (stage : Stage) (d : Directive) :
    List Char → Except Refusal (Stage × Directive)
  | [] => .ok (stage, d)
  | c :: cs =>
    match step text offset stage d c with
    | .ok (stage, d) => run text (offset + c.utf8Size) stage d cs
    | .error e => .error e

/-- What a text amounts to that ends here. A name that is no level is a target. -/
def finish (text : List Char) (stage : Stage) (d : Directive) : Except Refusal Directive :=
  match stage with
  | .name start =>
    (part text start (Text.bytes text)).map fun t =>
      match LogLevel.ofChars? t with
      | some level => { d with level }
      | none => { d with target := some (String.ofList t) }
  | .level start =>
    (part text start (Text.bytes text)).bind fun t =>
      if t.isEmpty then .ok d
      else
        match LogLevel.ofChars? t with
        | some level => .ok { d with level }
        | none => .error .senseless
  | .spanEnd => .ok d
  | .start | .span _ | .field _ | .fieldEnd => .error .senseless

/-- Reads a directive. -/
def ofChars (text : List Char) : Except Refusal Directive :=
  (run text 0 .start {} (Text.trim text)).bind fun (stage, d) => finish text stage d

/-! ## 2. Writing -/

/-- Whether two directives are for the same. -/
def same (d e : Directive) : Bool :=
  d.target = e.target && d.span = e.span &&
    match d.field, e.field with
    | some f, some g => f.same g
    | none, none => true
    | _, _ => false

/-- The text of a directive. -/
def render (d : Directive) : String :=
  let field := match d.field with
    | some f => "\x7b" ++ f.render ++ "\x7d"
    | none => ""
  let span := if d.span.isSome ∨ d.field.isSome then "[" ++ d.span.getD "" ++ field ++ "]" else ""
  let place := d.target.getD "" ++ span
  if d.target.isNone ∧ span = "" then d.level.name else place ++ "=" ++ d.level.name

end Directive

end Recast
