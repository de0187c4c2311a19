import Recast.Double
import Recast.LogFilter.Level
import Recast.LogFilter.Pattern.Basic

/-!
# Conditions on fields

A directive may ask for a field by name, and for its value: a truth value, a number, or a pattern
for everything that is neither. A value is written back in its simplest form.
-/

namespace Recast

/-- The value that a field must have. -/
inductive FieldValue where
  | bool (b : Bool)
  | natural (n : Nat)
  /-- A whole number that was written with a minus sign. -/
  | integer (n : Int)
  | real (negative : Bool) (d : Double)
  | notANumber
  /-- The value must match a pattern. -/
  | pattern (text : List Char)
deriving DecidableEq

namespace FieldValue

/-! ## 1. Numbers -/

/-- A number without a sign, with or without a point and an exponent: its digits, and the power of
    ten that goes with them. At least one digit stands before or after the point. -/
def decimal? (cs : List Char) : Option (Nat × Int) := do
  let before := cs.takeWhile Char.isDigit
  let rest := cs.drop before.length
  let (after, rest) := match rest with
    | '.' :: more =>
      let after := more.takeWhile Char.isDigit
      (after, more.drop after.length)
    | rest => ([], rest)
  let digits ← Text.decimal? (before ++ after)
  let exponent : Int ← match rest with
    | [] => some 0
    | c :: rest =>
      if c = 'e' ∨ c = 'E' then
        match rest with
        | '+' :: ds => (Text.decimal? ds).map Int.ofNat
        | '-' :: ds => (Text.decimal? ds).map fun n => -Int.ofNat n
        | ds => (Text.decimal? ds).map Int.ofNat
      else none
  return (digits, exponent - after.length)

/-- A sign at the front, and what it belongs to. -/
def splitSign : List Char → Bool × List Char
  | '+' :: cs => (false, cs)
  | '-' :: cs => (true, cs)
  | cs => (false, cs)

/-- A natural number of sixty-four bits, with or without a plus sign. -/
def natural? (cs : List Char) : Option FieldValue :=
  match splitSign cs with
  | (false, digits) =>
    (Text.decimal? digits).bind fun n => if n ≤ 0xffffffffffffffff then some (.natural n) else none
  | (true, _) => none

/-- A whole number of sixty-four bits with a minus sign. -/
def integer? (cs : List Char) : Option FieldValue :=
  match splitSign cs with
  | (true, digits) =>
    (Text.decimal? digits).bind fun n =>
      if n ≤ 0x8000000000000000 then some (.integer (-n)) else none
  | (false, _) => none

/-- A number of double precision. -/
def real? (cs : List Char) : Option FieldValue :=
  let (negative, body) := splitSign cs
  let name := String.ofList (LogLevel.lower body)
  if name = "nan" then some .notANumber
  else if name = "inf" ∨ name = "infinity" then some (.real negative .infinite)
  else (decimal? body).map fun (digits, scale) => .real negative (.ofDecimal digits scale)

/-! ## 2. Values -/

/-- Reads a value; `none` when it is not even a pattern. -/
def ofChars? (cs : List Char) : Option FieldValue :=
  if cs = "true".toList then some (.bool true)
  else if cs = "false".toList then some (.bool false)
  else
    ((natural? cs).or ((integer? cs).or (real? cs))).or
      (if Pattern.isValid cs then some (.pattern cs) else none)

/-- Whether two values ask for the same: a zero has no sign here. -/
def same : FieldValue → FieldValue → Bool
  | .real s d, .real t e => d = e && (s = t || d = .zero)
  | v, w => v = w

/-- The text of a value. -/
def render : FieldValue → String
  | .bool b => if b then "true" else "false"
  | .natural n => String.ofList (Nat.toDigits 10 n)
  | .integer n => if n = 0 then "0" else "-" ++ String.ofList (Nat.toDigits 10 n.natAbs)
  | .real negative d => (if negative then "-" else "") ++ d.render
  | .notANumber => "NaN"
  | .pattern text => String.ofList text

end FieldValue

/-- A condition on a field. -/
structure FieldMatch where
  name : String
  value : Option FieldValue
deriving DecidableEq

namespace FieldMatch

/-- Reads a condition: a name, or a name and a value with an equals sign between them. What follows
    a second equals sign does not count. -/
def ofChars? (cs : List Char) : Option FieldMatch :=
  let name := cs.takeWhile (· ≠ '=')
  match cs.drop name.length with
  | [] => some ⟨String.ofList name, none⟩
  | _ :: rest =>
    (FieldValue.ofChars? (rest.takeWhile (· ≠ '='))).map fun v => ⟨String.ofList name, some v⟩

/-- Whether two conditions ask for the same. -/
def same (f g : FieldMatch) : Bool :=
  f.name = g.name &&
    match f.value, g.value with
    | some v, some w => v.same w
    | none, none => true
    | _, _ => false

/-- The text of a condition. -/
def render (f : FieldMatch) : String :=
  match f.value with
  | some v => f.name ++ "=" ++ v.render
  | none => f.name

end FieldMatch

end Recast
