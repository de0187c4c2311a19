import Recast.Double
import Recast.Text.Digit
import Recast.Toml.Value

/-!
# TOML scalars

Values that are written without quotes and brackets: truth values, integers in four bases, and
numbers with a fraction and moments in time, which are checked but not kept. A scalar is a run of
letters, digits and a few marks, and is judged as a whole; only a date and a time of day may be two
runs with a space between them.
-/

namespace Recast.Toml

/-- Characters of a scalar. -/
def isScalarChar (c : Char) : Bool :=
  c.isAlphanum || c = '_' || c = '+' || c = '-' || c = '.' || c = ':'

/-- The digits of a run in which each underscore stands between two digits. -/
def ungroup? (isDigit : Char → Bool) : List Char → Option (List Char)
  | [] => none
  | [c] => if isDigit c then some [c] else none
  | c :: '_' :: cs => if isDigit c then (ungroup? isDigit cs).map (c :: ·) else none
  | c :: cs => if isDigit c then (ungroup? isDigit cs).map (c :: ·) else none

/-- The number in a base that a run of digits and underscores makes. -/
def natIn? (base : Nat) (cs : List Char) : Option Nat :=
  let value? c := (Text.hexDigit? c).bind fun d => if d < base then some d else none
  (ungroup? (fun c => (value? c).isSome) cs).bind (Text.numberIn? base value?)

/-- A decimal number without a sign; only zero itself starts with a zero. -/
def decimalNat? (cs : List Char) : Option Nat :=
  match cs with
  | '0' :: _ :: _ => none
  | cs => natIn? 10 cs

/-- An integer: decimal with or without a sign, or without a sign in base 16, 8 or 2. -/
def integer? : List Char → Option Int
  | '+' :: cs => (decimalNat? cs).map Int.ofNat
  | '-' :: cs => (decimalNat? cs).map fun n => -Int.ofNat n
  | '0' :: 'x' :: cs => (natIn? 16 cs).map Int.ofNat
  | '0' :: 'o' :: cs => (natIn? 8 cs).map Int.ofNat
  | '0' :: 'b' :: cs => (natIn? 2 cs).map Int.ofNat
  | cs => (decimalNat? cs).map Int.ofNat

/-- Integers are signed and have sixty-four bits. -/
def fits (n : Int) : Bool := -0x8000000000000000 ≤ n && n ≤ 0x7fffffffffffffff

/-! ## 1. Numbers that are no integers -/

/-- A power of ten with its mark. -/
def exponent? : List Char → Option Int
  | 'e' :: '+' :: cs | 'E' :: '+' :: cs => (natIn? 10 cs).map Int.ofNat
  | 'e' :: '-' :: cs | 'E' :: '-' :: cs => (natIn? 10 cs).map fun n => -Int.ofNat n
  | 'e' :: cs | 'E' :: cs => (natIn? 10 cs).map Int.ofNat
  | _ => none

/-- A number without a sign, with a fraction, an exponent or both: its digits, and the power of ten
    that goes with them. -/
def float? (cs : List Char) : Option (Nat × Int) := do
  let isMark c := c = 'e' || c = 'E'
  let whole := cs.takeWhile fun c => c ≠ '.' && !isMark c
  let n ← decimalNat? whole
  match cs.drop whole.length with
  | '.' :: rest =>
    let fraction := rest.takeWhile fun c => !isMark c
    let tail := rest.drop fraction.length
    let digits ← ungroup? Char.isDigit fraction
    let m ← natIn? 10 fraction
    let exponent ← if tail.isEmpty then some 0 else exponent? tail
    return (n * Nat.pow 10 digits.length + m, exponent - digits.length)
  | rest => return (n, ← exponent? rest)

/-- Whether a run is a number that is no integer. One that is too large for double precision is
    refused, though not one that is too small. -/
def isReal (cs : List Char) : Bool :=
  let (negative, body) := match cs with
    | '+' :: cs => (false, cs)
    | '-' :: cs => (true, cs)
    | cs => (false, cs)
  body = "inf".toList || body = "nan".toList ||
    match float? body with
    | some (digits, scale) => negative || Double.ofDecimal digits scale ≠ .infinite
    | none => false

/-! ## 2. Moments in time -/

/-- A number of two digits within bounds. -/
def twoDigits? (lo hi : Nat) (a b : Char) : Option Nat :=
  (Text.decimal? [a, b]).bind fun n => if lo ≤ n ∧ n ≤ hi then some n else none

/-- The number of days in a month. -/
def daysIn (year month : Nat) : Nat :=
  if month = 2 then
    if year % 4 = 0 ∧ (year % 100 ≠ 0 ∨ year % 400 = 0) then 29 else 28
  else if month = 4 ∨ month = 6 ∨ month = 9 ∨ month = 11 then 30
  else 31

/-- What follows a date. -/
def afterDate? : List Char → Option (List Char)
  | y₁ :: y₂ :: y₃ :: y₄ :: '-' :: m₁ :: m₂ :: '-' :: d₁ :: d₂ :: rest => do
    let year ← Text.decimal? [y₁, y₂, y₃, y₄]
    let month ← twoDigits? 1 12 m₁ m₂
    let _ ← twoDigits? 1 (daysIn year month) d₁ d₂
    return rest
  | _ => none

/-- What follows a time of day, which may have a fraction of a second. The last second of a minute
    may be a leap second. -/
def afterTime? : List Char → Option (List Char)
  | h₁ :: h₂ :: ':' :: m₁ :: m₂ :: ':' :: s₁ :: s₂ :: rest => do
    let _ ← twoDigits? 0 23 h₁ h₂
    let _ ← twoDigits? 0 59 m₁ m₂
    let _ ← twoDigits? 0 60 s₁ s₂
    match rest with
    | '.' :: digits =>
      let tail := digits.dropWhile Char.isDigit
      return if tail.length < digits.length then tail else rest
    | rest => return rest
  | _ => none

/-- What follows an offset from universal time, if there is one. -/
def afterZone? : List Char → Option (List Char)
  | 'Z' :: rest | 'z' :: rest => some rest
  | '+' :: h₁ :: h₂ :: ':' :: m₁ :: m₂ :: rest | '-' :: h₁ :: h₂ :: ':' :: m₁ :: m₂ :: rest => do
    let _ ← twoDigits? 0 23 h₁ h₂
    let _ ← twoDigits? 0 59 m₁ m₂
    return rest
  | rest => some rest

/-- Whether a run is a time of day after a date. -/
def isZonedTime (cs : List Char) : Bool := (afterTime? cs).bind afterZone? = some []

/-- Whether a run is a date. -/
def isDate (cs : List Char) : Bool := afterDate? cs = some []

/-- Whether a run is a date, a time of day or both. -/
def isMoment (cs : List Char) : Bool :=
  match afterDate? cs with
  | some [] => true
  | some (c :: rest) => (c = 'T' || c = 't') && isZonedTime rest
  | none => afterTime? cs = some []

/-- Whether an hour with its colon stands in front. -/
def startsTime : List Char → Bool
  | a :: b :: ':' :: _ => a.isDigit && b.isDigit
  | _ => false

/-! ## 3. Scalars -/

/-- The value of a run. -/
def runValue? (cs : List Char) : Option Toml :=
  if cs = "true".toList then some (.bool true)
  else if cs = "false".toList then some (.bool false)
  else
    match integer? cs with
    | some n => if fits n then some (.integer n) else none
    | none => if isReal cs || isMoment cs then some .other else none

/-- Reads a scalar. -/
def scalar? (cs : List Char) : Option (Toml × List Char) :=
  let run := cs.takeWhile isScalarChar
  let rest := cs.drop run.length
  match rest with
  | ' ' :: more =>
    if isDate run && startsTime more then
      let time := more.takeWhile isScalarChar
      if isZonedTime time then some (.other, more.drop time.length) else none
    else (runValue? run).map fun v => (v, rest)
  | rest => (runValue? run).map fun v => (v, rest)

end Recast.Toml
