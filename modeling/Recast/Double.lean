/-!
# Doubles

Numbers of double precision without their sign, as exact natural numbers: a double is a significand
times a power of two, or infinite.

* `roundHalfEven`: a quotient to the nearest natural number, a half to the even one;
* `Double.ofRatio`, `Double.ofDecimal`: the double nearest to a fraction or a decimal;
* `Double.shortest`: the fewest digits that read back, and of those the nearest; of two that are
  equally near the greater;
* `Double.render`: these digits without an exponent.
-/

namespace Recast

/-- A quotient to the nearest natural number, a half to the even one. -/
def roundHalfEven (num den : Nat) : Nat :=
  let q := num / den
  let r := num % den
  if den < 2 * r ∨ (2 * r = den ∧ q % 2 = 1) then q + 1 else q

/-- A number of double precision without its sign. -/
inductive Double where
  /-- `significand` times two to the power `exponent`. -/
  | finite (significand : Nat) (exponent : Int)
  | infinite
deriving DecidableEq, Repr

namespace Double

/-! ## 1. Rounding -/

/-- The number of bits of a significand. -/
def precision : Nat := 53

/-- The least exponent. -/
def minExponent : Int := -1074

/-- The greatest exponent. -/
def maxExponent : Int := 971

/-- Zero. -/
def zero : Double := .finite 0 minExponent

/-- `num / den` measured in units of two to the power `exponent`, as a fraction. -/
def inUnits (num den : Nat) (exponent : Int) : Nat × Nat :=
  (num * Nat.pow 2 (-exponent).toNat, den * Nat.pow 2 exponent.toNat)

/-- The exponent at which `num / den` has as many bits before the point as a significand has, but
    no less than the least. The logarithms leave two candidates. -/
def exponentOf (num den : Nat) : Int :=
  let guess := (num.log2 : Int) - den.log2 - (precision - 1)
  let (n, d) := inUnits num den guess
  max minExponent (if n / d < Nat.pow 2 (precision - 1) then guess - 1 else guess)

/-- The double nearest to `num / den`; of two that are equally near, the even one. -/
def ofRatio (num den : Nat) : Double :=
  if num = 0 then zero
  else
    let exponent := exponentOf num den
    let (n, d) := inUnits num den exponent
    let m := roundHalfEven n d
    let (m, exponent) := if m = Nat.pow 2 precision then (m / 2, exponent + 1) else (m, exponent)
    if maxExponent < exponent then .infinite else .finite m exponent

/-- The double nearest to `digits` times ten to the power `scale`. What is far out of range is
    decided by its size alone, so that no large power is computed for nothing. -/
def ofDecimal (digits : Nat) (scale : Int) : Double :=
  let size := (Nat.toDigits 10 digits).length + scale
  if digits = 0 ∨ size < -330 then zero
  else if 330 < size then .infinite
  else ofRatio (digits * Nat.pow 10 scale.toNat) (Nat.pow 10 (-scale).toNat)

/-- The double nearest to a natural number. -/
def ofNat (n : Nat) : Double := ofRatio n 1

/-- The product of two doubles. -/
def mul : Double → Double → Double
  | .finite m p, .finite n q =>
    let exponent := p + q
    ofRatio (m * n * Nat.pow 2 exponent.toNat) (Nat.pow 2 (-exponent).toNat)
  | _, _ => .infinite

/-! ## 2. Shortest digits -/

/-- Whether `digits` times ten to the power `scale` lies among the numbers that round to a double:
    from halfway to its neighbour below, which is half as far away when the double is a power of
    two, to halfway to its neighbour above, both ends included when the significand is even. -/
def readsBack (significand : Nat) (exponent : Int) (digits : Nat) (scale : Int) : Bool :=
  let narrow := significand = Nat.pow 2 (precision - 1) ∧ minExponent < exponent
  let lower := if narrow then 4 * significand - 1 else 4 * significand - 2
  let upper := 4 * significand + 2
  let here := digits * Nat.pow 10 scale.toNat * Nat.pow 2 (2 - exponent).toNat
  let unit := Nat.pow 2 (exponent - 2).toNat * Nat.pow 10 (-scale).toNat
  if significand % 2 = 0 then lower * unit ≤ here && here ≤ upper * unit
  else lower * unit < here && here < upper * unit

/-- Among the multiples of ten to the power `scale`, the one next to a double that reads back. -/
def digitsAt? (significand : Nat) (exponent scale : Int) : Option Nat :=
  let num := significand * Nat.pow 2 exponent.toNat * Nat.pow 10 (-scale).toNat
  let den := Nat.pow 2 (-exponent).toNat * Nat.pow 10 scale.toNat
  let below := num / den
  match readsBack significand exponent below scale,
    readsBack significand exponent (below + 1) scale with
  | true, true => some (if 2 * (num % den) < den then below else below + 1)
  | true, false => some below
  | false, true => some (below + 1)
  | false, false => none

/-- The first scale from `scale` downwards, `steps` of them at most, with digits that read back. -/
def searchDigits (significand : Nat) (exponent : Int) : (steps : Nat) → (scale : Int) → Nat × Int
  | 0, scale => (0, scale)
  | steps + 1, scale =>
    match digitsAt? significand exponent scale with
    | some digits => (digits, scale)
    | none => searchDigits significand exponent steps (scale - 1)

/-- The fewest digits that read back as a double other than zero, and their scale. -/
def shortest (significand : Nat) (exponent : Int) : Nat × Int :=
  let whole := significand * Nat.pow 2 exponent.toNat / Nat.pow 2 (-exponent).toNat
  let top : Int := (Nat.toDigits 10 whole).length
  searchDigits significand exponent 400 top

/-- Digits and their scale without an exponent: zeros fill the places up to the point or after
    it. -/
def positional (digits : Nat) (scale : Int) : List Char :=
  let ds := Nat.toDigits 10 digits
  if 0 ≤ scale then ds ++ List.replicate scale.toNat '0'
  else
    let places := (-scale).toNat
    if places < ds.length then ds.take (ds.length - places) ++ '.' :: ds.drop (ds.length - places)
    else '0' :: '.' :: List.replicate (places - ds.length) '0' ++ ds

/-- The text of a double. -/
def render : Double → String
  | .infinite => "inf"
  | .finite significand exponent =>
    if significand = 0 then "0"
    else
      let (digits, scale) := shortest significand exponent
      String.ofList (positional digits scale)

end Double

end Recast
