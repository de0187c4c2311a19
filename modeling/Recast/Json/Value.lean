import Recast.Double

/-!
# JSON values

A JSON value as it was written: fields keep their order and may repeat, and a number keeps the way
it was spelled as far as that matters later.

Strings are the one place where a well-formed text can fail to mean anything: escapes may name half
of a surrogate pair. Such a string is `none`; it may stand where nobody reads it.
-/

namespace Recast

/-- A number as it was written, with its sign. -/
structure Json.Number where
  negative : Bool
  /-- The digits before and after the point. -/
  mantissa : Nat
  /-- How many of them stand after the point. -/
  places : Nat
  exponent : Int
  /-- Whether it was written with digits only, without fraction and exponent. -/
  whole : Bool
deriving DecidableEq, Repr

/-- A JSON value. -/
inductive Json where
  | null
  | bool (b : Bool)
  | number (n : Json.Number)
  | string (s : Option String)
  | array (items : List Json)
  | object (fields : List (Option String × Json))

namespace Json

/-! ## 1. Numbers -/

/-- A natural number, written with digits only. -/
def Number.ofNat (n : Nat) : Number := ⟨false, n, 0, 0, true⟩

/-- The natural number that was written; a sign, a fraction or an exponent makes it another
    number, also where the value would be the same. -/
def Number.nat? (n : Number) : Option Nat := if n.whole && !n.negative then some n.mantissa else none

@[simp] theorem Number.nat?_ofNat (n : Nat) : (Number.ofNat n).nat? = some n := rfl

/-- Reads digits into a word of sixty-four bits as far as they fit: the word, and how many digits
    are left over. -/
def fillWord (word : Nat) : List Nat → Nat × Nat
  | [] => (word, 0)
  | d :: ds =>
    if word * 10 + d < Nat.pow 2 64 then fillWord (word * 10 + d) ds else (word, ds.length + 1)

/-- A number by as many of its digits as fit into a word, and the power of ten that goes with them.
    Digits before the point that do not fit count in the power; those after it are dropped. -/
def Number.leading (n : Number) : Nat × Int :=
  let digits := (Nat.toDigits 10 n.mantissa).map fun c => c.toNat - '0'.toNat
  let before := digits.length - n.places
  let (word, more) := fillWord 0 (digits.take before)
  let (word, dropped) := fillWord word (digits.drop before)
  (word, n.exponent + more - (n.places - dropped : Nat))

/-- Whether a number can be held in double precision: the product of its leading digits and their
    power of ten, each rounded first, is finite. A power of ten that is no double itself is too
    large. -/
def Number.finite (n : Number) : Bool :=
  let (word, scale) := n.leading
  if word = 0 ∨ scale < 0 then true
  else if 308 < scale then false
  else (Double.ofNat word).mul (.ofDecimal 1 scale) ≠ .infinite

/-! ## 2. Short forms -/

/-- A string that means something. -/
def str (s : String) : Json := .string (some s)

/-- A natural number. -/
def nat (n : Nat) : Json := .number (.ofNat n)

/-- An object with the given fields. -/
def obj (fields : List (String × Json)) : Json := .object (fields.map fun (k, v) => (some k, v))

/-- `null` for an absent value. -/
def orNull : Option Json → Json
  | some j => j
  | none => .null

end Json

end Recast
