/-!
# Digits

The values of decimal and hexadecimal digits, and of runs of decimal digits.
-/

namespace Recast.Text

/-- The value of a decimal digit. -/
def digit? (c : Char) : Option Nat :=
  let n := c.toNat
  if 48 ≤ n ∧ n ≤ 57 then some (n - 48) else none

/-- The value of a hexadecimal digit, in either case. -/
def hexDigit? (c : Char) : Option Nat :=
  let n := c.toNat
  if 48 ≤ n ∧ n ≤ 57 then some (n - 48)
  else if 97 ≤ n ∧ n ≤ 102 then some (n - 87)
  else if 65 ≤ n ∧ n ≤ 70 then some (n - 55)
  else none

/-- The number that the digits of a run make in a base, given the value of each; `none` when one
    is no digit. -/
def numberIn? (base : Nat) (value? : Char → Option Nat) (cs : List Char) : Option Nat :=
  cs.foldlM (fun n c => (value? c).map fun d => n * base + d) 0

/-- The number written by decimal digits, of which there must be one. -/
def decimal? (cs : List Char) : Option Nat :=
  if cs.isEmpty then none else numberIn? 10 digit? cs

end Recast.Text
