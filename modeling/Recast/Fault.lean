import Recast.Text.Cut

/-!
# Faults

A fault is a request that a function cannot answer because the caller broke its side of the
bargain: a node number that the tree does not have, a line that a table of lines does not have, a
range whose ends are in the wrong order, a cut through a character, or a collaborator that gave up.
Faults are values, so that what runs next can contain them.
-/

namespace Recast

/-- What went wrong inside a computation. -/
inductive Fault where
  /-- Node `index` was asked of a tree with `size` nodes. -/
  | missingNode (size index : Nat)
  /-- Line `index` was asked of a table of `size` lines. -/
  | missingLine (size index : Nat)
  /-- A table of lines was used with a text of another length. -/
  | foreignText (length expected : Nat)
  /-- A range whose start is past its end. -/
  | reversedRange
  /-- A text cut where it cannot be cut. -/
  | badCut (e : Text.CutError)
  /-- A collaborator stopped with words of its own. -/
  | stopped (message : String)
  /-- A collaborator stopped without a word. -/
  | stoppedSilently
deriving DecidableEq, Repr

/-- The wording of a fault. -/
def Fault.message : Fault → String
  | .missingNode size index | .missingLine size index =>
    s!"index out of bounds: the len is {size} but the index is {index}"
  | .foreignText length expected =>
    s!"assertion `left == right` failed\n  left: {length}\n right: {expected}"
  | .reversedRange => "assertion failed: start.raw <= end.raw"
  | .badCut e => e.message
  | .stopped message => message
  | .stoppedSilently => "<non-string panic payload>"

/-- Makes what there is to make; a fault on the way is the outcome. -/
def attempt {α : Type} : Option (Except Fault α) → Except Fault (Option α)
  | none => .ok none
  | some made => made.map some

/-- Keeps what `f` finds, in order, and stops at the first fault. -/
def gather {α β : Type} (f : α → Except Fault (Option β)) : List α → Except Fault (List β)
  | [] => .ok []
  | a :: as =>
    match f a with
    | .error e => .error e
    | .ok none => gather f as
    | .ok (some b) => (gather f as).map (b :: ·)

end Recast
