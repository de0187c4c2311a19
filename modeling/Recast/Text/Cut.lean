import Recast.Text.Bytes
import Recast.Text.Quoted

/-!
# Cutting by offsets

`cut` is the part of a run of characters between two byte offsets, where the caller answers for the
offsets: they lie within the run, in order, and not inside a character. A caller who is wrong about
that learns which of the two is to blame.
-/

namespace Recast.Text

/-- Either end of a cut. -/
inductive End where
  | start
  | stop
deriving DecidableEq, Repr

/-- What is wrong with the offsets of a cut. -/
inductive CutError where
  /-- An offset past the end. -/
  | past (e : End) (offset length : Nat)
  /-- The cut ends before it starts. -/
  | reversed (start stop : Nat)
  /-- An offset inside the character `c`, which starts at `first`. -/
  | inside (e : End) (offset : Nat) (c : Char) (first : Nat)
deriving DecidableEq, Repr

/-- The name of an end. -/
def End.name : End → String
  | .start => "start"
  | .stop => "end"

/-- The wording of a cut error. -/
def CutError.message : CutError → String
  | .past e offset length =>
    s!"{e.name} byte index {offset} is out of bounds for string of length {length}"
  | .reversed start stop => s!"byte range starts at {start} but ends at {stop}"
  | .inside e offset c first =>
    let shown := String.ofList (quoteChar c)
    let last := first + c.utf8Size
    s!"{e.name} byte index {offset} is not a char boundary; it is inside '{shown}' (bytes {first}..{last} of string)"

/-- The character that an offset lies inside of, and where it starts; the run itself starts at
    `first`. -/
def charAround? (offset first : Nat) : List Char → Option (Char × Nat)
  | [] => none
  | c :: cs =>
    if offset ≤ first then none
    else if offset < first + c.utf8Size then some (c, first)
    else charAround? offset (first + c.utf8Size) cs

/-- The part of a run between two offsets. -/
def cut (cs : List Char) (start stop : Nat) : Except CutError (List Char) :=
  if bytes cs < start then .error (.past .start start (bytes cs))
  else if bytes cs < stop then .error (.past .stop stop (bytes cs))
  else if stop < start then .error (.reversed start stop)
  else
    match charAround? start 0 cs, charAround? stop 0 cs with
    | some (c, first), _ => .error (.inside .start start c first)
    | none, some (c, first) => .error (.inside .stop stop c first)
    | none, none =>
      match cutAt? start cs with
      | some (_, rest) => .ok (within (stop - start) rest)
      | none => .ok []

end Recast.Text
