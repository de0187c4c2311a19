import Recast.LogFilter.Pattern.Atom

/-!
# Sets of characters

A set stands between brackets and holds characters, ranges, families and other sets. Signs between
its parts combine what stands left of them with what stands right of them.

* `Pattern.set?` reads a set, and says how deep it is: one level for itself, one for every sign that
  combines, and one where there are several things side by side.
-/

namespace Recast.Pattern

/-! ## 1. What stands in a set -/

/-- The names of the families of ASCII characters. -/
def familyNames : List String :=
  ["alnum", "alpha", "ascii", "blank", "cntrl", "digit", "graph", "lower", "print", "punct",
   "space", "upper", "word", "xdigit"]

/-- Reads a family of ASCII characters after its opening bracket: whether it is negated, and what
    follows its closing bracket. -/
def namedFamily? : List Char → Option (Bool × List Char)
  | ':' :: cs =>
    let (negated, cs) := match cs with
      | '^' :: cs => (true, cs)
      | cs => (false, cs)
    let name := cs.takeWhile (· ≠ ':')
    match cs.drop name.length with
    | ':' :: ']' :: rest =>
      if familyNames.contains (String.ofList name) then some (negated, rest) else none
    | _ => none
  | _ => none

/-- Removes the hyphens at the front of a set, and counts them. -/
def skipHyphens (f : Flags) : List Char → Nat × List Char
  | '-' :: cs =>
    let (n, rest) := skipHyphens f (gap f cs)
    (n + 1, rest)
  | cs => (0, cs)
termination_by cs => cs.length
decreasing_by exact Nat.lt_succ_of_le (length_gap_le f cs)

/-- Reads what stands right after the opening bracket of a set: a sign that it is negated, then
    hyphens or a closing bracket that does not close it. Gives how many characters these are. -/
def setStart? (f : Flags) (cs : List Char) : Option (Nat × List Char) :=
  let (negated, cs) := match gap f cs with
    | '^' :: cs => (true, gap f cs)
    | cs => (false, cs)
  let (plain, cs) := match skipHyphens f cs with
    | (0, ']' :: cs) => (1, cs)
    | found => found
  if (negated && !f.unicode) || (0 < plain && !(Atom.literal '-' false).allowedInSet f) then none
  else some (plain, cs)

/-- Reads one character or escape of a set. -/
def setAtom? (f : Flags) : List Char → Option (Atom × List Char)
  | [] => none
  | '\\' :: cs => escape? f cs
  | c :: cs => some (.literal c false, cs)

/-- The character that decides whether a hyphen in front of it makes a range. Where blanks and
    comments are skipped, it is the first that is no blank, or the first in the comment that starts
    there. -/
def afterHyphen? (f : Flags) (cs : List Char) : Option Char :=
  if f.verbose then
    match cs.dropWhile Text.isBlank with
    | '#' :: rest => (rest.dropWhile Text.isBlank).head?
    | rest => rest.head?
  else cs.head?

/-- Reads a character, a range or a family of a set. -/
def setItem? (f : Flags) (cs : List Char) : Option (List Char) := do
  let (a, rest) ← setAtom? f cs
  if !a.allowedInSet f then none
  else
    match gap f rest with
    | '-' :: more =>
      if afterHyphen? f more = some ']' ∨ afterHyphen? f more = some '-' then some ('-' :: more)
      else
        let (b, rest) ← setAtom? f (gap f more)
        match a, b with
        | .literal c _, .literal d _ =>
          if c.toNat ≤ d.toNat ∧ b.allowedInSet f then some rest else none
        | _, _ => none
    | rest => some rest

/-! ## 2. Sets in sets -/

/-- A set that is being read. -/
structure OpenSet where
  /-- The depths of what stands side by side. -/
  items : List Nat := []
  /-- The depth of what stands left of the last sign that combines. -/
  left : Option Nat := none

namespace OpenSet

/-- Adds one more thing. -/
def push (s : OpenSet) (depth : Nat) : OpenSet := { s with items := depth :: s.items }

/-- The depth of what has been read. -/
def depth (s : OpenSet) : Nat :=
  match s.left with
  | none => depthTogether s.items
  | some l => max l (depthTogether s.items) + 1

/-- Goes on after a sign that combines. -/
def combine (s : OpenSet) : OpenSet := { left := some s.depth }

end OpenSet

/-- Reads a set up to its closing bracket, `outer` being the sets that are open around it, and gives
    its depth. -/
def setBody? (f : Flags) (s : OpenSet) (outer : List OpenSet) (cs : List Char) :
    Option (Nat × List Char) :=
  let next (s : OpenSet) (outer : List OpenSet) (rest : List Char) :=
    if rest.length < cs.length then setBody? f s outer rest else none
  match gap f cs with
  | [] => none
  | '[' :: rest =>
    match namedFamily? rest with
    | some (negated, rest) =>
      if if f.unicode then !f.ignoreCase else !negated then next (s.push 0) outer rest else none
    | none =>
      (setStart? f rest).bind fun (plain, rest) =>
        next { items := List.replicate plain 0 } (s :: outer) rest
  | ']' :: rest =>
    match outer with
    | [] => some (s.depth + 1, rest)
    | t :: outer => next (t.push (s.depth + 1)) outer rest
  | '&' :: '&' :: rest | '-' :: '-' :: rest | '~' :: '~' :: rest => next s.combine outer rest
  | rest => (setItem? f rest).bind (next (s.push 0) outer)
termination_by cs.length

/-- Reads a set after its opening bracket, and gives its depth. -/
def set? (f : Flags) (cs : List Char) : Option (Nat × List Char) :=
  (setStart? f cs).bind fun (plain, rest) => setBody? f { items := List.replicate plain 0 } [] rest

end Recast.Pattern
