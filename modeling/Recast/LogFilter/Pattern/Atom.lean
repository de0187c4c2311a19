import Recast.Text.Blank
import Recast.Text.Digit

/-!
# Characters of a pattern

A pattern is a regular expression that the value of a field is held against. Here it is only asked
whether a text is one. What a character or an escape stands for depends on the flags in force.

There are no tables of scripts: what depends on one is refused (classes of digits, blanks and word
characters, properties, word boundaries, letters regardless of case), unless the flag `u` is off,
when only ASCII counts and what could match half a character is refused instead.

* `Pattern.gap` skips blanks and comments where the flags say so;
* `Pattern.escape?` reads what a backslash begins;
* `Pattern.Atom.allowed` and `Pattern.Atom.allowedInSet` say what is refused.
-/

namespace Recast.Pattern

/-- The flags that decide what is refused. -/
structure Flags where
  /-- `i`: letters match regardless of case. -/
  ignoreCase : Bool := false
  /-- `u`: characters are those of all scripts. -/
  unicode : Bool := true
  /-- `x`: blanks and comments are skipped. -/
  verbose : Bool := false
deriving DecidableEq

/-! ## 1. Blanks and comments -/

/-- Removes blanks and comments at the front. -/
def skipVerbose (inComment : Bool) : List Char → List Char
  | [] => []
  | c :: cs =>
    if inComment then skipVerbose (c ≠ '\n') cs
    else if Text.isBlank c then skipVerbose false cs
    else if c = '#' then skipVerbose true cs
    else c :: cs

/-- Removes at the front what the flags say is skipped. -/
def gap (f : Flags) (cs : List Char) : List Char := if f.verbose then skipVerbose false cs else cs

theorem length_skipVerbose_le (inComment : Bool) (cs : List Char) :
    (skipVerbose inComment cs).length ≤ cs.length := by
  induction cs generalizing inComment with
  | nil => simp [skipVerbose]
  | cons c cs ih =>
    simp only [skipVerbose]
    split
    · exact Nat.le_succ_of_le (ih _)
    · split
      · exact Nat.le_succ_of_le (ih _)
      · split
        · exact Nat.le_succ_of_le (ih _)
        · exact Nat.le_refl _

theorem length_gap_le (f : Flags) (cs : List Char) : (gap f cs).length ≤ cs.length := by
  unfold gap
  split
  · exact length_skipVerbose_le false cs
  · exact Nat.le_refl _

/-! ## 2. Single characters -/

/-- What a character or an escape stands for. -/
inductive Atom where
  /-- A character; `byte` if it is written by two hexadecimal digits. -/
  | literal (c : Char) (byte : Bool)
  /-- Digits, blanks or word characters, or all others. -/
  | family (negated : Bool)
  /-- The start or the end. -/
  | anchor
  /-- The start or the end of a word. -/
  | boundary
deriving DecidableEq

/-- Reads `n` hexadecimal digits into a number. -/
def hexDigits? (f : Flags) : (n value : Nat) → List Char → Option (Nat × List Char)
  | 0, value, cs => some (value, gap f cs)
  | n + 1, value, cs =>
    match gap f cs with
    | [] => none
    | c :: cs => (Text.hexDigit? c).bind fun d => hexDigits? f n (value * 16 + d) cs

/-- Reads a character by its code. -/
def coded? (f : Flags) (digits : Nat) (cs : List Char) : Option (Atom × List Char) :=
  (hexDigits? f digits 0 cs).bind fun (n, rest) =>
    if n.isValidChar then some (.literal (Char.ofNat n) (digits = 2), rest) else none

/-- The control characters that have a letter. -/
def control? (c : Char) : Option Char :=
  if c = 'a' then some (Char.ofNat 7)
  else if c = 'f' then some (Char.ofNat 12)
  else if c = 't' then some '\t'
  else if c = 'n' then some '\n'
  else if c = 'r' then some '\r'
  else if c = 'v' then some (Char.ofNat 11)
  else none

/-- Reads what follows a backslash. -/
def escape? (f : Flags) : List Char → Option (Atom × List Char)
  | [] => none
  | c :: cs =>
    if c = 'x' then coded? f 2 cs
    else if c = 'u' then coded? f 4 cs
    else if c = 'U' then coded? f 8 cs
    else if c = 'd' ∨ c = 's' ∨ c = 'w' then some (.family false, cs)
    else if c = 'D' ∨ c = 'S' ∨ c = 'W' then some (.family true, cs)
    else if c = 'A' ∨ c = 'z' then some (.anchor, cs)
    else if c = 'b' ∨ c = 'B' ∨ c = '<' ∨ c = '>' then some (.boundary, cs)
    else if c.toNat < 128 ∧ !c.isAlphanum then some (.literal c false, cs)
    else (control? c).map fun e => (.literal e false, cs)

/-- Whether an atom may stand by itself. -/
def Atom.allowed (f : Flags) : Atom → Bool
  | .literal c byte => if f.unicode then !f.ignoreCase else !byte || c.toNat < 128
  | .family negated => !f.unicode && !negated
  | .anchor => true
  | .boundary => !f.unicode

/-- Whether an atom may stand in a set. -/
def Atom.allowedInSet (f : Flags) : Atom → Bool
  | .literal c _ => if f.unicode then !f.ignoreCase else c.toNat < 128
  | .family negated => !f.unicode && !negated
  | .anchor | .boundary => false

/-! ## 3. Depth -/

/-- How deep a pattern may be. -/
def maxDepth : Nat := 250

/-- The depth of things side by side: several of them are one level deeper than the deepest, and
    one of them is as deep as it is. -/
def depthTogether : List Nat → Nat
  | [] => 0
  | [d] => d
  | ds => ds.foldl max 0 + 1

end Recast.Pattern
