import Recast.LogFilter.Pattern.Set
import Recast.Text.Alphanumeric

/-!
# Patterns

A pattern is read from left to right, with the flags in force and the groups that are open. It ends
at a closing brace, at a comma or at an equals sign, so none of these is in it, and what would need
one, such as a counted repetition, is refused.

Groups, sets and repetitions are one level deeper than what is in them, and so are things side by
side and alternatives. A pattern of more than `maxDepth` levels is refused.

* `Pattern.opening?` reads what a parenthesis begins;
* `Pattern.isValid` reads all.
-/

namespace Recast.Pattern

/-! ## 1. Groups -/

/-- Flags in the making. -/
structure FlagList where
  flags : Flags
  seen : List Char := []
  negated : Bool := false
  /-- Whether the last sign was the one that negates. -/
  dangling : Bool := false

/-- Reads one sign of a list of flags, each of which stands at most once. -/
def FlagList.push? (l : FlagList) (c : Char) : Option FlagList :=
  if c = '-' then
    if l.negated then none else some { l with negated := true, dangling := true }
  else if l.seen.contains c ∨ !"imsUuRx".toList.contains c then none
  else
    let on := !l.negated
    let flags := if c = 'i' then { l.flags with ignoreCase := on }
      else if c = 'u' then { l.flags with unicode := on }
      else if c = 'x' then { l.flags with verbose := on }
      else l.flags
    some { l with flags, seen := c :: l.seen, dangling := false }

/-- What an opening parenthesis begins. -/
inductive Opening where
  /-- Flags for the rest of the group that is open. -/
  | flags (f : Flags)
  /-- A group, with its name if it has one. -/
  | group (f : Flags) (name : Option String)

/-- Reads a list of flags, and the sign after it that says whether a group begins. -/
def flagList? (l : FlagList) : List Char → Option (Opening × List Char)
  | [] => none
  | ':' :: cs => if l.dangling then none else some (.group l.flags none, cs)
  | ')' :: cs =>
    if l.dangling ∨ l.seen.isEmpty ∧ !l.negated then none else some (.flags l.flags, cs)
  | c :: cs => (l.push? c).bind fun l => flagList? l cs

/-- Whether a name may have this character, at its start or later. -/
def isNameChar (first : Bool) (c : Char) : Bool :=
  c = '_' || if first then Text.isAlphabetic c
    else c = '.' || c = '[' || c = ']' || Text.isAlphanumeric c

/-- Reads the name of a group up to its closing angle. -/
def groupName? (f : Flags) (names : List String) (cs : List Char) : Option (Opening × List Char) :=
  let name := cs.takeWhile (· ≠ '>')
  match name, cs.drop name.length with
  | c :: more, '>' :: rest =>
    let text := String.ofList name
    if isNameChar true c && more.all (isNameChar false) && !names.contains text then
      some (.group f (some text), rest)
    else none
  | _, _ => none

/-- Reads what follows an opening parenthesis. Groups that look ahead or behind are refused. -/
def opening? (f : Flags) (names : List String) (cs : List Char) : Option (Opening × List Char) :=
  match gap f cs with
  | '?' :: 'P' :: '<' :: rest => groupName? f names rest
  | '?' :: '<' :: rest => groupName? f names rest
  | '?' :: rest => flagList? { flags := f } rest
  | rest => some (.group f none, rest)

/-! ## 2. Patterns -/

/-- A group that is being read, or the whole pattern. -/
structure OpenGroup where
  /-- The flags in force. -/
  flags : Flags := {}
  /-- The depths of what stands side by side, the last first. -/
  row : List Nat := []
  /-- The depths of the alternatives before. -/
  choices : List Nat := []

namespace OpenGroup

/-- Adds one more thing. -/
def push (g : OpenGroup) (depth : Nat) : OpenGroup := { g with row := depth :: g.row }

/-- Repeats the last thing. -/
def repeatLast (g : OpenGroup) : OpenGroup :=
  match g.row with
  | [] => g
  | d :: ds => { g with row := (d + 1) :: ds }

/-- Goes on with the next alternative. -/
def choose (g : OpenGroup) : OpenGroup :=
  { g with row := [], choices := depthTogether g.row :: g.choices }

/-- The depth of what has been read. -/
def depth (g : OpenGroup) : Nat := depthTogether (depthTogether g.row :: g.choices)

end OpenGroup

/-- Reads a pattern inside the group `g`: the groups that are open around it, the names of groups,
    and whether something stands in front that can be repeated. -/
def check (g : OpenGroup) (outer : List OpenGroup) (names : List String) (repeatable : Bool)
    (cs : List Char) : Bool :=
  let next (g : OpenGroup) (outer : List OpenGroup) (names : List String) (repeatable : Bool)
      (rest : List Char) : Bool :=
    if rest.length < cs.length then check g outer names repeatable rest else false
  match gap g.flags cs with
  | [] => outer.isEmpty && g.depth ≤ maxDepth
  | c :: rest =>
    if c = '(' then
      match opening? g.flags names rest with
      | some (.flags f, rest) => next { g.push 0 with flags := f } outer names false rest
      | some (.group f name, rest) =>
        next { flags := f } (g :: outer) (name.toList ++ names) false rest
      | none => false
    else if c = ')' then
      match outer with
      | [] => false
      | h :: outer => next (h.push (g.depth + 1)) outer names true rest
    else if c = '|' then next g.choose outer names false rest
    else if c = '[' then
      match set? g.flags rest with
      | some (depth, rest) => next (g.push depth) outer names true rest
      | none => false
    else if c = '?' ∨ c = '*' ∨ c = '+' then
      let rest := match rest with
        | '?' :: rest => rest
        | rest => rest
      repeatable && next g.repeatLast outer names true rest
    else if c = '\x7b' then false
    else if c = '\\' then
      match escape? g.flags rest with
      | some (a, rest) => a.allowed g.flags && next (g.push 0) outer names true rest
      | none => false
    else if c = '.' then g.flags.unicode && next (g.push 0) outer names true rest
    else if c = '^' ∨ c = '$' then next (g.push 0) outer names true rest
    else (Atom.literal c false).allowed g.flags && next (g.push 0) outer names true rest
termination_by cs.length

/-- Whether a text is a pattern. -/
def isValid (cs : List Char) : Bool := check {} [] [] false cs

end Recast.Pattern
