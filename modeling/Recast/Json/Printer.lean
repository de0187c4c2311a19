import Recast.Json.Value

/-!
# Writing JSON

The written form puts every item and every field on a line of its own, indented by two blanks a
level, with a colon and a blank between key and value; an empty array or object is its two
brackets. Strings escape quotes, backslashes and characters below the space, and nothing else.
-/

namespace Recast.Json

/-! ## 1. Words -/

/-- A hexadecimal digit in lower case. -/
def hexChar (n : Nat) : Char := if n < 10 then Char.ofNat (48 + n) else Char.ofNat (87 + n)

/-- A character as it stands in a string. -/
def escape (c : Char) : List Char :=
  if c = '"' then ['\\', '"']
  else if c = '\\' then ['\\', '\\']
  else if c.toNat = 8 then ['\\', 'b']
  else if c.toNat = 12 then ['\\', 'f']
  else if c = '\n' then ['\\', 'n']
  else if c = '\r' then ['\\', 'r']
  else if c = '\t' then ['\\', 't']
  else if c.toNat < 0x20 then
    ['\\', 'u', '0', '0', hexChar (c.toNat / 16), hexChar (c.toNat % 16)]
  else [c]

/-- A string between quotes. A string without a meaning has no text of its own and is written
    empty. -/
def quote (s : Option String) : List Char :=
  '"' :: (s.getD "").toList.flatMap escape ++ ['"']

/-- The text of a number. -/
def Number.chars (n : Number) : List Char :=
  (if n.negative then ['-'] else []) ++ Nat.toDigits 10 n.mantissa ++
    if n.whole then [] else 'e' :: (toString (n.exponent - n.places)).toList

/-! ## 2. Values -/

/-- A new line, indented to a level. -/
def newline (level : Nat) : List Char := '\n' :: List.replicate (2 * level) ' '

mutual

/-- A value whose first line is already indented to a level. -/
def pretty (level : Nat) : Json → List Char
  | .null => "null".toList
  | .bool b => if b then "true".toList else "false".toList
  | .number n => n.chars
  | .string s => quote s
  | .array [] => ['[', ']']
  | .array (v :: vs) =>
    '[' :: newline (level + 1) ++ pretty (level + 1) v ++ prettyItems (level + 1) vs ++
      newline level ++ [']']
  | .object [] => ['\x7b', '\x7d']
  | .object ((k, v) :: fs) =>
    '\x7b' :: newline (level + 1) ++ quote k ++ [':', ' '] ++ pretty (level + 1) v ++
      prettyFields (level + 1) fs ++ newline level ++ ['\x7d']

/-- The items after the first. -/
def prettyItems (level : Nat) : List Json → List Char
  | [] => []
  | v :: vs => ',' :: newline level ++ pretty level v ++ prettyItems level vs

/-- The fields after the first. -/
def prettyFields (level : Nat) : List (Option String × Json) → List Char
  | [] => []
  | (k, v) :: fs =>
    ',' :: newline level ++ quote k ++ [':', ' '] ++ pretty level v ++ prettyFields level fs

end

/-- The written form of a value. -/
def render (j : Json) : String := String.ofList (j.pretty 0)

end Recast.Json
