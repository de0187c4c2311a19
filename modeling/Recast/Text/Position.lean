import Recast.Text.Bytes

/-!
# Lines and columns

Positions are what people read: a line and a column, both counted from one, the column in UTF-16
code units. A line ends at a line feed, at a carriage return, or at a carriage return followed by
a line feed, which counts once.

* `positionAt` walks a text up to an offset. An offset past the end is the end; an offset inside a
  terminator is the end of the line before it; an offset inside a character is the start of that
  character.
* `lineCount` is the number of lines.
-/

namespace Recast.Text

/-- A line and a column, both counted from one. -/
structure Position where
  line : Nat
  col : Nat
deriving DecidableEq, Repr

/-- The characters that end a line on their own. -/
def isLineEnd (c : Char) : Bool := c == '\n' || c == '\r'

/-- Walks on from position `here` while whole characters, and whole terminators, fit in the next
    `n` bytes. -/
def walk (here : Position) (n : Nat) : List Char → Position
  | [] => here
  | '\r' :: '\n' :: cs => if 2 ≤ n then walk ⟨here.line + 1, 1⟩ (n - 2) cs else here
  | c :: cs =>
    if c.utf8Size ≤ n then
      walk (if isLineEnd c then ⟨here.line + 1, 1⟩ else ⟨here.line, here.col + charUnits16 c⟩)
        (n - c.utf8Size) cs
    else here

/-- The position of a byte offset in a text. -/
def positionAt (text : String) (offset : Nat) : Position := walk ⟨1, 1⟩ offset text.toList

/-- The number of line terminators in a run of characters. -/
def terminators : List Char → Nat
  | [] => 0
  | '\r' :: '\n' :: cs => terminators cs + 1
  | c :: cs => terminators cs + if isLineEnd c then 1 else 0

/-- The number of lines of a text: one more than its terminators. -/
def lineCount (text : String) : Nat := terminators text.toList + 1

end Recast.Text
