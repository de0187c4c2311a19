import Recast.Fault
import Recast.Text.Position
import Recast.Text.Span

/-!
# Tables of lines

A text that is asked for many positions is read once, into a table of its lines; after that a
position is a search in the table and a look at one line.

* `LineIndex.ofText` makes the table: where every line starts, and where it ends without its
  terminator;
* `LineIndex.lineOf` finds the line of an offset by halving;
* `LineIndex.place` counts the lines and the code units before an offset. The table is only good for
  the text it was made from, and every step that could miss, a line that is not in the table or a
  cut through a character, is a fault;
* `LineIndex.lineCol` is the line and the column of an offset, counted from one in words of 32 bits,
  and `LineIndex.lineCols` those of the two ends of a span. The last addition wraps around when a
  count is the largest word: only a text of exactly 2^32 - 1 bytes, the longest that an offset can
  reach the end of, has such a count;
* `LineIndex.position` and `LineIndex.range` are the same in numbers, which is how records keep
  them.
-/

namespace Recast.Text

/-! ## 1. The table -/

/-- Where lines start in a run of characters that itself starts at `offset`: after every
    terminator. -/
def lineStarts (offset : Nat) : List Char → List Nat
  | [] => []
  | '\r' :: '\n' :: cs => (offset + 2) :: lineStarts (offset + 2) cs
  | c :: cs =>
    if isLineEnd c then (offset + 1) :: lineStarts (offset + 1) cs
    else lineStarts (offset + c.utf8Size) cs

/-- Where lines end in a run of characters that itself starts at `offset`: before every terminator
    and at the end of the run. -/
def lineEnds (offset : Nat) : List Char → List Nat
  | [] => [offset]
  | '\r' :: '\n' :: cs => offset :: lineEnds (offset + 2) cs
  | c :: cs =>
    if isLineEnd c then offset :: lineEnds (offset + 1) cs
    else lineEnds (offset + c.utf8Size) cs

/-- Where the lines of a text start and end, and the length of the text. -/
structure LineIndex where
  starts : Array Nat
  ends : Array Nat
  length : Nat
deriving DecidableEq

/-- A line and a column, both counted from one, as the program keeps them. -/
structure LineCol where
  line : UInt32
  col : UInt32
deriving DecidableEq, Repr

/-! ## 2. Searching -/

/-- The number of entries of an increasing table that are at most `offset`, given that those below
    `lo` are and those from `hi` on are not. -/
def countUpTo (table : Array Nat) (offset lo hi : Nat) : Nat :=
  if lo < hi then
    let mid := lo + (hi - lo) / 2
    if table[mid]?.any (· ≤ offset) then countUpTo table offset (mid + 1) hi
    else countUpTo table offset lo mid
  else lo
termination_by hi - lo

/-- Whether a run of characters can be cut at an offset. -/
def isBoundary (cs : List Char) (offset : Nat) : Bool := (cutAt? offset cs).isSome

/-- The last offset at or before `offset` where a run can be cut, but none before `floor`. -/
def roundDown (cs : List Char) (floor : Nat) : Nat → Nat
  | 0 => 0
  | n + 1 => if floor < n + 1 && !isBoundary cs (n + 1) then roundDown cs floor n else n + 1

namespace LineIndex

/-- The table of a text. -/
def ofText (text : String) : LineIndex where
  starts := (0 :: lineStarts 0 text.toList).toArray
  ends := (lineEnds 0 text.toList).toArray
  length := Text.length text

/-- The number of lines. -/
def lineCount (index : LineIndex) : Nat := index.starts.size

/-- The line, counted from zero, that an offset lies on. -/
def lineOf (index : LineIndex) (offset : Nat) : Nat :=
  countUpTo index.starts offset 0 index.starts.size - 1

/-- The entry of a table; a line that is not there is a fault. -/
def entry (table : Array Nat) (line : Nat) : Except Fault Nat :=
  match table[line]? with
  | some offset => .ok offset
  | none => .error (.missingLine table.size line)

/-- How many lines are before the line of an offset, and how many code units of that line are before
    the offset, in the text that the table was made from. -/
def place (index : LineIndex) (text : String) (offset : Nat) : Except Fault (Nat × Nat) :=
  if Text.length text = index.length then do
    let offset := min offset index.length
    let line := index.lineOf offset
    let start ← entry index.starts line
    let stop ← entry index.ends line
    let stop := roundDown text.toList start (min offset stop)
    let body ← (cut text.toList start stop).mapError .badCut
    return (line, units16 body)
  else .error (.foreignText (Text.length text) index.length)

/-- The line and the column of an offset. -/
def lineCol (index : LineIndex) (text : String) (offset : Nat) : Except Fault LineCol :=
  (index.place text offset).map fun p => ⟨UInt32.ofNat p.1 + 1, UInt32.ofNat p.2 + 1⟩

/-- The lines and columns of the start and of the end of a span. -/
def lineCols (index : LineIndex) (text : String) (span : Span) :
    Except Fault (LineCol × LineCol) := do
  let start ← index.lineCol text span.start
  let stop ← index.lineCol text span.stop
  return (start, stop)

/-- The position of an offset. -/
def position (index : LineIndex) (text : String) (offset : Nat) : Except Fault Position :=
  (index.place text offset).map fun p => ⟨p.1 + 1, p.2 + 1⟩

/-- The positions of the start and of the end of a span. -/
def range (index : LineIndex) (text : String) (span : Span) :
    Except Fault (Position × Position) := do
  let start ← index.position text span.start
  let stop ← index.position text span.stop
  return (start, stop)

end LineIndex

end Recast.Text
