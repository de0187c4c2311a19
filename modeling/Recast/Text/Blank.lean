/-!
# Blank characters

`isBlank` is the Unicode property White_Space: twenty-five characters, of which six are ASCII.
On it rest the trimming of a text at either end and the splitting of a text into words.
-/

namespace Recast.Text

/-! ## 1. The class -/

/-- The ranges of the property White_Space, in increasing order. -/
def blankRanges : List (Nat × Nat) :=
  [(0x09, 0x0D), (0x20, 0x20), (0x85, 0x85), (0xA0, 0xA0), (0x1680, 0x1680), (0x2000, 0x200A),
   (0x2028, 0x2029), (0x202F, 0x202F), (0x205F, 0x205F), (0x3000, 0x3000)]

/-- Whether a character lies in one of the given ranges. -/
def inRanges (ranges : List (Nat × Nat)) (c : Char) : Bool :=
  ranges.any fun (lo, hi) => lo ≤ c.toNat && c.toNat ≤ hi

/-- Whether a character has the property White_Space. -/
def isBlank (c : Char) : Bool := inRanges blankRanges c

example : (blankRanges.map fun (lo, hi) => hi - lo + 1).sum = 25 := rfl

/-! ## 2. Trimming -/

/-- Removes characters that satisfy `p` from the end. -/
def dropEndWhile (p : Char → Bool) (cs : List Char) : List Char :=
  (cs.reverse.dropWhile p).reverse

/-- Removes blanks from the front. -/
def trimStart (cs : List Char) : List Char := cs.dropWhile isBlank

/-- Removes blanks from the end. -/
def trimEnd (cs : List Char) : List Char := dropEndWhile isBlank cs

/-- Removes blanks from both ends. -/
def trim (cs : List Char) : List Char := trimEnd (trimStart cs)

theorem length_dropWhile_le (p : Char → Bool) (cs : List Char) :
    (cs.dropWhile p).length ≤ cs.length :=
  (List.dropWhile_sublist p).length_le

theorem length_dropEndWhile_le (p : Char → Bool) (cs : List Char) :
    (dropEndWhile p cs).length ≤ cs.length := by
  have := length_dropWhile_le p cs.reverse
  simpa [dropEndWhile] using this

theorem length_trimStart_le (cs : List Char) : (trimStart cs).length ≤ cs.length :=
  length_dropWhile_le _ _

theorem length_trimEnd_le (cs : List Char) : (trimEnd cs).length ≤ cs.length :=
  length_dropEndWhile_le _ _

theorem length_trim_le (cs : List Char) : (trim cs).length ≤ cs.length :=
  Nat.le_trans (length_trimEnd_le _) (length_trimStart_le _)

/-- A text without the blanks at its ends. -/
def trimmed (text : String) : String := String.ofList (trim text.toList)

/-! ## 3. Words -/

/-- The maximal runs of non-blank characters, `word` being the run read so far in reverse. -/
def wordsAux (word : List Char) : List Char → List (List Char)
  | [] => if word.isEmpty then [] else [word.reverse]
  | c :: cs =>
    if isBlank c then
      if word.isEmpty then wordsAux [] cs else word.reverse :: wordsAux [] cs
    else wordsAux (c :: word) cs

/-- The maximal runs of non-blank characters. -/
def words (cs : List Char) : List (List Char) := wordsAux [] cs

end Recast.Text
