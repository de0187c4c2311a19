import Recast.Text.Blank
import Recast.Text.Bytes

/-!
# Searching and splitting

Where a run of characters occurs in another, and the ways in which a snippet of source text is
taken apart.

* `offsetOf?`: the byte offset of the first occurrence;
* `splitAtChar?`: what stands before and after the first occurrence of a character;
* `splitTopLevel`: the parts between commas that are not inside angle brackets.
-/

namespace Recast.Text

/-! ## 1. Occurrences -/

/-- The byte offset of the first occurrence of `needle`, the run itself starting at `offset`. -/
def offsetFrom? (needle : List Char) (offset : Nat) : List Char → Option Nat
  | [] => if needle.isEmpty then some offset else none
  | c :: cs =>
    if needle.isPrefixOf (c :: cs) then some offset
    else offsetFrom? needle (offset + c.utf8Size) cs

/-- The byte offset of the first occurrence of `needle`. -/
def offsetOf? (needle cs : List Char) : Option Nat := offsetFrom? needle 0 cs

/-- What stands before and after the first occurrence of a character. -/
def splitAtChar? (x : Char) : List Char → Option (List Char × List Char)
  | [] => none
  | c :: cs =>
    if c = x then some ([], cs) else (splitAtChar? x cs).map fun (pre, post) => (c :: pre, post)

theorem splitAtChar?_eq_some {x : Char} {cs pre post : List Char}
    (h : splitAtChar? x cs = some (pre, post)) : cs = pre ++ x :: post := by
  induction cs generalizing pre post with
  | nil => simp [splitAtChar?] at h
  | cons c cs ih =>
    rw [splitAtChar?] at h
    split at h
    · simp_all
    · obtain ⟨⟨p, q⟩, hp, hq⟩ := Option.map_eq_some_iff.1 h
      obtain ⟨rfl, rfl⟩ := Prod.mk.inj hq
      simp [← ih hp]

/-- What stands before the first occurrence of a character, or everything. -/
def beforeChar (x : Char) (cs : List Char) : List Char := cs.takeWhile (· ≠ x)

/-- What is left after `pre` at the front, if it stands there. -/
def dropFront? (pre cs : List Char) : Option (List Char) :=
  if pre.isPrefixOf cs then some (cs.drop pre.length) else none

/-- What is left before `post` at the end, if it stands there. -/
def dropBack? (post cs : List Char) : Option (List Char) :=
  if post.isSuffixOf cs then some (cs.take (cs.length - post.length)) else none

theorem length_of_dropFront? {pre cs rest : List Char} (h : dropFront? pre cs = some rest) :
    rest.length + pre.length = cs.length := by
  simp only [dropFront?] at h
  split at h
  · rename_i hp
    have := (List.isPrefixOf_iff_prefix.1 hp).length_le
    cases h
    simp only [List.length_drop]
    omega
  · simp at h

theorem length_of_dropBack? {post cs rest : List Char} (h : dropBack? post cs = some rest) :
    rest.length + post.length = cs.length := by
  simp only [dropBack?] at h
  split at h
  · rename_i hp
    have := (List.isSuffixOf_iff_suffix.1 hp).length_le
    cases h
    simp only [List.length_take]
    omega
  · simp at h

/-! ## 2. Parts between commas -/

/-- The parts between commas outside angle brackets: `depth` brackets are open, and `part` is the
    part read so far in reverse. A last part of blanks does not count. -/
def splitTopLevelAux (depth : Nat) (part : List Char) : List Char → List (List Char)
  | [] => if (trim part.reverse).isEmpty then [] else [trim part.reverse]
  | c :: cs =>
    if c = '<' then splitTopLevelAux (depth + 1) (c :: part) cs
    else if c = '>' then splitTopLevelAux (depth - 1) (c :: part) cs
    else if c = ',' ∧ depth = 0 then trim part.reverse :: splitTopLevelAux depth [] cs
    else splitTopLevelAux depth (c :: part) cs

/-- The parts between commas outside angle brackets, without the blanks at their ends. A last part
    of blanks does not count. -/
def splitTopLevel (cs : List Char) : List (List Char) := splitTopLevelAux 0 [] cs

theorem length_of_mem_splitTopLevelAux {depth : Nat} {part cs p : List Char}
    (h : p ∈ splitTopLevelAux depth part cs) : p.length ≤ part.length + cs.length := by
  induction cs generalizing depth part with
  | nil =>
    have := length_trim_le part.reverse
    simp only [splitTopLevelAux] at h
    split at h <;> simp_all
  | cons c cs ih =>
    have := length_trim_le part.reverse
    simp only [splitTopLevelAux] at h
    split at h
    · have := ih h
      simp only [List.length_cons] at *
      omega
    · split at h
      · have := ih h
        simp only [List.length_cons] at *
        omega
      · split at h
        · rcases List.mem_cons.1 h with rfl | h
          · simp only [List.length_reverse, List.length_cons] at *
            omega
          · have := ih h
            simp only [List.length_nil, List.length_cons] at *
            omega
        · have := ih h
          simp only [List.length_cons] at *
          omega

/-- A part is no longer than the whole. -/
theorem length_of_mem_splitTopLevel {cs p : List Char} (h : p ∈ splitTopLevel cs) :
    p.length ≤ cs.length := by
  simpa using length_of_mem_splitTopLevelAux h

end Recast.Text
