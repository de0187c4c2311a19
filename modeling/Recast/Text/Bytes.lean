/-!
# Byte offsets into a text

Every offset in this library counts bytes of the UTF-8 form of a text, while texts themselves are
sequences of characters. This file fixes how the two meet:

* `bytes` measures a run of characters, `units16` counts its UTF-16 code units;
* `cutAt?` splits a run at an offset and refuses an offset inside a character;
* `within` is the longest run of whole characters that fits in a number of bytes;
* `slice?` is the text between two offsets.
-/

namespace Recast.Text

/-! ## 1. Measures -/

/-- The number of bytes a run of characters takes in UTF-8. -/
def bytes : List Char → Nat
  | [] => 0
  | c :: cs => c.utf8Size + bytes cs

@[simp] theorem bytes_nil : bytes [] = 0 := rfl

@[simp] theorem bytes_cons (c : Char) (cs : List Char) :
    bytes (c :: cs) = c.utf8Size + bytes cs := rfl

@[simp] theorem bytes_append (xs ys : List Char) : bytes (xs ++ ys) = bytes xs + bytes ys := by
  induction xs with
  | nil => simp
  | cons c cs ih => simp [ih, Nat.add_assoc]

/-- The number of UTF-16 code units of one character. -/
def charUnits16 (c : Char) : Nat := if c.toNat < 0x10000 then 1 else 2

/-- The number of UTF-16 code units of a run of characters. -/
def units16 : List Char → Nat
  | [] => 0
  | c :: cs => charUnits16 c + units16 cs

@[simp] theorem units16_append (xs ys : List Char) :
    units16 (xs ++ ys) = units16 xs + units16 ys := by
  induction xs with
  | nil => simp [units16]
  | cons c cs ih => simp [units16, ih, Nat.add_assoc]

/-- The length of a text in bytes. -/
def length (text : String) : Nat := bytes text.toList

/-- The largest offset. Offsets, lengths and node numbers are written in thirty-two bits. -/
def maxOffset : Nat := 0xffffffff

/-! ## 2. Cuts -/

/-- Splits a run of characters after `n` bytes; `none` when that offset lies inside a character
    or past the end. -/
def cutAt? : Nat → List Char → Option (List Char × List Char)
  | 0, cs => some ([], cs)
  | _ + 1, [] => none
  | n + 1, c :: cs =>
    if c.utf8Size ≤ n + 1 then
      (cutAt? (n + 1 - c.utf8Size) cs).map fun (pre, post) => (c :: pre, post)
    else none

/-- A cut loses nothing and falls where it was asked for. -/
theorem cutAt?_eq_some {n : Nat} {cs pre post : List Char} (h : cutAt? n cs = some (pre, post)) :
    cs = pre ++ post ∧ bytes pre = n := by
  induction cs generalizing n pre post with
  | nil => cases n <;> simp_all [cutAt?]
  | cons c cs ih =>
    cases n with
    | zero => simp_all [cutAt?]
    | succ n =>
      simp only [cutAt?] at h
      split at h
      · obtain ⟨⟨p, q⟩, hp, hq⟩ := Option.map_eq_some_iff.1 h
        obtain ⟨rfl, rfl⟩ := Prod.mk.inj hq
        obtain ⟨h₁, h₂⟩ := ih hp
        exact ⟨by simp [h₁], by simp [h₂]; omega⟩
      · simp at h

/-- The longest run of whole characters at the front that takes at most `n` bytes. -/
def within : Nat → List Char → List Char
  | _, [] => []
  | n, c :: cs => if c.utf8Size ≤ n then c :: within (n - c.utf8Size) cs else []

/-- The text between two offsets; `none` when one of them lies inside a character or past the
    end, or when they are in the wrong order. -/
def slice? (text : String) (start stop : Nat) : Option String :=
  if start ≤ stop then do
    let (_, rest) ← cutAt? start text.toList
    let (body, _) ← cutAt? (stop - start) rest
    return String.ofList body
  else none

end Recast.Text
