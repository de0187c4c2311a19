import Mathlib.Tactic.SplitIfs
import Recast.Text.Bytes

/-!
# Texts are ordered as their bytes are

Texts compare character by character, by code point. Their UTF-8 forms, compared byte by byte, give
the same order: a greater character starts with a greater byte, or agrees in the first bytes and is
greater in the first that differs.

* `byte_cons_lt`: the first byte decides, and the rest when it is the same;
* `encodeChar_append_lt`: a smaller character makes smaller bytes, whatever follows;
* `utf8_lt_iff`: **the order of two texts is that of their bytes.**
-/

namespace Recast.Text

/-- The bytes of the UTF-8 form of a text. -/
def utf8 (text : String) : List UInt8 := text.toUTF8.data.toList

theorem utf8_eq_flatMap (text : String) :
    utf8 text = text.toList.flatMap String.utf8EncodeChar := by
  unfold utf8
  rw [String.toUTF8_eq_toByteArray, ← String.utf8Encode_toList, List.utf8Encode,
    List.data_toByteArray]

/-! ## 1. One character -/

theorem byte_cons_lt {a b : Nat} {xs ys : List UInt8} (hb : b < 256) (hle : a ≤ b)
    (h : a = b → xs < ys) : UInt8.ofNat a :: xs < UInt8.ofNat b :: ys := by
  have hsize : UInt8.size = 256 := rfl
  rcases Nat.lt_or_eq_of_le hle with hlt | heq
  · have hbyte : UInt8.ofNat a < UInt8.ofNat b := by
      rw [UInt8.lt_iff_toNat_lt, UInt8.toNat_ofNat_of_lt' (by omega),
        UInt8.toNat_ofNat_of_lt' (by omega)]
      exact hlt
    exact List.cons_lt_cons_iff.2 (.inl hbyte)
  · rw [heq]
    exact List.cons_lt_cons_iff.2 (.inr ⟨rfl, h heq⟩)

/-- **A smaller character makes smaller bytes**, whatever follows. -/
theorem encodeChar_append_lt {c d : Char} (h : c < d) (xs ys : List UInt8) :
    String.utf8EncodeChar c ++ xs < String.utf8EncodeChar d ++ ys := by
  have hlt : c.val.toNat < d.val.toNat := UInt32.lt_iff_toNat_lt.1 (Char.lt_def.1 h)
  have hmax : d.val.toNat < 1114112 := by
    have := d.valid
    unfold UInt32.isValidChar Nat.isValidChar at this
    omega
  generalize hm : c.val.toNat = m at hlt
  generalize hn : d.val.toNat = n at hlt hmax
  unfold String.utf8EncodeChar
  rw [hm, hn]
  dsimp only
  -- More bytes start with a greater one. Of as many, equal bytes leave an equal part of the number
  -- behind, so that the difference shows before the bytes are at an end.
  split_ifs <;> (repeat' refine byte_cons_lt (by omega) (by omega) fun _ => ?_) <;> omega

/-! ## 2. Texts -/

theorem flatMap_encodeChar_lt {cs ds : List Char} (h : cs < ds) :
    cs.flatMap String.utf8EncodeChar < ds.flatMap String.utf8EncodeChar := by
  induction h with
  | nil =>
    rename_i d ds
    rw [List.flatMap_cons]
    cases hd : String.utf8EncodeChar d with
    | nil => exact absurd hd String.utf8EncodeChar_ne_nil
    | cons b bs => exact List.nil_lt_cons b _
  | cons _ ih =>
    rw [List.flatMap_cons, List.flatMap_cons]
    exact List.append_left_lt ih
  | rel h =>
    rw [List.flatMap_cons, List.flatMap_cons]
    exact encodeChar_append_lt h _ _

/-- **The order of two texts is that of their bytes.** -/
theorem utf8_lt_iff {s t : String} : utf8 s < utf8 t ↔ s < t := by
  have forward {s t : String} (h : s < t) : utf8 s < utf8 t := by
    rw [utf8_eq_flatMap, utf8_eq_flatMap]
    exact flatMap_encodeChar_lt (String.lt_iff.1 h)
  refine ⟨fun h => ?_, forward⟩
  -- in any other order the bytes would compare the other way
  refine Decidable.byContradiction fun hnlt => ?_
  by_cases heq : s = t
  · rw [heq] at h
    exact List.lt_irrefl _ h
  · have hlt : t < s := Decidable.byContradiction fun hnlt' =>
      heq (String.le_antisymm (String.not_lt.1 hnlt') (String.not_lt.1 hnlt))
    exact List.lt_asymm h (forward hlt)

end Recast.Text
