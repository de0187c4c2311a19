import Mathlib.Algebra.Group.Nat.Defs
import Recast.Json.Value

/-!
# Natural numbers that fit into a double

A natural number that fits into a word keeps all its digits when it is read, and its double is
finite.

* `Double.exponentOf_le`, `Double.ofRatio_ne_infinite`: the exponent of a fraction is bounded by the
  length of its numerator, so that a short one never overflows;
* `leading_ofNat`: a number of a word keeps its digits;
* `finite_ofNat`: **its double is finite.**
-/

namespace Recast

/-! ## 1. Doubles -/

theorem roundHalfEven_le (num den : Nat) : roundHalfEven num den ≤ num + 1 := by
  have hdiv := Nat.div_le_self num den
  unfold roundHalfEven
  dsimp only
  split <;> omega

theorem log2_lt_of_lt {n k : Nat} (h : n < 2 ^ (k + 1)) : n.log2 < k + 1 := by
  by_cases hn : n = 0
  · rw [hn, Nat.log2_zero]
    exact Nat.succ_pos k
  · exact (Nat.log2_lt hn).2 h

namespace Double

theorem exponentOf_le (num den : Nat) :
    exponentOf num den ≤ max minExponent ((num.log2 : Int) - 52) := by
  unfold exponentOf precision
  dsimp only
  split <;> omega

theorem le_exponentOf (num : Nat) : -53 ≤ exponentOf num 1 := by
  have hlog : Nat.log2 1 = 0 := by decide
  unfold exponentOf precision
  dsimp only
  rw [hlog]
  split <;> omega

/-- A numerator that is not long never makes a double overflow. -/
theorem ofRatio_ne_infinite {num : Nat} (h : num < 2 ^ 250) (den : Nat) :
    ofRatio num den ≠ .infinite := by
  have hlog : num.log2 < 250 := log2_lt_of_lt h
  have hexponent := exponentOf_le num den
  have hmin : minExponent = -1074 := rfl
  have hmax : maxExponent = 971 := rfl
  unfold ofRatio
  dsimp only
  split
  · exact nofun
  · split
    · rw [if_neg (by omega)]
      exact nofun
    · rw [if_neg (by omega)]
      exact nofun

/-- The double of a number of a word. -/
theorem exists_ofNat {n : Nat} (h : n < 2 ^ 64) :
    ∃ m e, ofNat n = .finite m e ∧ m < 2 ^ 118 ∧ e ≤ 12 := by
  have hlog : n.log2 < 64 := log2_lt_of_lt h
  have hexponent := exponentOf_le n 1
  have hleast := le_exponentOf n
  have hmin : minExponent = -1074 := rfl
  have hmax : maxExponent = 971 := rfl
  -- the significand is the number, shifted by fifty-three places at most, and rounded
  have hshift : n * Nat.pow 2 (-exponentOf n 1).toNat ≤ 2 ^ 64 * 2 ^ 53 :=
    Nat.mul_le_mul (Nat.le_of_lt h) (Nat.pow_le_pow_right (by decide) (by omega))
  have hround := roundHalfEven_le (n * Nat.pow 2 (-exponentOf n 1).toNat)
    (1 * Nat.pow 2 (exponentOf n 1).toNat)
  unfold ofNat ofRatio inUnits
  dsimp only
  split
  · exact ⟨0, minExponent, rfl, by decide, by omega⟩
  · split
    · rw [if_neg (by omega)]
      exact ⟨_, _, rfl, by omega, by omega⟩
    · rw [if_neg (by omega)]
      exact ⟨_, _, rfl, by omega, by omega⟩

end Double

/-! ## 2. Numbers -/

namespace Json

theorem le_ofDigitChars (word : Nat) (cs : List Char) : word ≤ Nat.ofDigitChars 10 cs word := by
  induction cs generalizing word with
  | nil => exact Nat.le_refl _
  | cons c cs ih =>
    rw [Nat.ofDigitChars_cons]
    exact Nat.le_trans (by omega) (ih _)

/-- Digits that fit into a word are all read. -/
theorem fillWord_eq {word : Nat} {cs : List Char} (h : Nat.ofDigitChars 10 cs word < 2 ^ 64) :
    fillWord word (cs.map fun c => c.toNat - '0'.toNat) = (Nat.ofDigitChars 10 cs word, 0) := by
  induction cs generalizing word with
  | nil => rfl
  | cons c cs ih =>
    rw [Nat.ofDigitChars_cons, Nat.mul_comm 10 word] at h ⊢
    have hfits : word * 10 + (c.toNat - '0'.toNat) < Nat.pow 2 64 :=
      Nat.lt_of_le_of_lt (le_ofDigitChars _ cs) h
    rw [List.map_cons, fillWord, if_pos hfits]
    exact ih h

/-- A number of a word keeps its digits. -/
theorem leading_ofNat {n : Nat} (h : n < 2 ^ 64) : (Number.ofNat n).leading = (n, 0) := by
  have hdigits : Nat.ofDigitChars 10 (Nat.toDigits 10 n) 0 = n := Nat.ofDigitChars_ten_toDigits
  have hfits : Nat.ofDigitChars 10 (Nat.toDigits 10 n) 0 < 2 ^ 64 := by rwa [hdigits]
  have hword := fillWord_eq hfits
  rw [hdigits] at hword
  unfold Number.leading Number.ofNat
  dsimp only
  rw [Nat.sub_zero, List.take_length, List.drop_length, hword]
  rfl

/-- **A number of a word has a finite double.** -/
theorem finite_ofNat {n : Nat} (h : n < 2 ^ 64) : (Number.ofNat n).finite = true := by
  obtain ⟨m, e, hofNat, hm, he⟩ := Double.exists_ofNat h
  have hone : Double.ofDecimal 1 0 = .finite (2 ^ 52) (-52) := by decide +kernel
  have hproduct : (Double.ofNat n).mul (.ofDecimal 1 0) ≠ .infinite := by
    rw [hofNat, hone]
    refine Double.ofRatio_ne_infinite ?_ _
    have hnonneg : (e + -52).toNat = 0 := by omega
    rw [hnonneg]
    show m * 2 ^ 52 * 1 < _
    omega
  unfold Number.finite
  rw [leading_ofNat h]
  dsimp only
  split
  · rfl
  · rw [if_neg (by decide)]
    exact decide_eq_true hproduct

end Json

end Recast
