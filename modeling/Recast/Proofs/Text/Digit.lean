import Recast.Text.Digit

/-!
# Digits are read as the number they write

* `foldlM_digits`, `decimal?_digits`: the number that a run of digits is read as;
* `forall_isDigit_of_decimal?`: nothing else is read as a number;
* `head?_toDigits_ne_zero`: no number but zero is written with a zero in front.
-/

namespace Recast.Text

/-! ## 1. One digit -/

theorem digit?_eq_none {c : Char} (h : c.isDigit = false) : digit? c = none := by
  rw [digit?, if_neg]
  intro hrange
  exact ne_true_of_eq_false h (Char.isDigit_iff_toNat.2 hrange)

theorem digit?_eq_some {c : Char} (h : c.isDigit = true) : digit? c = some (c.toNat - 48) :=
  if_pos (Char.isDigit_iff_toNat.1 h)

theorem hexDigit?_eq_some {c : Char} (h : c.isDigit = true) :
    hexDigit? c = some (c.toNat - 48) :=
  if_pos (Char.isDigit_iff_toNat.1 h)

/-! ## 2. Numbers -/

/-- **Digits are read as the number they write**, after the digits of `m`. -/
theorem foldlM_digits {value? : Char → Option Nat} {cs : List Char}
    (h : ∀ c ∈ cs, value? c = some (c.toNat - 48)) (m : Nat) :
    cs.foldlM (fun n c => (value? c).map fun d => n * 10 + d) m =
      some (Nat.ofDigitChars 10 cs m) := by
  induction cs generalizing m with
  | nil => rfl
  | cons c cs ih =>
    rw [List.forall_mem_cons] at h
    rw [List.foldlM_cons, h.1, Nat.ofDigitChars_cons, Nat.mul_comm 10 m]
    exact ih h.2 _

theorem decimal?_digits {cs : List Char} (hne : cs ≠ []) (h : ∀ c ∈ cs, c.isDigit = true) :
    decimal? cs = some (Nat.ofDigitChars 10 cs 0) := by
  have hempty : ¬ cs.isEmpty = true := fun he => hne (List.isEmpty_iff.1 he)
  rw [decimal?, if_neg hempty]
  exact foldlM_digits (fun c hc => digit?_eq_some (h c hc)) 0

/-- Nothing else is read as a number. -/
theorem forall_isDigit_of_decimal? {cs : List Char} {n : Nat} (h : decimal? cs = some n) :
    cs ≠ [] ∧ ∀ c ∈ cs, c.isDigit = true := by
  have hrun : ∀ (cs : List Char) (m : Nat),
      cs.foldlM (fun n c => (digit? c).map fun d => n * 10 + d) m = some n →
        ∀ c ∈ cs, c.isDigit = true := by
    intro cs
    induction cs with
    | nil => exact fun _ _ c hc => absurd hc List.not_mem_nil
    | cons c cs ih =>
      intro m hm
      rw [List.foldlM_cons] at hm
      cases hc : c.isDigit with
      | false =>
        rw [digit?_eq_none hc] at hm
        cases hm
      | true =>
        rw [digit?_eq_some hc] at hm
        exact List.forall_mem_cons.2 ⟨hc, ih _ hm⟩
  cases cs with
  | nil => cases h
  | cons c cs => exact ⟨List.cons_ne_nil c cs, hrun _ 0 h⟩

/-! ## 3. Leading zeros -/

/-- Only zero is written with a zero in front. -/
theorem head?_toDigits_ne_zero {n : Nat} (h : n ≠ 0) : (Nat.toDigits 10 n).head? ≠ some '0' := by
  induction n using Nat.strongRecOn with
  | ind n ih =>
    by_cases hn : n < 10
    · rw [Nat.toDigits_of_lt_base hn]
      intro hzero
      have hcode := congrArg Char.toNat (Option.some.inj hzero)
      rw [Nat.toNat_digitChar_of_lt_ten hn] at hcode
      exact h (Nat.add_left_cancel (k := 0) hcode)
    · obtain ⟨c, cs, hcs⟩ := List.exists_cons_of_ne_nil (@Nat.toDigits_ne_nil (n / 10) 10)
      have hhead := ih (n / 10) (by omega) (by omega)
      rw [Nat.toDigits_of_base_le (by decide) (by omega)]
      rw [hcs] at hhead ⊢
      exact hhead

end Recast.Text
