import Recast.Text.Position

/-!
# Walking through a text

Positions are ordered by line, and within a line by column.

* `walk_of_bytes_le`: a walk stops at the end of the text;
* `le_walk`: a walk never goes back;
* `positionAt_mono`: **a later offset has no earlier position.**
-/

namespace Recast.Text

namespace Position

instance : LE Position := ⟨fun p q => p.line < q.line ∨ p.line = q.line ∧ p.col ≤ q.col⟩

theorem le_def {p q : Position} :
    p ≤ q ↔ p.line < q.line ∨ p.line = q.line ∧ p.col ≤ q.col := Iff.rfl

theorem le_refl (p : Position) : p ≤ p := .inr ⟨rfl, Nat.le_refl _⟩

theorem le_trans {p q r : Position} (h₁ : p ≤ q) (h₂ : q ≤ r) : p ≤ r := by
  rw [le_def] at *
  omega

theorem le_nextLine (p : Position) : p ≤ ⟨p.line + 1, 1⟩ := .inl (Nat.lt_succ_self _)

/-- One character, of whatever sort, moves on. -/
theorem le_afterChar (p : Position) (c : Char) :
    p ≤ if isLineEnd c then ⟨p.line + 1, 1⟩ else ⟨p.line, p.col + charUnits16 c⟩ := by
  split
  · exact p.le_nextLine
  · exact .inr ⟨rfl, Nat.le_add_right _ _⟩

end Position

/-- A walk never goes back. -/
theorem le_walk (here : Position) (n : Nat) (cs : List Char) : here ≤ walk here n cs := by
  fun_induction walk here n cs with
  | case1 here => exact here.le_refl
  | case2 here n cs hfit ih => exact Position.le_trans here.le_nextLine ih
  | case3 here => exact here.le_refl
  | case4 here n c cs hcr hfit ih => exact Position.le_trans (here.le_afterChar c) ih
  | case5 here => exact here.le_refl

/-- A longer walk gets at least as far. -/
theorem walk_mono (here : Position) {m n : Nat} (cs : List Char) (h : m ≤ n) :
    walk here m cs ≤ walk here n cs := by
  fun_induction walk here n cs generalizing m with
  | case1 here => exact here.le_refl
  | case2 here n cs hfit ih =>
    rw [walk]
    split
    · exact ih (Nat.sub_le_sub_right h 2)
    · exact Position.le_trans here.le_nextLine (le_walk _ _ _)
  | case3 here n cs hfit =>
    rw [walk, if_neg (by omega)]
    exact here.le_refl
  | case4 here n c cs hcr hfit ih =>
    rw [walk.eq_3 _ _ _ _ hcr]
    split
    · exact ih (Nat.sub_le_sub_right h _)
    · exact Position.le_trans (here.le_afterChar c) (le_walk _ _ _)
  | case5 here n c cs hcr hfit =>
    rw [walk.eq_3 _ _ _ _ hcr, if_neg (by omega)]
    exact here.le_refl

/-- An offset past the end is the end. -/
theorem walk_of_bytes_le (here : Position) (n : Nat) (cs : List Char) (h : bytes cs ≤ n) :
    walk here n cs = walk here (bytes cs) cs := by
  fun_induction walk here n cs with
  | case1 => rfl
  | case2 here n cs hfit ih =>
    rw [bytes_cons, bytes_cons] at h ⊢
    have h₁ : '\r'.utf8Size = 1 := rfl
    have h₂ : '\n'.utf8Size = 1 := rfl
    rw [ih (by omega), walk, if_pos (by omega)]
    congr 1
    omega
  | case3 here n cs hfit =>
    rw [bytes_cons, bytes_cons] at h
    have h₁ : '\r'.utf8Size = 1 := rfl
    have h₂ : '\n'.utf8Size = 1 := rfl
    omega
  | case4 here n c cs hcr hfit ih =>
    rw [bytes_cons] at h ⊢
    rw [ih (by omega), walk.eq_3 _ _ _ _ hcr, if_pos (Nat.le_add_right _ _),
      Nat.add_sub_cancel_left]
  | case5 here n c cs hcr hfit =>
    rw [bytes_cons] at h
    omega

theorem positionAt_min (text : String) (offset : Nat) :
    positionAt text (min offset (length text)) = positionAt text offset := by
  rcases Nat.le_total offset (length text) with h | h
  · rw [Nat.min_eq_left h]
  · rw [Nat.min_eq_right h]
    exact (walk_of_bytes_le _ _ _ h).symm

/-- **A later offset has no earlier position.** -/
theorem positionAt_mono (text : String) {m n : Nat} (h : m ≤ n) :
    positionAt text m ≤ positionAt text n :=
  walk_mono _ _ h

end Recast.Text
