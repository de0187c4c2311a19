import Recast.Proofs.Text.LineIndex

/-!
# Offsets and positions in the same order

Going from offsets to positions loses what lies inside a character or inside a terminator, and
nothing else.

* `SplitsTerminator`, `IsStop`: the offsets inside a terminator, and those inside nothing;
* `IsStop.start_or_char`, `IsStop.start_or_terminator`: a walk passes over every stop;
* `walk_strictMono`: from one stop to a later one a walk gets on;
* `positionAt_strictMono`: **of two stops the later one has the later position**;
* `positionAt_injective`: so a stop can be told from its position.
-/

namespace Recast.Text

/-! ## 1. The strict order -/

namespace Position

instance : LT Position := ⟨fun p q => p.line < q.line ∨ p.line = q.line ∧ p.col < q.col⟩

theorem lt_def {p q : Position} :
    p < q ↔ p.line < q.line ∨ p.line = q.line ∧ p.col < q.col := Iff.rfl

theorem lt_irrefl (p : Position) : ¬ p < p := by
  rw [lt_def]
  omega

theorem lt_of_lt_of_le {p q r : Position} (h₁ : p < q) (h₂ : q ≤ r) : p < r := by
  rw [lt_def] at *
  rw [le_def] at h₂
  omega

theorem lt_nextLine (p : Position) : p < ⟨p.line + 1, 1⟩ := .inl (Nat.lt_succ_self _)

/-- Every character moves on by at least one code unit. -/
theorem lt_afterChar (p : Position) (c : Char) :
    p < if isLineEnd c then ⟨p.line + 1, 1⟩ else ⟨p.line, p.col + charUnits16 c⟩ := by
  have hunits : 0 < charUnits16 c := by
    unfold charUnits16
    split <;> omega
  split
  · exact p.lt_nextLine
  · exact .inr ⟨rfl, Nat.lt_add_of_pos_right hunits⟩

end Position

/-! ## 2. Stops -/

variable {c : Char} {cs : List Char} {x : Nat}

/-- An offset between the carriage return and the line feed of one terminator. -/
def SplitsTerminator (cs : List Char) (x : Nat) : Prop :=
  ∃ pre post, cs = pre ++ '\r' :: '\n' :: post ∧ x = bytes pre + 1

theorem splitsTerminator_iff : SplitsTerminator cs x ↔
    x ≠ 0 ∧ (cutAt? (x - 1) cs).any (['\r', '\n'].isPrefixOf ·.2) = true := by
  constructor
  · intro h
    obtain ⟨pre, post, hrun, hx⟩ := h
    refine ⟨by omega, ?_⟩
    rw [hrun, hx, Nat.add_sub_cancel, cutAt?_bytes]
    rfl
  · intro h
    obtain ⟨hx, hcut⟩ := h
    rw [Option.any_eq_true] at hcut
    obtain ⟨⟨pre, rest⟩, hpre, hrest⟩ := hcut
    obtain ⟨hrun, hbytes⟩ := cutAt?_eq_some hpre
    obtain ⟨post, hpost⟩ : ['\r', '\n'] <+: rest := List.isPrefixOf_iff_prefix.1 hrest
    refine ⟨pre, post, ?_, by omega⟩
    rw [hrun, ← hpost, List.cons_append, List.singleton_append]

instance (cs : List Char) (x : Nat) : Decidable (SplitsTerminator cs x) :=
  decidable_of_iff _ splitsTerminator_iff.symm

/-- An offset that lies neither inside a character nor inside a terminator. -/
structure IsStop (cs : List Char) (x : Nat) : Prop where
  boundary : isBoundary cs x = true
  whole : ¬ SplitsTerminator cs x

instance (cs : List Char) (x : Nat) : Decidable (IsStop cs x) :=
  decidable_of_iff (isBoundary cs x = true ∧ ¬ SplitsTerminator cs x)
    ⟨fun h => ⟨h.1, h.2⟩, fun h => ⟨h.boundary, h.whole⟩⟩

namespace IsStop

theorem eq_zero_of_nil (h : IsStop [] x) : x = 0 := by
  obtain ⟨pre, post, hrun, hbytes⟩ := isBoundary_iff.1 h.boundary
  obtain ⟨rfl, -⟩ := List.append_eq_nil_iff.1 hrun.symm
  exact hbytes.symm

/-- A stop is in front of a character or after it. -/
theorem start_or_char (h : IsStop (c :: cs) x) :
    x = 0 ∨ c.utf8Size ≤ x ∧ IsStop cs (x - c.utf8Size) := by
  obtain ⟨pre, post, hrun, hbytes⟩ := isBoundary_iff.1 h.boundary
  cases pre with
  | nil => exact .inl hbytes.symm
  | cons d pre =>
    obtain ⟨rfl, rfl⟩ := List.cons.inj hrun
    obtain rfl : c.utf8Size + bytes pre = x := hbytes
    refine .inr ⟨Nat.le_add_right _ _, ?_⟩
    rw [Nat.add_sub_cancel_left]
    refine ⟨isBoundary_iff.2 ⟨pre, post, rfl, rfl⟩, ?_⟩
    intro hsplit
    obtain ⟨before, after, hrest, hx⟩ := hsplit
    refine h.whole ⟨c :: before, after, ?_, ?_⟩
    · rw [hrest, List.cons_append]
    · rw [hx, bytes_cons, Nat.add_assoc]

/-- A stop is in front of a terminator of two characters or after both. -/
theorem start_or_terminator (h : IsStop ('\r' :: '\n' :: cs) x) :
    x = 0 ∨ 2 ≤ x ∧ IsStop cs (x - 2) := by
  have hone : '\r'.utf8Size = 1 := rfl
  have hone' : '\n'.utf8Size = 1 := rfl
  rcases h.start_or_char with hzero | ⟨hreturn, hrest⟩
  · exact .inl hzero
  · rcases hrest.start_or_char with hmid | ⟨hfeed, hafter⟩
    · exact absurd ⟨[], cs, rfl, by rw [bytes_nil]; omega⟩ h.whole
    · rw [hone, hone'] at hfeed hafter
      exact .inr ⟨by omega, hafter⟩

end IsStop

/-! ## 3. The walk -/

theorem walk_zero (here : Position) (cs : List Char) : walk here 0 cs = here := by
  fun_cases walk here 0 cs with
  | case1 => rfl
  | case2 cs hfit => omega
  | case3 => rfl
  | case4 c cs hcr hfit =>
    have hpos := c.utf8Size_pos
    omega
  | case5 => rfl

/-- **From one stop to a later one a walk gets on.** -/
theorem walk_strictMono (here : Position) {m n : Nat} (cs : List Char) (h : m < n)
    (hm : IsStop cs m) (hn : IsStop cs n) : walk here m cs < walk here n cs := by
  fun_induction walk here n cs generalizing m with
  | case1 here n =>
    have hzero := hn.eq_zero_of_nil
    omega
  | case2 here n cs hfit ih =>
    rcases hm.start_or_terminator with rfl | ⟨hle, hm'⟩
    · rw [walk_zero]
      exact Position.lt_of_lt_of_le here.lt_nextLine (le_walk _ _ _)
    · obtain ⟨-, hn'⟩ := hn.start_or_terminator.resolve_left (by omega)
      rw [walk, if_pos hle]
      exact ih (Nat.sub_lt_sub_right hle h) hm' hn'
  | case3 here n cs hfit =>
    have hstop := hn.start_or_terminator
    omega
  | case4 here n c cs hcr hfit ih =>
    rcases hm.start_or_char with rfl | ⟨hle, hm'⟩
    · rw [walk_zero]
      exact Position.lt_of_lt_of_le (here.lt_afterChar c) (le_walk _ _ _)
    · obtain ⟨-, hn'⟩ := hn.start_or_char.resolve_left (by omega)
      rw [walk.eq_3 _ _ _ _ hcr, if_pos hle]
      exact ih (Nat.sub_lt_sub_right hle h) hm' hn'
  | case5 here n c cs hcr hfit =>
    have hstop := hn.start_or_char
    omega

/-! ## 4. Positions -/

/-- **Of two stops the later one has the later position.** -/
theorem positionAt_strictMono (text : String) {m n : Nat} (h : m < n)
    (hm : IsStop text.toList m) (hn : IsStop text.toList n) :
    positionAt text m < positionAt text n :=
  walk_strictMono _ _ h hm hn

theorem positionAt_injective (text : String) {m n : Nat} (hm : IsStop text.toList m)
    (hn : IsStop text.toList n) (h : positionAt text m = positionAt text n) : m = n := by
  rcases Nat.lt_trichotomy m n with hlt | heq | hgt
  · have hstrict := positionAt_strictMono text hlt hm hn
    rw [h] at hstrict
    exact absurd hstrict (Position.lt_irrefl _)
  · exact heq
  · have hstrict := positionAt_strictMono text hgt hn hm
    rw [h] at hstrict
    exact absurd hstrict (Position.lt_irrefl _)

end Recast.Text
