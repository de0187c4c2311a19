import Recast.Text.Cut
import Recast.Text.LineIndex

/-!
# Cuts at the end of a prefix

An offset is a good place for a cut exactly when it measures a prefix. Everything here is stated
over a run that is already written as `pre ++ post`:

* `cutAt?_append`, `isBoundary_append`: a cut after `pre` is a cut of `post`;
* `within_spec`, `within_bytes`: how far `within` gets;
* `roundDown_append`: rounding down inside a part of a run gives the part's longest whole prefix;
* `cut_append`: the part between two such offsets can be cut out.
-/

namespace Recast.Text

/-! ## 1. Cuts -/

theorem cutAt?_cons (c : Char) (n : Nat) (cs : List Char) :
    cutAt? (c.utf8Size + n) (c :: cs) = (cutAt? n cs).map fun p => (c :: p.1, p.2) := by
  have hpos := c.utf8Size_pos
  obtain ⟨k, hk⟩ : ∃ k, c.utf8Size + n = k + 1 := ⟨c.utf8Size + n - 1, by omega⟩
  have hle : c.utf8Size ≤ k + 1 := by omega
  have hsub : k + 1 - c.utf8Size = n := by omega
  rw [hk, cutAt?, if_pos hle, hsub]

theorem cutAt?_append (pre : List Char) (n : Nat) (cs : List Char) :
    cutAt? (bytes pre + n) (pre ++ cs) = (cutAt? n cs).map fun p => (pre ++ p.1, p.2) := by
  induction pre with
  | nil => simp
  | cons c pre ih =>
    rw [bytes_cons, Nat.add_assoc, List.cons_append, cutAt?_cons, ih, Option.map_map]
    rfl

/-- The cut after a prefix. -/
theorem cutAt?_bytes (pre post : List Char) :
    cutAt? (bytes pre) (pre ++ post) = some (pre, post) := by
  have h := cutAt?_append pre 0 post
  simpa [cutAt?] using h

theorem isBoundary_append (pre : List Char) (n : Nat) (cs : List Char) :
    isBoundary (pre ++ cs) (bytes pre + n) = isBoundary cs n := by
  unfold isBoundary
  rw [cutAt?_append, Option.isSome_map]

/-- An offset can be cut at exactly when a prefix has that many bytes. -/
theorem isBoundary_iff {cs : List Char} {n : Nat} :
    isBoundary cs n = true ↔ ∃ pre post, cs = pre ++ post ∧ bytes pre = n := by
  constructor
  · intro h
    obtain ⟨⟨pre, post⟩, hp⟩ := Option.isSome_iff_exists.1 h
    exact ⟨pre, post, cutAt?_eq_some hp⟩
  · rintro ⟨pre, post, rfl, rfl⟩
    unfold isBoundary
    rw [cutAt?_bytes]
    rfl

/-- What stands after a run does not matter for the offsets inside it. -/
theorem isBoundary_append_of_le {body post : List Char} {n : Nat} (hn : n ≤ bytes body) :
    isBoundary (body ++ post) n = isBoundary body n := by
  rw [Bool.eq_iff_iff]
  constructor
  · intro h
    obtain ⟨p, q, hpq, hbytes⟩ := isBoundary_iff.1 h
    rcases List.append_eq_append_iff.1 hpq with ⟨a, rfl, -⟩ | ⟨a, ha, -⟩
    · -- a prefix that reaches past `body` has no bytes left for what is beyond
      cases a with
      | nil => exact isBoundary_iff.2 ⟨body, [], (List.append_nil _).symm, by simpa using hbytes⟩
      | cons c a =>
        have hpos := c.utf8Size_pos
        rw [bytes_append, bytes_cons] at hbytes
        omega
    · exact isBoundary_iff.2 ⟨p, a, ha, hbytes⟩
  · intro h
    obtain ⟨p, q, rfl, hbytes⟩ := isBoundary_iff.1 h
    exact isBoundary_iff.2 ⟨p, q ++ post, by rw [List.append_assoc], hbytes⟩

/-! ## 2. Whole characters -/

/-- What fits is at the front, and it does fit. -/
theorem within_spec (n : Nat) (cs : List Char) :
    (∃ post, cs = within n cs ++ post) ∧ bytes (within n cs) ≤ n := by
  induction cs generalizing n with
  | nil => exact ⟨⟨[], rfl⟩, Nat.zero_le n⟩
  | cons c cs ih =>
    rw [within]
    split
    · rename_i hc
      obtain ⟨⟨post, hpost⟩, hle⟩ := ih (n - c.utf8Size)
      refine ⟨⟨post, ?_⟩, ?_⟩
      · rw [List.cons_append, ← hpost]
      · rw [bytes_cons]
        omega
    · exact ⟨⟨c :: cs, rfl⟩, Nat.zero_le n⟩

/-- A run is all that fits in its own number of bytes. -/
theorem within_bytes (pre post : List Char) : within (bytes pre) (pre ++ post) = pre := by
  induction pre with
  | nil =>
    cases post with
    | nil => rfl
    | cons c post =>
      have hpos := c.utf8Size_pos
      have hc : ¬ c.utf8Size ≤ 0 := by omega
      exact if_neg hc
  | cons c pre ih =>
    rw [List.cons_append, within, bytes_cons, if_pos (Nat.le_add_right _ _),
      Nat.add_sub_cancel_left, ih]

/-- More room than a run needs makes no difference. -/
theorem within_min (n : Nat) (cs : List Char) : within (min n (bytes cs)) cs = within n cs := by
  rcases Nat.le_total n (bytes cs) with h | h
  · rw [Nat.min_eq_left h]
  · rw [Nat.min_eq_right h]
    have hall := within_bytes cs []
    rw [List.append_nil] at hall
    rw [hall]
    -- `cs` fits into `n` bytes as a whole
    induction cs generalizing n with
    | nil => rfl
    | cons c cs ih =>
      rw [bytes_cons] at h
      rw [within, if_pos (by omega), ← ih (n - c.utf8Size) (by omega)]
      have := within_bytes cs []
      rwa [List.append_nil] at this

/-- At an offset inside a character, the byte before it gives the same whole characters. -/
theorem within_succ_of_not_isBoundary {cs : List Char} {n : Nat}
    (h : isBoundary cs (n + 1) = false) : within (n + 1) cs = within n cs := by
  induction cs generalizing n with
  | nil => rfl
  | cons c cs ih =>
    have hpos := c.utf8Size_pos
    rw [within, within]
    by_cases hc : c.utf8Size ≤ n
    · have hn : n + 1 = c.utf8Size + (n - c.utf8Size + 1) := by omega
      have hb : isBoundary cs (n - c.utf8Size + 1) = false := by
        rw [← isBoundary_append [c], ← h, bytes_cons, bytes_nil, Nat.add_zero, ← hn]
        rfl
      rw [if_pos hc, if_pos (by omega), show n + 1 - c.utf8Size = n - c.utf8Size + 1 by omega,
        ih hb]
    · -- a character that ends right at `n + 1` would make it a good offset
      have hne : c.utf8Size ≠ n + 1 := by
        intro he
        have hb := isBoundary_iff.2 ⟨[c], cs, rfl, by simpa using he⟩
        rw [List.singleton_append] at hb
        rw [hb] at h
        cases h
      rw [if_neg hc, if_neg (by omega)]

/-! ## 3. Rounding and cutting -/

/-- Inside `body`, rounding down stops at the end of the last whole character. -/
theorem roundDown_append (pre body post : List Char) (n : Nat) (hn : n ≤ bytes body) :
    roundDown (pre ++ (body ++ post)) (bytes pre) (bytes pre + n) =
      bytes pre + bytes (within n body) := by
  induction n with
  | zero =>
    have h0 : bytes (within 0 body) = 0 := Nat.le_zero.1 (within_spec 0 body).2
    rw [h0, Nat.add_zero]
    cases hp : bytes pre with
    | zero => rfl
    | succ k =>
      rw [roundDown]
      simp
  | succ n ih =>
    rw [← Nat.add_assoc, roundDown, Nat.add_assoc, isBoundary_append]
    have hfloor : decide (bytes pre < bytes pre + (n + 1)) = true := decide_eq_true (by omega)
    rw [hfloor, Bool.true_and]
    rw [isBoundary_append_of_le hn]
    cases hb : isBoundary body (n + 1) with
    | true =>
      obtain ⟨p, q, rfl, hp⟩ := isBoundary_iff.1 hb
      rw [← hp, within_bytes]
      simp
    | false =>
      rw [within_succ_of_not_isBoundary hb, ← ih (by omega)]
      rfl

theorem charAround?_bytes (pre post : List Char) (first : Nat) :
    charAround? (first + bytes pre) first (pre ++ post) = none := by
  induction pre generalizing first with
  | nil =>
    cases post with
    | nil => rfl
    | cons c post =>
      rw [List.nil_append, bytes_nil, Nat.add_zero, charAround?, if_pos (Nat.le_refl _)]
  | cons c pre ih =>
    have hpos := c.utf8Size_pos
    rw [List.cons_append, charAround?, bytes_cons, if_neg (by omega), if_neg (by omega),
      ← Nat.add_assoc]
    exact ih _

/-- The part between the ends of two prefixes can be cut out. -/
theorem cut_append (pre body post : List Char) :
    cut (pre ++ (body ++ post)) (bytes pre) (bytes pre + bytes body) = .ok body := by
  have hstart : charAround? (bytes pre) 0 (pre ++ (body ++ post)) = none := by
    have h := charAround?_bytes pre (body ++ post) 0
    rwa [Nat.zero_add] at h
  have hstop : charAround? (bytes pre + bytes body) 0 (pre ++ (body ++ post)) = none := by
    have h := charAround?_bytes (pre ++ body) post 0
    rwa [Nat.zero_add, bytes_append, List.append_assoc] at h
  unfold cut
  rw [if_neg (by simp), if_neg (by simp), if_neg (by omega), hstart, hstop,
    cutAt?_bytes, Nat.add_sub_cancel_left]
  show Except.ok (within (bytes body) (body ++ post)) = _
  rw [within_bytes]

end Recast.Text
