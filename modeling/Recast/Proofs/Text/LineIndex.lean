import Recast.Proofs.Fault
import Recast.Proofs.Text.Cut
import Recast.Proofs.Text.Position

/-!
# The table of lines answers every question

`LineIndex.place` goes through a table, a search, a rounding and a cut, each of which could fault.
None does: with the table of a text, every offset whatsoever has a place, and its position is the
one that walking the text gives.

* `countUpTo_eq_countP`: halving an increasing table counts its entries up to an offset;
* `exists_lineAt`: what the table holds at the line of an offset, and what the walk says there;
* `exists_place`: **the table agrees with the walk and never faults**;
* `position_ofText`, `range_ofText`: so do the positions that it gives.
-/

namespace Recast.Text

/-! ## 1. The entries -/

theorem utf8Size_of_isLineEnd {c : Char} (h : isLineEnd c = true) : c.utf8Size = 1 := by
  unfold isLineEnd at h
  rw [Bool.or_eq_true, beq_iff_eq, beq_iff_eq] at h
  rcases h with rfl | rfl <;> rfl

/-- A line starts after the offset at which the run starts. -/
theorem lt_of_mem_lineStarts {offset s : Nat} {cs : List Char} (h : s ∈ lineStarts offset cs) :
    offset < s := by
  fun_induction lineStarts offset cs with
  | case1 => cases h
  | case2 offset cs ih =>
    rcases List.mem_cons.1 h with rfl | h
    · omega
    · have := ih h
      omega
  | case3 offset c cs _ _ ih =>
    rcases List.mem_cons.1 h with rfl | h
    · omega
    · have := ih h
      omega
  | case4 offset c cs _ _ ih =>
    have := ih h
    omega

theorem lineStarts_sorted (offset : Nat) (cs : List Char) :
    (lineStarts offset cs).Pairwise (· < ·) := by
  fun_induction lineStarts offset cs with
  | case1 => exact .nil
  | case2 offset cs ih => exact .cons (fun _ h => lt_of_mem_lineStarts h) ih
  | case3 offset c cs _ _ ih => exact .cons (fun _ h => lt_of_mem_lineStarts h) ih
  | case4 offset c cs _ _ ih => exact ih

/-- No line starts at or before an offset at which the run has not started yet. -/
theorem countP_lineStarts_of_le {offset x : Nat} (cs : List Char) (h : x ≤ offset) :
    (lineStarts offset cs).countP (· ≤ x) = 0 := by
  rw [List.countP_eq_zero]
  intro s hs
  have := lt_of_mem_lineStarts hs
  simp only [decide_eq_true_eq]
  omega

theorem countP_cons_le {s x : Nat} {ls : List Nat} (h : s ≤ x) :
    (s :: ls).countP (· ≤ x) = ls.countP (· ≤ x) + 1 :=
  List.countP_cons_of_pos (decide_eq_true h)

theorem countP_cons_gt {s x : Nat} {ls : List Nat} (h : x < s) :
    (s :: ls).countP (· ≤ x) = ls.countP (· ≤ x) :=
  List.countP_cons_of_neg (by simpa using h)

/-! ## 2. The search -/

/-- **Halving keeps what it knows**: everything before the answer is at most `offset`, everything
    from it on is past it. -/
theorem countUpTo_spec {table : Array Nat} {offset : Nat} (hs : table.toList.Pairwise (· < ·))
    {lo hi : Nat} (hle : lo ≤ hi) (hhi : hi ≤ table.size)
    (hlow : ∀ i < lo, ∀ s, table[i]? = some s → s ≤ offset)
    (hhigh : ∀ i ≥ hi, ∀ s, table[i]? = some s → offset < s) :
    countUpTo table offset lo hi ≤ table.size ∧
      (∀ i < countUpTo table offset lo hi, ∀ s, table[i]? = some s → s ≤ offset) ∧
      ∀ i ≥ countUpTo table offset lo hi, ∀ s, table[i]? = some s → offset < s := by
  have hmono : ∀ i j si sj : Nat, table[i]? = some si → table[j]? = some sj → i < j → si < sj := by
    intro i j si sj hsi hsj hij
    obtain ⟨hi', rfl⟩ := Array.getElem?_eq_some_iff.1 hsi
    obtain ⟨hj', rfl⟩ := Array.getElem?_eq_some_iff.1 hsj
    exact List.pairwise_iff_getElem.1 hs i j hi' hj' hij
  fun_induction countUpTo table offset lo hi with
  | case1 lo hi hlt mid hmid ih =>
    have hm : mid = lo + (hi - lo) / 2 := rfl
    obtain ⟨sm, hsm, hsm_le⟩ : ∃ sm, table[mid]? = some sm ∧ sm ≤ offset := by
      simpa [Option.any_eq_true] using hmid
    refine ih (by omega) hhi (fun i hi' s hsi => ?_) hhigh
    rcases Nat.lt_or_ge i mid with h | h
    · have := hmono i mid s sm hsi hsm h
      omega
    · obtain rfl : i = mid := by omega
      rw [hsm] at hsi
      cases hsi
      exact hsm_le
  | case2 lo hi hlt mid hmid ih =>
    have hm : mid = lo + (hi - lo) / 2 := rfl
    have hsm : table[mid]? = some table[mid] := Array.getElem?_eq_getElem (by omega)
    have hpast : offset < table[mid] := by
      rw [hsm] at hmid
      simpa using hmid
    refine ih (by omega) (by omega) hlow (fun i hi' s hsi => ?_)
    rcases Nat.lt_or_ge mid i with h | h
    · have := hmono mid i table[mid] s hsm hsi h
      omega
    · obtain rfl : i = mid := by omega
      rw [hsm] at hsi
      cases hsi
      exact hpast
  | case3 lo hi hnlt =>
    obtain rfl : lo = hi := by omega
    exact ⟨hhi, hlow, hhigh⟩

/-- Halving an increasing table counts its entries up to an offset. -/
theorem countUpTo_eq_countP {table : Array Nat} (hs : table.toList.Pairwise (· < ·))
    (offset : Nat) :
    countUpTo table offset 0 table.size = table.toList.countP (· ≤ offset) := by
  have hlow : ∀ i < 0, ∀ s, table[i]? = some s → s ≤ offset := fun i hi => absurd hi (by omega)
  have hhigh : ∀ i ≥ table.size, ∀ s, table[i]? = some s → offset < s := by
    intro i hi s hsi
    rw [Array.getElem?_eq_none hi] at hsi
    cases hsi
  obtain ⟨hle, hbelow, habove⟩ :=
    countUpTo_spec hs (Nat.zero_le _) (Nat.le_refl _) hlow hhigh
  generalize countUpTo table offset 0 table.size = r at hle hbelow habove
  have hlen : (table.toList.take r).length = r := by
    rw [List.length_take, Array.length_toList]
    omega
  have htake : (table.toList.take r).countP (· ≤ offset) = r := by
    rw [List.countP_eq_length.2, hlen]
    intro s hmem
    obtain ⟨i, hi, rfl⟩ := List.mem_take_iff_getElem.1 hmem
    exact decide_eq_true (hbelow i (by omega) _ (by simp))
  have hdrop : (table.toList.drop r).countP (· ≤ offset) = 0 := by
    rw [List.countP_eq_zero]
    intro s hmem
    obtain ⟨i, hi, rfl⟩ := List.mem_drop_iff_getElem.1 hmem
    have hi' : r + i < table.size := by simpa [Nat.add_comm] using hi
    have := habove (r + i) (by omega) _ (Array.getElem?_eq_getElem hi')
    rw [Array.getElem_toList]
    simp only [decide_eq_true_eq]
    omega
  rw [← List.take_append_drop r table.toList, List.countP_append, htake, hdrop, Nat.add_zero]

/-! ## 3. The line of an offset -/

/-- What the table and the walk have to say about the line `k` of a run `cs` that starts at
    `offset`: it is the part `body`, reached from `here` after the part `pre`. -/
structure LineAt (here : Position) (offset x : Nat) (cs : List Char) (k : Nat)
    (pre body post : List Char) : Prop where
  run : cs = pre ++ (body ++ post)
  start : (offset :: lineStarts offset cs)[k]? = some (offset + bytes pre)
  stop : (lineEnds offset cs)[k]? = some (offset + bytes pre + bytes body)
  start_le : offset + bytes pre ≤ x
  first : k = 0 → pre = []
  walk : walk here (x - offset) cs = ⟨here.line + k,
    (if k = 0 then here.col else 1) + units16 (within (x - (offset + bytes pre)) body)⟩

/-- An offset before the end of the first terminator is on the first line, at its very end. -/
theorem LineAt.ofTerminator {here : Position} {offset x : Nat} {cs : List Char}
    (hx : offset ≤ x) (hends : (lineEnds offset cs)[0]? = some offset)
    (hwalk : Text.walk here (x - offset) cs = here) : LineAt here offset x cs 0 [] [] cs where
  run := rfl
  start := rfl
  stop := hends
  start_le := hx
  first _ := rfl
  walk := by
    rw [hwalk]
    rfl

/-- A terminator in front moves everything to the next line. -/
theorem LineAt.afterTerminator {here : Position} {offset x n k : Nat}
    {cs pre body post : List Char}
    (h : LineAt ⟨here.line + 1, 1⟩ (offset + n) x cs k pre body post) (term : List Char)
    (hterm : bytes term = n)
    (hstarts : lineStarts offset (term ++ cs) = (offset + n) :: lineStarts (offset + n) cs)
    (hends : lineEnds offset (term ++ cs) = offset :: lineEnds (offset + n) cs)
    (hwalk : Text.walk here (x - offset) (term ++ cs) =
      Text.walk ⟨here.line + 1, 1⟩ (x - (offset + n)) cs) :
    LineAt here offset x (term ++ cs) (k + 1) (term ++ pre) body post where
  run := by rw [h.run, List.append_assoc]
  start := by
    rw [hstarts, List.getElem?_cons_succ, h.start, bytes_append, hterm, Nat.add_assoc]
  stop := by
    rw [hends, List.getElem?_cons_succ, h.stop, bytes_append, hterm, Nat.add_assoc offset]
  start_le := by
    have := h.start_le
    rw [bytes_append, hterm]
    omega
  first h0 := absurd h0 (by omega)
  walk := by
    rw [hwalk, h.walk, bytes_append, hterm, ← Nat.add_assoc offset, ite_self,
      if_neg (Nat.succ_ne_zero k)]
    show (⟨here.line + 1 + k, _⟩ : Position) = _
    rw [Nat.add_assoc here.line, Nat.add_comm 1 k]

/-- Any other character in front makes the first line longer. -/
theorem LineAt.afterChar {here : Position} {offset x k : Nat} {c : Char}
    {cs pre body post : List Char}
    (h : LineAt ⟨here.line, here.col + charUnits16 c⟩ (offset + c.utf8Size) x cs k pre body post)
    (hstarts : lineStarts offset (c :: cs) = lineStarts (offset + c.utf8Size) cs)
    (hends : lineEnds offset (c :: cs) = lineEnds (offset + c.utf8Size) cs)
    (hwalk : Text.walk here (x - offset) (c :: cs) =
      Text.walk ⟨here.line, here.col + charUnits16 c⟩ (x - (offset + c.utf8Size)) cs) :
    ∃ pre' body', LineAt here offset x (c :: cs) k pre' body' post := by
  have hx := h.start_le
  by_cases hk : k = 0
  · subst hk
    obtain rfl := h.first rfl
    refine ⟨[], c :: body, ?_⟩
    constructor
    · rw [h.run]
      rfl
    · rfl
    · rw [hends, h.stop]
      simp [Nat.add_assoc]
    · omega
    · exact fun _ => rfl
    · have hfit : c.utf8Size ≤ x - offset := by
        rw [bytes_nil] at hx
        omega
      have hw := h.walk
      rw [if_pos rfl, bytes_nil, Nat.add_zero (offset + c.utf8Size), Nat.sub_add_eq] at hw
      rw [hwalk, Nat.sub_add_eq, hw, if_pos rfl, bytes_nil, Nat.add_zero offset, within,
        if_pos hfit, units16, ← Nat.add_assoc]
  · refine ⟨c :: pre, body, ?_⟩
    have hsucc : ∃ j, k = j + 1 := ⟨k - 1, by omega⟩
    obtain ⟨j, rfl⟩ := hsucc
    constructor
    · rw [h.run]
      rfl
    · rw [hstarts, List.getElem?_cons_succ, ← List.getElem?_cons_succ, h.start, bytes_cons,
        Nat.add_assoc]
    · rw [hends, h.stop, bytes_cons, Nat.add_assoc offset]
    · rw [bytes_cons]
      omega
    · exact fun h0 => absurd h0 hk
    · rw [hwalk, h.walk, if_neg hk, if_neg hk, bytes_cons, Nat.add_assoc offset]

/-- **Every offset has its line**, the one after as many line starts as are not past it. -/
theorem exists_lineAt (here : Position) (offset x : Nat) (cs : List Char) (hx : offset ≤ x) :
    ∃ pre body post,
      LineAt here offset x cs ((lineStarts offset cs).countP (· ≤ x)) pre body post := by
  fun_induction lineStarts offset cs generalizing here x with
  | case1 offset =>
    exact ⟨[], [], [], .ofTerminator hx rfl rfl⟩
  | case2 offset cs ih =>
    by_cases hfit : offset + 2 ≤ x
    · obtain ⟨pre, body, post, h⟩ := ih ⟨here.line + 1, 1⟩ x hfit
      rw [countP_cons_le hfit]
      refine ⟨_, body, post, h.afterTerminator ['\r', '\n'] rfl ?_ ?_ ?_⟩
      · rfl
      · rfl
      · show Text.walk here (x - offset) ('\r' :: '\n' :: cs) = _
        rw [walk, if_pos (by omega), Nat.sub_add_eq]
    · rw [countP_cons_gt (by omega), countP_lineStarts_of_le cs (by omega)]
      refine ⟨[], [], _, .ofTerminator hx rfl ?_⟩
      rw [walk, if_neg (by omega)]
  | case3 offset c cs hcr hend ih =>
    have hone := utf8Size_of_isLineEnd hend
    have hstarts : lineStarts offset (c :: cs) = (offset + 1) :: lineStarts (offset + 1) cs := by
      rw [lineStarts.eq_3 _ _ _ hcr, if_pos hend]
    have hends : lineEnds offset (c :: cs) = offset :: lineEnds (offset + 1) cs := by
      rw [lineEnds.eq_3 _ _ _ hcr, if_pos hend]
    by_cases hfit : offset + 1 ≤ x
    · obtain ⟨pre, body, post, h⟩ := ih ⟨here.line + 1, 1⟩ x hfit
      rw [countP_cons_le hfit]
      refine ⟨_, body, post, h.afterTerminator [c] (by simpa using hone) hstarts hends ?_⟩
      show Text.walk here (x - offset) (c :: cs) = _
      rw [walk.eq_3 _ _ _ _ hcr, if_pos (by omega), if_pos hend, hone, Nat.sub_add_eq]
    · rw [countP_cons_gt (by omega), countP_lineStarts_of_le cs (by omega)]
      refine ⟨[], [], _, .ofTerminator hx (by rw [hends]; rfl) ?_⟩
      rw [walk.eq_3 _ _ _ _ hcr, if_neg (by omega)]
  | case4 offset c cs hcr hend ih =>
    have hstarts : lineStarts offset (c :: cs) = lineStarts (offset + c.utf8Size) cs := by
      rw [lineStarts.eq_3 _ _ _ hcr, if_neg hend]
    have hends : lineEnds offset (c :: cs) = lineEnds (offset + c.utf8Size) cs := by
      rw [lineEnds.eq_3 _ _ _ hcr, if_neg hend]
    by_cases hfit : offset + c.utf8Size ≤ x
    · obtain ⟨pre, body, post, h⟩ := ih ⟨here.line, here.col + charUnits16 c⟩ x hfit
      have hwalk : Text.walk here (x - offset) (c :: cs) =
          Text.walk ⟨here.line, here.col + charUnits16 c⟩ (x - (offset + c.utf8Size)) cs := by
        rw [walk.eq_3 _ _ _ _ hcr, if_pos (by omega), if_neg hend, Nat.sub_add_eq]
      obtain ⟨pre', body', h'⟩ := h.afterChar hstarts hends hwalk
      exact ⟨pre', body', post, h'⟩
    · -- inside the character: the line is the one right after it, seen from its front
      have hzero : (lineStarts (offset + c.utf8Size) cs).countP (· ≤ x) = 0 :=
        countP_lineStarts_of_le cs (by omega)
      obtain ⟨pre, body, post, h⟩ := ih here (offset + c.utf8Size) (Nat.le_refl _)
      rw [countP_lineStarts_of_le cs (Nat.le_refl _)] at h
      obtain rfl := h.first rfl
      rw [hzero]
      refine ⟨[], c :: body, post, ?_⟩
      constructor
      · rw [h.run]
        rfl
      · rfl
      · rw [hends, h.stop]
        simp [Nat.add_assoc]
      · simpa using hx
      · exact fun _ => rfl
      · rw [walk.eq_3 _ _ _ _ hcr, if_neg (by omega), if_pos rfl, bytes_nil, Nat.add_zero offset,
          within, if_neg (by omega)]
        rfl

/-! ## 4. Positions -/

namespace LineIndex

/-- What a table answers when the line is there and can be cut. -/
theorem place_of_entries {index : LineIndex} {text : String} {offset start stop : Nat}
    {body : List Char} (hlength : Text.length text = index.length)
    (hstart : index.starts[index.lineOf (min offset index.length)]? = some start)
    (hstop : index.ends[index.lineOf (min offset index.length)]? = some stop)
    (hcut : cut text.toList start
      (roundDown text.toList start (min (min offset index.length) stop)) = .ok body) :
    index.place text offset =
      .ok (index.lineOf (min offset index.length), units16 body) := by
  have hs : entry index.starts (index.lineOf (min offset index.length)) = .ok start := by
    rw [entry, hstart]
  have he : entry index.ends (index.lineOf (min offset index.length)) = .ok stop := by
    rw [entry, hstop]
  unfold place
  rw [if_pos hlength]
  exact bind_eq_ok.2 ⟨start, hs, bind_eq_ok.2 ⟨stop, he, bind_eq_ok.2
    ⟨body, mapError_eq_ok.2 hcut, rfl⟩⟩⟩

/-- The line of an offset: the number of line starts up to it. -/
theorem lineOf_ofText (text : String) (x : Nat) :
    (ofText text).lineOf x = (lineStarts 0 text.toList).countP (· ≤ x) := by
  have hsorted : (ofText text).starts.toList.Pairwise (· < ·) :=
    .cons (fun _ h => lt_of_mem_lineStarts h) (lineStarts_sorted 0 _)
  unfold lineOf
  rw [countUpTo_eq_countP hsorted]
  show (0 :: lineStarts 0 text.toList).countP (· ≤ x) - 1 = _
  rw [countP_cons_le (Nat.zero_le x), Nat.add_sub_cancel]

/-- **The table of a text agrees with the walk and never faults**: every offset has a place, and its
    position is one further in both. -/
theorem exists_place (text : String) (offset : Nat) :
    ∃ line units, (ofText text).place text offset = .ok (line, units) ∧
      positionAt text offset = ⟨line + 1, units + 1⟩ := by
  have hclamp : positionAt text offset =
      walk ⟨1, 1⟩ (min offset (ofText text).length) text.toList :=
    (positionAt_min text offset).symm
  generalize hx : min offset (ofText text).length = x at hclamp
  obtain ⟨pre, body, post, h⟩ := exists_lineAt ⟨1, 1⟩ 0 x text.toList (Nat.zero_le x)
  rw [← lineOf_ofText] at h
  have hstart := h.start
  have hstop := h.stop
  have hle := h.start_le
  have hwalk := h.walk
  rw [Nat.zero_add] at hstart hstop hle hwalk
  rw [Nat.sub_zero, ite_self] at hwalk
  -- the part of the line up to the offset, in whole characters
  have hround : roundDown text.toList (bytes pre) (min x (bytes pre + bytes body)) =
      bytes pre + bytes (within (x - bytes pre) body) := by
    have hmin : min x (bytes pre + bytes body) =
        bytes pre + min (x - bytes pre) (bytes body) := by omega
    rw [hmin, h.run, roundDown_append _ _ _ _ (Nat.min_le_right _ _), within_min]
  have hcut : cut text.toList (bytes pre)
      (bytes pre + bytes (within (x - bytes pre) body)) = .ok (within (x - bytes pre) body) := by
    obtain ⟨⟨rest, hrest⟩, -⟩ := within_spec (x - bytes pre) body
    have hrun : text.toList = pre ++ (within (x - bytes pre) body ++ (rest ++ post)) := by
      rw [← List.append_assoc (within _ _), ← hrest]
      exact h.run
    rw [hrun]
    exact cut_append _ _ _
  subst hx
  refine ⟨_, _, place_of_entries rfl ((List.getElem?_toArray ..).trans hstart)
    ((List.getElem?_toArray ..).trans hstop) (by rw [hround, hcut]), ?_⟩
  rw [hclamp, hwalk, Nat.add_comm 1, Nat.add_comm 1]

theorem position_ofText (text : String) (offset : Nat) :
    (ofText text).position text offset = .ok (positionAt text offset) := by
  obtain ⟨line, units, hplace, hposition⟩ := exists_place text offset
  unfold position
  rw [hplace, hposition]
  rfl

/-- The table gives a span the positions of its ends. -/
theorem range_ofText (text : String) (span : Span) :
    (ofText text).range text span =
      .ok (positionAt text span.start, positionAt text span.stop) := by
  unfold range
  rw [position_ofText, position_ofText]
  rfl

end LineIndex

end Recast.Text
