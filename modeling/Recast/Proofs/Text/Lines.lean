import Mathlib.Data.List.TakeWhile
import Mathlib.Data.Nat.Count
import Recast.Proofs.Text.LineIndex

/-!
# Lines of a text

What a position means, said without walking and without a table. A terminator ends at an offset when
a line feed stands right before it, or a carriage return that no line feed follows; the lines are
what lies between.

* `EndsLine`, `terminatorsUpTo`: where terminators end, and how many have ended by an offset;
* `IsLine`: the line after so many terminators; `IsLine.unique`: there is only one;
* `EndsOn`, `exists_endsOn`: every walk ends on a line, at a column that counts what it read there;
* `Reaches`: the longest run of whole characters of a line that does not go past an offset;
* `position_on_line`: **the table of a text gives every offset the number of its line, and a column
  that counts what stands before it there.**
-/

namespace Recast.Text

variable {c : Char} {cs : List Char} {e n k : Nat}

/-! ## 1. Terminators -/

/-- A character ends a line before `next`: a line feed, or a carriage return that no line feed
    follows. A carriage return with a line feed is one terminator, which the line feed ends. -/
def Terminates (c : Char) (next : Option Char) : Prop := c = '\n' ∨ c = '\r' ∧ next ≠ some '\n'

instance (c : Char) (next : Option Char) : Decidable (Terminates c next) :=
  inferInstanceAs (Decidable (c = '\n' ∨ c = '\r' ∧ next ≠ some '\n'))

/-- A terminator of a run ends at an offset. -/
def EndsLine (cs : List Char) (e : Nat) : Prop :=
  ∃ pre c post, cs = pre ++ c :: post ∧ e = bytes pre + c.utf8Size ∧ Terminates c post.head?

theorem not_endsLine_nil (e : Nat) : ¬ EndsLine [] e := by
  intro h
  obtain ⟨pre, c, post, hrun, -⟩ := h
  simp at hrun

theorem endsLine_cons : EndsLine (c :: cs) e ↔ c.utf8Size ≤ e ∧
    (e = c.utf8Size ∧ Terminates c cs.head? ∨ EndsLine cs (e - c.utf8Size)) := by
  constructor
  · intro h
    obtain ⟨pre, c', post, hrun, he, hterm⟩ := h
    cases pre with
    | nil =>
      cases hrun
      exact ⟨by simp [he], .inl ⟨by simpa using he, hterm⟩⟩
    | cons d pre =>
      cases hrun
      rw [bytes_cons] at he
      exact ⟨by omega, .inr ⟨pre, c', post, rfl, by omega, hterm⟩⟩
  · intro h
    obtain ⟨hle, ⟨he, hterm⟩ | ⟨pre, c', post, hrun, he, hterm⟩⟩ := h
    · exact ⟨[], c, cs, rfl, by simpa using he, hterm⟩
    · exact ⟨c :: pre, c', post, by rw [hrun, List.cons_append], by rw [bytes_cons]; omega, hterm⟩

theorem not_endsLine_of_lt (h : e < c.utf8Size) : ¬ EndsLine (c :: cs) e := by
  rw [endsLine_cons]
  omega

theorem not_endsLine_zero (cs : List Char) : ¬ EndsLine cs 0 := by
  cases cs with
  | nil => exact not_endsLine_nil 0
  | cons c cs => exact not_endsLine_of_lt c.utf8Size_pos

/-- Whether a terminator ends at an offset can be read off the run. -/
def decideEndsLine : (cs : List Char) → (e : Nat) → Decidable (EndsLine cs e)
  | [], e => .isFalse (not_endsLine_nil e)
  | c :: cs, e =>
    have := decideEndsLine cs (e - c.utf8Size)
    decidable_of_iff _ endsLine_cons.symm

instance (cs : List Char) : DecidablePred (EndsLine cs) := decideEndsLine cs

/-- The number of terminators of a run that end at or before an offset. -/
def terminatorsUpTo (cs : List Char) (n : Nat) : Nat := Nat.count (EndsLine cs) (n + 1)

theorem terminatorsUpTo_succ (cs : List Char) (n : Nat) :
    terminatorsUpTo cs (n + 1) = terminatorsUpTo cs n + if EndsLine cs (n + 1) then 1 else 0 :=
  Nat.count_succ _ _

theorem terminatorsUpTo_zero (cs : List Char) : terminatorsUpTo cs 0 = 0 := by
  refine Nat.count_of_forall_not fun m hm => ?_
  obtain rfl : m = 0 := by omega
  exact not_endsLine_zero cs

theorem terminatorsUpTo_nil (n : Nat) : terminatorsUpTo [] n = 0 :=
  Nat.count_of_forall_not fun m _ => not_endsLine_nil m

/-- Inside the first character no terminator has ended. -/
theorem terminatorsUpTo_of_lt (h : n < c.utf8Size) : terminatorsUpTo (c :: cs) n = 0 :=
  Nat.count_of_forall_not fun m hm => not_endsLine_of_lt (by omega)

/-- After the first character there are those of the rest, and its own if it ends a line. -/
theorem terminatorsUpTo_cons (c : Char) (cs : List Char) (n : Nat) :
    terminatorsUpTo (c :: cs) (c.utf8Size + n) =
      terminatorsUpTo cs n + if Terminates c cs.head? then 1 else 0 := by
  induction n with
  | zero =>
    obtain ⟨s, hs⟩ : ∃ s, c.utf8Size = s + 1 := ⟨c.utf8Size - 1, by have := c.utf8Size_pos; omega⟩
    have hend : EndsLine (c :: cs) (s + 1) ↔ Terminates c cs.head? := by
      rw [endsLine_cons, hs, Nat.sub_self]
      simp [not_endsLine_zero]
    rw [Nat.add_zero, hs, terminatorsUpTo_succ, terminatorsUpTo_of_lt (by omega),
      terminatorsUpTo_zero]
    simp only [hend]
  | succ n ih =>
    have hend : EndsLine (c :: cs) (c.utf8Size + n + 1) ↔ EndsLine cs (n + 1) := by
      have hsub : c.utf8Size + n + 1 - c.utf8Size = n + 1 := by omega
      rw [endsLine_cons, hsub]
      constructor
      · intro h
        exact h.2.resolve_left fun h' => by omega
      · intro h
        exact ⟨by omega, .inr h⟩
    rw [← Nat.add_assoc, terminatorsUpTo_succ, terminatorsUpTo_succ, ih, Nat.add_right_comm]
    simp only [hend]

theorem terminatorsUpTo_le (cs : List Char) (n : Nat) : terminatorsUpTo cs n ≤ n := by
  induction n with
  | zero => rw [terminatorsUpTo_zero]
  | succ n ih =>
    rw [terminatorsUpTo_succ]
    split <;> omega

/-! ## 2. Lines -/

/-- The line of a run that follows its first `k` terminators: the last of them ends right before it,
    unless it is the first line, and it goes on up to a terminator or to the end of the run. -/
structure IsLine (cs : List Char) (k : Nat) (before content after : List Char) : Prop where
  run : cs = before ++ (content ++ after)
  number : terminatorsUpTo cs (bytes before) = k
  start : before = [] ∨ EndsLine cs (bytes before)
  content : ∀ c ∈ content, isLineEnd c = false
  stop : ∀ c ∈ after.head?, isLineEnd c = true

namespace IsLine

variable {before content after before' content' after' : List Char}

/-- At the end of a terminator one more has ended than right before it. -/
theorem number_of_endsLine (h : IsLine cs k before content after)
    (hend : EndsLine cs (bytes before)) : k = Nat.count (EndsLine cs) (bytes before) + 1 := by
  rw [← h.number]
  exact Nat.count_succ_eq_succ_count hend

theorem bytes_before_eq (h : IsLine cs k before content after)
    (h' : IsLine cs k before' content' after') : bytes before = bytes before' := by
  rcases h.start with hnil | hend
  · rcases h'.start with hnil' | hend'
    · rw [hnil, hnil']
    · -- the first line has no terminator before it
      have hzero := h.number
      rw [hnil, bytes_nil, terminatorsUpTo_zero] at hzero
      have := h'.number_of_endsLine hend'
      omega
  · rcases h'.start with hnil' | hend'
    · have hzero := h'.number
      rw [hnil', bytes_nil, terminatorsUpTo_zero] at hzero
      have := h.number_of_endsLine hend
      omega
    · have hcount := h.number_of_endsLine hend
      have hcount' := h'.number_of_endsLine hend'
      exact Nat.count_injective hend hend' (by omega)

theorem content_eq (h : IsLine cs k before content after) :
    content = (content ++ after).takeWhile (! isLineEnd ·) := by
  have hafter : after.takeWhile (! isLineEnd ·) = [] := by
    cases after with
    | nil => rfl
    | cons c after =>
      have hc := h.stop c rfl
      rw [List.takeWhile_cons_of_neg (by simp [hc])]
  rw [List.takeWhile_append_of_pos (by simpa using h.content), hafter, List.append_nil]

/-- **There is one line with a number.** -/
theorem unique (h : IsLine cs k before content after)
    (h' : IsLine cs k before' content' after') :
    before = before' ∧ content = content' ∧ after = after' := by
  have hcut := cutAt?_bytes before (content ++ after)
  have hcut' := cutAt?_bytes before' (content' ++ after')
  rw [← h.run, h.bytes_before_eq h', h'.run, hcut', Option.some.injEq, Prod.mk.injEq] at hcut
  obtain ⟨hbefore, hrest⟩ := hcut
  have hcontent : content = content' := by rw [h.content_eq, h'.content_eq, hrest]
  refine ⟨hbefore.symm, hcontent, ?_⟩
  rw [hcontent] at hrest
  exact (List.append_cancel_left hrest).symm

/-- The first line of a run. -/
theorem first (cs : List Char) :
    IsLine cs 0 [] (cs.takeWhile (! isLineEnd ·)) (cs.dropWhile (! isLineEnd ·)) where
  run := List.takeWhile_append_dropWhile.symm
  number := terminatorsUpTo_zero cs
  start := .inl rfl
  content c hc := by simpa using List.mem_takeWhile_imp hc
  stop c hc := by
    have hhead := List.head?_dropWhile_not (! isLineEnd ·) cs
    rw [hc] at hhead
    simpa using hhead

/-- A terminator in front makes every line the next one. -/
theorem cons_terminator (h : IsLine cs k before content after) (hc : Terminates c cs.head?) :
    IsLine (c :: cs) (k + 1) (c :: before) content after where
  run := congrArg (c :: ·) h.run
  number := by rw [bytes_cons, terminatorsUpTo_cons, if_pos hc, h.number]
  start := by
    refine .inr (endsLine_cons.2 ⟨Nat.le_add_right _ _, ?_⟩)
    rcases h.start with hnil | hend
    · exact .inl ⟨by rw [hnil]; rfl, hc⟩
    · exact .inr (by rwa [bytes_cons, Nat.add_sub_cancel_left])
  content := h.content
  stop := h.stop

/-- Any other character in front of a later line changes nothing. -/
theorem cons_before (h : IsLine cs k before content after) (hbefore : before ≠ [])
    (hc : ¬ Terminates c cs.head?) : IsLine (c :: cs) k (c :: before) content after where
  run := congrArg (c :: ·) h.run
  number := by rw [bytes_cons, terminatorsUpTo_cons, if_neg hc, h.number, Nat.add_zero]
  start := by
    have hend := h.start.resolve_left hbefore
    exact .inr (endsLine_cons.2 ⟨Nat.le_add_right _ _,
      .inr (by rwa [bytes_cons, Nat.add_sub_cancel_left])⟩)
  content := h.content
  stop := h.stop

/-- In front of the first line it makes that line longer. -/
theorem cons_content (h : IsLine cs k [] content after) (hc : isLineEnd c = false) :
    IsLine (c :: cs) k [] (c :: content) after where
  run := congrArg (c :: ·) h.run
  number := by
    have hzero := h.number
    rw [bytes_nil, terminatorsUpTo_zero] at hzero ⊢
    exact hzero
  start := .inl rfl
  content := List.forall_mem_cons.2 ⟨hc, h.content⟩
  stop := h.stop

end IsLine

/-! ## 3. The walk -/

/-- Unless it is followed by a line feed, a character ends a line exactly when it can. -/
theorem terminates_iff (h : ∀ rest, c = '\r' → cs = '\n' :: rest → False) :
    Terminates c cs.head? ↔ isLineEnd c = true := by
  have hhead : c = '\r' → cs.head? ≠ some '\n' := by
    intro hc hnext
    cases cs with
    | nil => cases hnext
    | cons d rest => exact h rest hc (by rw [Option.some.inj hnext])
  unfold Terminates isLineEnd
  rw [Bool.or_eq_true, beq_iff_eq, beq_iff_eq]
  exact or_congr_right ⟨And.left, fun hc => ⟨hc, hhead hc⟩⟩

theorem terminates_lineFeed (next : Option Char) : Terminates '\n' next := .inl rfl

theorem not_terminates_before_lineFeed (cs : List Char) :
    ¬ Terminates '\r' ('\n' :: cs).head? := by
  unfold Terminates
  simp

/-- A carriage return with a line feed is one terminator, and is over after both. -/
theorem terminatorsUpTo_crlf (cs : List Char) (n : Nat) :
    terminatorsUpTo ('\r' :: '\n' :: cs) (n + 2) = terminatorsUpTo cs n + 1 := by
  have hsum : n + 2 = '\r'.utf8Size + ('\n'.utf8Size + n) := by
    show n + 2 = 1 + (1 + n)
    omega
  rw [hsum, terminatorsUpTo_cons, if_neg (not_terminates_before_lineFeed cs), terminatorsUpTo_cons,
    if_pos (terminates_lineFeed _), Nat.add_zero]

theorem terminatorsUpTo_crlf_of_lt (cs : List Char) (h : n < 2) :
    terminatorsUpTo ('\r' :: '\n' :: cs) n = 0 := by
  rcases Nat.lt_or_ge n 1 with hzero | hone
  · exact terminatorsUpTo_of_lt hzero
  · obtain rfl : n = '\r'.utf8Size + 0 := by
      show n = 1 + 0
      omega
    rw [terminatorsUpTo_cons, if_neg (not_terminates_before_lineFeed cs), terminatorsUpTo_zero]

-- The offset between the two is still on the line before.
example : (List.range 8).map (terminatorsUpTo ['a', '\r', '\n', 'é', '\r', '\n']) =
    [0, 0, 0, 1, 1, 1, 1, 2] := by decide

/-- A walk of `n` bytes from `here` ends on this line: so many terminators further down, and after the
    code units of the whole characters of the line that still fit. -/
structure EndsOn (here : Position) (n : Nat) (cs before content after : List Char) : Prop where
  line : IsLine cs (terminatorsUpTo cs n) before content after
  start_le : bytes before ≤ n
  walk : walk here n cs = ⟨here.line + terminatorsUpTo cs n,
    (if before = [] then here.col else 1) + units16 (within (n - bytes before) content)⟩

namespace EndsOn

variable {here : Position} {before content after : List Char}

/-- A walk that stays where it is ends on the first line. -/
theorem stay (hcount : terminatorsUpTo cs n = 0) (hwalk : Text.walk here n cs = here)
    (hnone : within n (cs.takeWhile (! isLineEnd ·)) = []) :
    EndsOn here n cs [] (cs.takeWhile (! isLineEnd ·)) (cs.dropWhile (! isLineEnd ·)) where
  line := by
    rw [hcount]
    exact IsLine.first cs
  start_le := Nat.zero_le n
  walk := by
    rw [hwalk, hcount, bytes_nil, Nat.sub_zero, hnone]
    rfl

/-- A carriage return with a line feed in front moves the end one line down. -/
theorem afterPair (h : EndsOn ⟨here.line + 1, 1⟩ n cs before content after) :
    EndsOn here (n + 2) ('\r' :: '\n' :: cs) ('\r' :: '\n' :: before) content after := by
  have hbytes : bytes ('\r' :: '\n' :: before) = bytes before + 2 := by
    show 1 + (1 + bytes before) = _
    omega
  constructor
  · rw [terminatorsUpTo_crlf]
    exact (h.line.cons_terminator (terminates_lineFeed _)).cons_before (List.cons_ne_nil _ _)
      (not_terminates_before_lineFeed cs)
  · rw [hbytes]
    exact Nat.add_le_add_right h.start_le 2
  · rw [Text.walk, if_pos (Nat.le_add_left 2 n), Nat.add_sub_cancel, h.walk, ite_self,
      if_neg (List.cons_ne_nil _ _), hbytes, Nat.add_sub_add_right, terminatorsUpTo_crlf,
      Nat.add_right_comm, Nat.add_assoc here.line]

/-- So does any other terminator. -/
theorem afterTerminator (h : EndsOn ⟨here.line + 1, 1⟩ n cs before content after)
    (hcr : ∀ rest, c = '\r' → cs = '\n' :: rest → False) (hend : isLineEnd c = true) :
    EndsOn here (c.utf8Size + n) (c :: cs) (c :: before) content after := by
  have hterm := (terminates_iff hcr).2 hend
  have hcount : terminatorsUpTo (c :: cs) (c.utf8Size + n) = terminatorsUpTo cs n + 1 := by
    rw [terminatorsUpTo_cons, if_pos hterm]
  constructor
  · rw [hcount]
    exact h.line.cons_terminator hterm
  · exact Nat.add_le_add_left h.start_le _
  · rw [walk.eq_3 _ _ _ _ hcr, if_pos (Nat.le_add_right _ _), if_pos hend, Nat.add_sub_cancel_left,
      h.walk, ite_self, if_neg (List.cons_ne_nil _ _), bytes_cons, Nat.add_sub_add_left, hcount,
      Nat.add_right_comm, Nat.add_assoc here.line]

/-- Any other character in front of the first line makes it longer; in front of a later one it changes
    nothing. -/
theorem afterChar (h : EndsOn ⟨here.line, here.col + charUnits16 c⟩ n cs before content after)
    (hcr : ∀ rest, c = '\r' → cs = '\n' :: rest → False) (hend : isLineEnd c = false) :
    ∃ before' content', EndsOn here (c.utf8Size + n) (c :: cs) before' content' after := by
  have hterm : ¬ Terminates c cs.head? := by
    rw [terminates_iff hcr, hend]
    exact Bool.false_ne_true
  have hcount : terminatorsUpTo (c :: cs) (c.utf8Size + n) = terminatorsUpTo cs n := by
    rw [terminatorsUpTo_cons, if_neg hterm, Nat.add_zero]
  have hwalk : Text.walk here (c.utf8Size + n) (c :: cs) =
      Text.walk ⟨here.line, here.col + charUnits16 c⟩ n cs := by
    rw [walk.eq_3 _ _ _ _ hcr, if_pos (Nat.le_add_right _ _), hend, if_neg Bool.false_ne_true,
      Nat.add_sub_cancel_left]
  by_cases hbefore : before = []
  · subst hbefore
    refine ⟨[], c :: content, ?_, Nat.zero_le _, ?_⟩
    · rw [hcount]
      exact h.line.cons_content hend
    · rw [hwalk, h.walk, hcount, if_pos rfl, if_pos rfl, bytes_nil, Nat.sub_zero, Nat.sub_zero,
        within, if_pos (Nat.le_add_right _ _), Nat.add_sub_cancel_left, units16, Nat.add_assoc]
  · refine ⟨c :: before, content, ?_, Nat.add_le_add_left h.start_le _, ?_⟩
    · rw [hcount]
      exact h.line.cons_before hbefore hterm
    · rw [hwalk, h.walk, hcount, if_neg hbefore, if_neg (List.cons_ne_nil _ _), bytes_cons,
        Nat.add_sub_add_left]

end EndsOn

/-- **Every walk ends on a line**, the one after as many terminators as have ended by then. -/
theorem exists_endsOn (here : Position) (n : Nat) (cs : List Char) :
    ∃ before content after, EndsOn here n cs before content after := by
  fun_induction walk here n cs with
  | case1 here n => exact ⟨_, _, _, .stay (terminatorsUpTo_nil n) rfl rfl⟩
  | case2 here n cs hfit ih =>
    obtain ⟨before, content, after, h⟩ := ih
    obtain ⟨m, rfl⟩ : ∃ m, n = m + 2 := ⟨n - 2, by omega⟩
    exact ⟨_, _, _, h.afterPair⟩
  | case3 here n cs hfit =>
    refine ⟨_, _, _, .stay (terminatorsUpTo_crlf_of_lt cs (by omega)) ?_ rfl⟩
    rw [walk, if_neg hfit]
  | case4 here n c cs hcr hfit ih =>
    obtain ⟨before, content, after, h⟩ := ih
    obtain ⟨m, rfl⟩ : ∃ m, n = c.utf8Size + m := ⟨n - c.utf8Size, by omega⟩
    rw [Nat.add_sub_cancel_left] at h
    cases hend : isLineEnd c with
    | true =>
      rw [hend, if_pos rfl] at h
      exact ⟨_, _, _, h.afterTerminator hcr hend⟩
    | false =>
      rw [hend, if_neg Bool.false_ne_true] at h
      obtain ⟨before', content', h'⟩ := h.afterChar hcr hend
      exact ⟨_, _, _, h'⟩
  | case5 here n c cs hcr hfit =>
    refine ⟨_, _, _, .stay (terminatorsUpTo_of_lt (by omega)) ?_ ?_⟩
    · rw [walk.eq_3 _ _ _ _ hcr, if_neg hfit]
    · rw [List.takeWhile_cons]
      split
      · rw [within, if_neg hfit]
      · rfl

/-! ## 4. Columns -/

/-- `part` is the longest run of whole characters at the front of `content` that does not go past an
    offset, `content` itself starting at `start`. -/
structure Reaches (start offset : Nat) (content part : List Char) : Prop where
  isPrefix : part <+: content
  fits : start + bytes part ≤ offset
  longest : ∀ p, p <+: content → start + bytes p ≤ offset → p <+: part

theorem isPrefix_within {p : List Char} (hp : p <+: cs) (h : bytes p ≤ n) : p <+: within n cs := by
  induction p generalizing n cs with
  | nil => exact List.nil_prefix
  | cons c p ih =>
    obtain ⟨rest, rfl⟩ := hp
    rw [bytes_cons] at h
    rw [List.cons_append, within, if_pos (by omega)]
    have htail := ih (List.prefix_append p rest) (Nat.le_sub_of_add_le' h)
    exact List.cons_prefix_cons.2 ⟨rfl, htail⟩

theorem reaches_within {start offset : Nat} (content : List Char) (h : start ≤ offset) :
    Reaches start offset content (within (offset - start) content) := by
  obtain ⟨⟨post, hpost⟩, hfits⟩ := within_spec (offset - start) content
  refine ⟨⟨post, hpost.symm⟩, by omega, ?_⟩
  intro p hp hle
  exact isPrefix_within hp (by omega)

theorem charUnits16_le_utf8Size (c : Char) : charUnits16 c ≤ c.utf8Size := by
  have hpos := c.utf8Size_pos
  unfold charUnits16
  split
  · exact hpos
  · rename_i hlarge
    -- a character outside the first plane takes four bytes
    have hsmall : ∀ v : UInt32, v ≤ 0xFFFF → ¬ c.val ≤ v := by
      intro v hv hle
      have hplane : c.toNat ≤ 0xFFFF := Nat.le_trans hle hv
      omega
    rw [Char.utf8Size, if_neg (hsmall _ (by decide)), if_neg (hsmall _ (by decide)),
      if_neg (hsmall _ (by decide))]
    decide

theorem units16_le_bytes (cs : List Char) : units16 cs ≤ bytes cs := by
  induction cs with
  | nil => exact Nat.le_refl 0
  | cons c cs ih => exact Nat.add_le_add (charUnits16_le_utf8Size c) ih

/-- **A table of lines gives every offset its line and column.** The line is the one after as many
    terminators as end at or before the offset, and is counted from one; the column is one more than
    the code units of the longest run of whole characters that the line holds up to the offset. An
    offset past the end is the end, and neither number is past the length of the text by more than
    one. -/
theorem position_on_line (text : String) (offset : Nat) :
    ∃ before content after part,
      IsLine text.toList (terminatorsUpTo text.toList (min offset (length text)))
        before content after ∧
      (∀ b c a, IsLine text.toList (terminatorsUpTo text.toList (min offset (length text))) b c a →
        b = before ∧ c = content ∧ a = after) ∧
      Reaches (bytes before) (min offset (length text)) content part ∧
      (LineIndex.ofText text).position text offset =
        .ok ⟨1 + terminatorsUpTo text.toList (min offset (length text)), 1 + units16 part⟩ ∧
      1 + terminatorsUpTo text.toList (min offset (length text)) ≤ length text + 1 ∧
      1 + units16 part ≤ length text + 1 := by
  have hx : min offset (length text) ≤ length text := Nat.min_le_right _ _
  have hposition := LineIndex.position_ofText text offset
  rw [← positionAt_min] at hposition
  generalize min offset (length text) = x at hx hposition ⊢
  obtain ⟨before, content, after, hends⟩ := exists_endsOn ⟨1, 1⟩ x text.toList
  have hreach := reaches_within content hends.start_le
  refine ⟨before, content, after, _, hends.line, fun b c a h => h.unique hends.line, hreach,
    ?_, ?_, ?_⟩
  · rw [hposition, positionAt, hends.walk, ite_self]
  · have hcount := terminatorsUpTo_le text.toList x
    omega
  · have hunits := units16_le_bytes (within (x - bytes before) content)
    have hfits := hreach.fits
    omega

end Recast.Text
