import Recast.Proofs.Text.Lines
import Recast.Proofs.Text.Order

/-!
# Lines and columns in words

Lines and columns are kept in words of 32 bits, and counting them from one adds one to a count. The
counts fit: none is more than the length of the text, which is itself an offset. The sum need not:
in a text of 2^32 - 1 bytes a count can be the largest word, and its line or column is then zero.

* `Position.lineCol`: a position in words;
* `lineCol_ofText`: a table gives every offset its position in words, and never faults;
* `lineCol_on_line`: **what the two words count**, exactly for texts that are shorter by one byte;
* `lineCol_order`: **for these texts the words come in the order of the offsets**;
* `lineFeeds`: the text of line feeds only, where both fail at the largest size.
-/

namespace Recast.Text

/-! ## 1. Words -/

/-- A position in words; a number that does not fit wraps around. -/
def Position.lineCol (p : Position) : LineCol := ⟨UInt32.ofNat p.line, UInt32.ofNat p.col⟩

namespace LineCol

/-- The numbers that two words stand for. -/
def position (p : LineCol) : Position := ⟨p.line.toNat, p.col.toNat⟩

instance : LE LineCol := ⟨fun p q => p.line < q.line ∨ p.line = q.line ∧ p.col ≤ q.col⟩

instance : LT LineCol := ⟨fun p q => p.line < q.line ∨ p.line = q.line ∧ p.col < q.col⟩

/-- Words are in the order of what they stand for. -/
theorem le_iff {p q : LineCol} : p ≤ q ↔ p.position ≤ q.position :=
  or_congr UInt32.lt_iff_toNat_lt (and_congr UInt32.toNat_inj.symm UInt32.le_iff_toNat_le)

theorem lt_iff {p q : LineCol} : p < q ↔ p.position < q.position :=
  or_congr UInt32.lt_iff_toNat_lt (and_congr UInt32.toNat_inj.symm UInt32.lt_iff_toNat_lt)

end LineCol

theorem Position.position_lineCol {p : Position} (hline : p.line < 2 ^ 32)
    (hcol : p.col < 2 ^ 32) : p.lineCol.position = p := by
  obtain ⟨line, col⟩ := p
  show (⟨(UInt32.ofNat line).toNat, (UInt32.ofNat col).toNat⟩ : Position) = _
  rw [UInt32.toNat_ofNat_of_lt' hline, UInt32.toNat_ofNat_of_lt' hcol]

/-! ## 2. Positions in words -/

namespace LineIndex

/-- **A table gives every offset its position in words, and never faults.** -/
theorem lineCol_ofText (text : String) (offset : Nat) :
    (ofText text).lineCol text offset = .ok (positionAt text offset).lineCol := by
  obtain ⟨line, units, hplace, hposition⟩ := exists_place text offset
  unfold lineCol
  rw [hplace, hposition]
  unfold Position.lineCol
  rw [UInt32.ofNat_add, UInt32.ofNat_add]
  rfl

theorem lineCols_ofText (text : String) (span : Span) :
    (ofText text).lineCols text span =
      .ok ((positionAt text span.start).lineCol, (positionAt text span.stop).lineCol) := by
  unfold lineCols
  rw [lineCol_ofText, lineCol_ofText]
  rfl

end LineIndex

/-- Neither number is past the length of the text by more than one. -/
theorem positionAt_le_length (text : String) (offset : Nat) :
    (positionAt text offset).line ≤ length text + 1 ∧
      (positionAt text offset).col ≤ length text + 1 := by
  obtain ⟨_, _, _, _, _, _, _, hposition, hline, hcol⟩ := position_on_line text offset
  rw [LineIndex.position_ofText] at hposition
  rw [Except.ok.inj hposition]
  exact ⟨hline, hcol⟩

/-- Unless the text has 2^32 - 1 bytes or more, the words stand for the position itself. -/
theorem position_lineCol_positionAt {text : String} (h : length text + 1 < 2 ^ 32) (offset : Nat) :
    (positionAt text offset).lineCol.position = positionAt text offset := by
  obtain ⟨hline, hcol⟩ := positionAt_le_length text offset
  exact Position.position_lineCol (by omega) (by omega)

/-! ## 3. Texts of the largest size -/

/-- A text of `n` line feeds. -/
def lineFeeds (n : Nat) : String := String.ofList (List.replicate n '\n')

theorem toList_lineFeeds (n : Nat) : (lineFeeds n).toList = List.replicate n '\n' :=
  String.toList_ofList

theorem bytes_lineFeeds (n : Nat) : bytes (List.replicate n '\n') = n := by
  induction n with
  | zero => rfl
  | succ n ih =>
    rw [List.replicate_succ, bytes_cons, ih]
    exact Nat.add_comm 1 n

theorem length_lineFeeds (n : Nat) : length (lineFeeds n) = n := by
  unfold length
  rw [toList_lineFeeds, bytes_lineFeeds]

/-- Every line feed moves a walk one line down. -/
theorem walk_lineFeeds (line : Nat) {m n : Nat} (h : m ≤ n) :
    walk ⟨line, 1⟩ m (List.replicate n '\n') = ⟨line + m, 1⟩ := by
  induction n generalizing line m with
  | zero =>
    obtain rfl : m = 0 := Nat.le_zero.1 h
    exact walk_zero _ _
  | succ n ih =>
    cases m with
    | zero => exact walk_zero _ _
    | succ m =>
      have hone : '\n'.utf8Size = 1 := rfl
      rw [List.replicate_succ, walk.eq_3 _ _ _ _ (fun _ hc => absurd hc (by decide)), hone,
        if_pos (Nat.le_add_left 1 m), Nat.add_sub_cancel]
      show walk ⟨line + 1, 1⟩ m (List.replicate n '\n') = _
      rw [ih _ (Nat.le_of_succ_le_succ h), Nat.add_right_comm, Nat.add_assoc line]

theorem lineCol_lineFeeds {m n : Nat} (h : m ≤ n) :
    (LineIndex.ofText (lineFeeds n)).lineCol (lineFeeds n) m = .ok ⟨UInt32.ofNat (1 + m), 1⟩ := by
  rw [LineIndex.lineCol_ofText, positionAt, toList_lineFeeds, walk_lineFeeds 1 h]
  rfl

theorem terminatorsUpTo_lineFeeds {m n : Nat} (h : m ≤ n) :
    terminatorsUpTo (lineFeeds n).toList m = m := by
  rw [toList_lineFeeds]
  induction n generalizing m with
  | zero =>
    obtain rfl : m = 0 := Nat.le_zero.1 h
    exact terminatorsUpTo_zero _
  | succ n ih =>
    cases m with
    | zero => exact terminatorsUpTo_zero _
    | succ m =>
      have hsum : m + 1 = '\n'.utf8Size + m := Nat.add_comm m 1
      rw [List.replicate_succ, hsum, terminatorsUpTo_cons, if_pos (terminates_lineFeed _),
        ih (Nat.le_of_succ_le_succ h), ← hsum]

/-- Between line feeds every offset is a stop. -/
theorem isStop_lineFeeds {m n : Nat} (h : m ≤ n) : IsStop (lineFeeds n).toList m := by
  rw [toList_lineFeeds]
  refine ⟨isBoundary_iff.2 ⟨List.replicate m '\n', List.replicate (n - m) '\n', ?_, ?_⟩, ?_⟩
  · rw [List.replicate_append_replicate, Nat.add_sub_cancel' h]
  · exact bytes_lineFeeds m
  · intro hsplit
    obtain ⟨pre, post, hrun, -⟩ := hsplit
    have hreturn : '\r' ∈ List.replicate n '\n' := by
      rw [hrun]
      exact List.mem_append_right _ List.mem_cons_self
    exact absurd (List.eq_of_mem_replicate hreturn) (by decide)

/-! ## 4. What the words count -/

/-- The word for a number that may be one too large. -/
theorem toNat_ofNat_or (n : Nat) (h : n ≤ 2 ^ 32) :
    (UInt32.ofNat n).toNat = n ∨ n = 2 ^ 32 ∧ UInt32.ofNat n = 0 := by
  rcases Nat.lt_or_eq_of_le h with hlt | rfl
  · exact .inl (UInt32.toNat_ofNat_of_lt' hlt)
  · exact .inr ⟨rfl, rfl⟩

/-- **A table of lines gives every offset its line and column in words.** The line is the one after
    as many terminators as end at or before the offset, and is counted from one; the column is one
    more than the code units of the longest run of whole characters that the line holds up to the
    offset; an offset past the end is the end. The words are these numbers, but for the number 2^32,
    whose word is zero: a text has to be one byte longer than 2^32 - 2 to have it. -/
theorem lineCol_on_line (text : String) (h : length text < 2 ^ 32) (offset : Nat) :
    ∃ before content after part,
      IsLine text.toList (terminatorsUpTo text.toList (min offset (length text)))
        before content after ∧
      (∀ b c a, IsLine text.toList (terminatorsUpTo text.toList (min offset (length text))) b c a →
        b = before ∧ c = content ∧ a = after) ∧
      Reaches (bytes before) (min offset (length text)) content part ∧
      ∃ p, (LineIndex.ofText text).lineCol text offset = .ok p ∧
        (p.line.toNat = 1 + terminatorsUpTo text.toList (min offset (length text)) ∨
          1 + terminatorsUpTo text.toList (min offset (length text)) = 2 ^ 32 ∧ p.line = 0) ∧
        (p.col.toNat = 1 + units16 part ∨ 1 + units16 part = 2 ^ 32 ∧ p.col = 0) ∧
        (length text + 1 < 2 ^ 32 →
          p.line.toNat = 1 + terminatorsUpTo text.toList (min offset (length text)) ∧
          p.col.toNat = 1 + units16 part) := by
  obtain ⟨before, content, after, part, hline, hunique, hreach, hposition, hlines, hunits⟩ :=
    position_on_line text offset
  rw [LineIndex.position_ofText] at hposition
  have hat := Except.ok.inj hposition
  refine ⟨before, content, after, part, hline, hunique, hreach, _,
    LineIndex.lineCol_ofText text offset, ?_, ?_, ?_⟩
  · rw [hat]
    exact toNat_ofNat_or (1 + terminatorsUpTo _ _) (by omega)
  · rw [hat]
    exact toNat_ofNat_or (1 + units16 part) (by omega)
  · intro hshort
    have hwords := position_lineCol_positionAt hshort offset
    rw [hat] at hwords ⊢
    exact ⟨congrArg Position.line hwords, congrArg Position.col hwords⟩

theorem lineCol_on_line_crlf : length "a\r\né😀" < 2 ^ 32 ∧
    terminatorsUpTo "a\r\né😀".toList 7 = 1 ∧ ∃ p,
      (LineIndex.ofText "a\r\né😀").lineCol "a\r\né😀" 7 = .ok p ∧ p.line.toNat = 2 ∧ p = ⟨2, 2⟩ := by
  have hshort : length "a\r\né😀" < 2 ^ 32 := by decide
  obtain ⟨_, _, _, _, -, -, -, p, hp, -, -, hexact⟩ := lineCol_on_line "a\r\né😀" hshort 7
  refine ⟨hshort, by decide, p, hp, (hexact (by decide)).1, ?_⟩
  rw [LineIndex.lineCol_ofText] at hp
  rw [← Except.ok.inj hp]
  decide

/-- In the largest text of line feeds, the line of the end is zero. -/
theorem lineCol_overflow :
    length (lineFeeds 4294967295) = 2 ^ 32 - 1 ∧
    1 + terminatorsUpTo (lineFeeds 4294967295).toList 4294967295 = 2 ^ 32 ∧
    (LineIndex.ofText (lineFeeds 4294967295)).lineCol (lineFeeds 4294967295) 4294967295 =
      .ok ⟨0, 1⟩ := by
  refine ⟨length_lineFeeds _, ?_, lineCol_lineFeeds (Nat.le_refl _)⟩
  rw [terminatorsUpTo_lineFeeds (Nat.le_refl _)]
  decide

/-! ## 5. The order of words -/

/-- **Words come in the order of their offsets**, in a text of at most 2^32 - 2 bytes. A later
    offset has no earlier line and column; of two stops the later one has a later line and column,
    so that a stop can be told from them; and the start of a span is not past its end. -/
theorem lineCol_order (text : String) (h : length text + 1 < 2 ^ 32) :
    (∀ m n, m ≤ n → ∃ p q, (LineIndex.ofText text).lineCol text m = .ok p ∧
      (LineIndex.ofText text).lineCol text n = .ok q ∧ p ≤ q) ∧
    (∀ m n, m < n → IsStop text.toList m → IsStop text.toList n →
      ∃ p q, (LineIndex.ofText text).lineCol text m = .ok p ∧
        (LineIndex.ofText text).lineCol text n = .ok q ∧ p < q) ∧
    (∀ m n, IsStop text.toList m → IsStop text.toList n →
      (LineIndex.ofText text).lineCol text m = (LineIndex.ofText text).lineCol text n → m = n) ∧
    ∀ span : Span, ∃ p q, (LineIndex.ofText text).lineCols text span = .ok (p, q) ∧ p ≤ q := by
  have hwords := position_lineCol_positionAt h
  have hmono {m n : Nat} (hmn : m ≤ n) :
      (positionAt text m).lineCol ≤ (positionAt text n).lineCol := by
    rw [LineCol.le_iff, hwords, hwords]
    exact positionAt_mono text hmn
  refine ⟨?_, ?_, ?_, ?_⟩
  · intro m n hmn
    exact ⟨_, _, LineIndex.lineCol_ofText text m, LineIndex.lineCol_ofText text n, hmono hmn⟩
  · intro m n hmn hm hn
    refine ⟨_, _, LineIndex.lineCol_ofText text m, LineIndex.lineCol_ofText text n, ?_⟩
    rw [LineCol.lt_iff, hwords, hwords]
    exact positionAt_strictMono text hmn hm hn
  · intro m n hm hn hsame
    rw [LineIndex.lineCol_ofText, LineIndex.lineCol_ofText] at hsame
    refine positionAt_injective text hm hn ?_
    rw [← hwords m, ← hwords n, Except.ok.inj hsame]
  · intro span
    exact ⟨_, _, LineIndex.lineCols_ofText text span, hmono span.start_le_stop⟩

theorem lineCol_order_crlf : length "a\r\né😀" + 1 < 2 ^ 32 ∧
    IsStop "a\r\né😀".toList 1 ∧ IsStop "a\r\né😀".toList 5 ∧ ∃ p q,
      (LineIndex.ofText "a\r\né😀").lineCol "a\r\né😀" 1 = .ok p ∧
        (LineIndex.ofText "a\r\né😀").lineCol "a\r\né😀" 5 = .ok q ∧ p < q := by
  have hshort : length "a\r\né😀" + 1 < 2 ^ 32 := by decide
  have hfirst : IsStop "a\r\né😀".toList 1 := by decide
  have hlast : IsStop "a\r\né😀".toList 5 := by decide
  exact ⟨hshort, hfirst, hlast,
    (lineCol_order _ hshort).2.1 1 5 (by decide) hfirst hlast⟩

/-- In the largest text of line feeds, the end comes before the last line feed, and so the span of
    that line feed ends before it starts. -/
theorem lineCol_reversed :
    length (lineFeeds 4294967295) = 2 ^ 32 - 1 ∧
    IsStop (lineFeeds 4294967295).toList 4294967294 ∧
    IsStop (lineFeeds 4294967295).toList 4294967295 ∧
    (LineIndex.ofText (lineFeeds 4294967295)).lineCol (lineFeeds 4294967295) 4294967294 =
      .ok ⟨4294967295, 1⟩ ∧
    (LineIndex.ofText (lineFeeds 4294967295)).lineCol (lineFeeds 4294967295) 4294967295 =
      .ok ⟨0, 1⟩ ∧
    (⟨0, 1⟩ : LineCol) < ⟨4294967295, 1⟩ :=
  ⟨length_lineFeeds _, isStop_lineFeeds (by decide), isStop_lineFeeds (Nat.le_refl _),
    lineCol_lineFeeds (by decide), lineCol_lineFeeds (Nat.le_refl _), .inl (by decide)⟩

end Recast.Text
