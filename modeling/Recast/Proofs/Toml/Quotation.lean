import Mathlib.Tactic.SplitIfs
import Recast.Config.Toml
import Recast.Proofs.Text.Search

/-!
# Strings in TOML are read back

Whatever its characters, a string that stands between quotes is read as that string. Each of the
forms it may be written in has a lemma of its own, about the machine that reads the form; what is
written between three quotes never has three of them in a row, and up to two that the string ends
with are told from those that close it.

* `Escapes`: a run of characters after a backslash that stands for a character;
* `basic?_flatMap_escape`, `literal?_append`: the forms of one line;
* `longAux_escapeLines`, `longAux_lines`: the forms of several lines;
* `quotation?_quoteString`: **a string between quotes is read as that string.**
-/

namespace Recast.Toml

/-! ## 1. Escapes -/

theorem ne_of_isPlain {c : Char} (h : isPlain c = true) : c ≠ '\n' ∧ c ≠ '\r' := by
  constructor
  · rintro rfl
    exact absurd h (by decide)
  · rintro rfl
    exact absurd h (by decide)

theorem hexDigit?_hexChar {n : Nat} (h : n < 16) : Text.hexDigit? (hexChar n) = some n := by
  have hall : ∀ n < 16, Text.hexDigit? (hexChar n) = some n := by decide +kernel
  exact hall n h

/-- Read in a mode after a backslash, a run of characters stands for a character. -/
inductive Escapes (e : Char) : Mode → List Char → Prop
  | last {mode : Mode} {c : Char} (h : escapeStep? mode c = some (.plain, some e)) :
      Escapes e mode [c]
  | next {mode mode' : Mode} {c : Char} {cs : List Char}
      (h : escapeStep? mode c = some (mode', none)) (hcs : Escapes e mode' cs) :
      Escapes e mode (c :: cs)

theorem Escapes.ne_plain {e : Char} {mode : Mode} {cs : List Char} (h : Escapes e mode cs) :
    mode ≠ .plain := by
  rintro rfl
  cases h with
  | last h => cases h
  | next h _ => cases h

/-- A letter after a backslash. -/
theorem escapes_letter {c e : Char} (hcode : codeDigits? c = none) (h : escapedChar? c = some e) :
    Escapes e .escape [c] := by
  refine .last ?_
  simp only [escapeStep?, hcode, h, Option.map_some]

/-- A character by its code. -/
theorem escapes_code {e : Char} (h : e.toNat < 256) :
    Escapes e .escape ['u', '0', '0', hexChar (e.toNat / 16), hexChar (e.toNat % 16)] := by
  have hhigh : escapeStep? (.code 2 0) (hexChar (e.toNat / 16)) =
      some (.code 1 (e.toNat / 16), none) := by
    simp only [escapeStep?, hexDigit?_hexChar (show e.toNat / 16 < 16 by omega), Option.bind_some,
      Nat.zero_mul, Nat.zero_add]
    rfl
  have hlow : escapeStep? (.code 1 (e.toNat / 16)) (hexChar (e.toNat % 16)) =
      some (.plain, some e) := by
    have hcode : e.toNat / 16 * 16 + e.toNat % 16 = e.toNat := by omega
    have hchar : charOfCode? e.toNat = some e := by
      rw [charOfCode?, if_pos (by omega), Char.ofNat_toNat]
    simp only [escapeStep?, hexDigit?_hexChar (show e.toNat % 16 < 16 by omega), Option.bind_some,
      hcode, hchar, Option.map_some]
    rfl
  exact .next rfl (.next rfl (.next rfl (.next hhigh (.last hlow))))

/-- **One character**: it stands for itself, or its escape stands for it. -/
theorem escape_cases (c : Char) :
    (escape c = [c] ∧ isPlain c = true ∧ c ≠ '"' ∧ c ≠ '\\') ∨
      ∃ cs, escape c = '\\' :: cs ∧ Escapes c .escape cs := by
  have hof : ∀ n, c.toNat = n → some (Char.ofNat n) = some c := fun n h => by
    rw [← h, Char.ofNat_toNat]
  unfold escape
  split_ifs with hb ht hn hf hr hquote hbackslash hcontrol
  · exact .inr ⟨_, rfl, escapes_letter rfl (hof 8 hb)⟩
  · exact .inr ⟨_, rfl, escapes_letter rfl (by rw [ht]; rfl)⟩
  · exact .inr ⟨_, rfl, escapes_letter rfl (by rw [hn]; rfl)⟩
  · exact .inr ⟨_, rfl, escapes_letter rfl (hof 12 hf)⟩
  · exact .inr ⟨_, rfl, escapes_letter rfl (by rw [hr]; rfl)⟩
  · exact .inr ⟨_, rfl, escapes_letter rfl (by rw [hquote]; rfl)⟩
  · exact .inr ⟨_, rfl, escapes_letter rfl (by rw [hbackslash]; rfl)⟩
  · have hlow : c.toNat < 256 := by
      simp only [isControl, Bool.or_eq_true, decide_eq_true_eq] at hcontrol
      omega
    exact .inr ⟨_, rfl, escapes_code hlow⟩
  · have hplain : isPlain c = true := by
      rw [isPlain, Bool.or_eq_true, Bool.not_eq_true']
      exact .inr (Bool.eq_false_iff.2 hcontrol)
    exact .inl ⟨rfl, hplain, hquote, hbackslash⟩

/-! ## 2. One line -/

theorem basicAux_of_escapes {e : Char} {mode : Mode} {cs : List Char} (h : Escapes e mode cs)
    (acc rest : List Char) :
    basicAux mode acc (cs ++ rest) = basicAux .plain (e :: acc) rest := by
  have hmode := h.ne_plain
  induction h with
  | last h =>
    rw [List.singleton_append, basicAux, h]
    · rfl
    · exact hmode
  | next h hcs ih =>
    rw [List.cons_append, basicAux, h]
    · exact ih hcs.ne_plain
    · exact hmode

theorem basicAux_escape (c : Char) (acc rest : List Char) :
    basicAux .plain acc (escape c ++ rest) = basicAux .plain (c :: acc) rest := by
  obtain ⟨hc, hplain, hquote, hbackslash⟩ | ⟨cs, hc, hcs⟩ := escape_cases c
  · rw [hc, List.singleton_append, basicAux]
    simp only [if_neg hquote, if_neg hbackslash, if_pos hplain]
  · rw [hc, List.cons_append, basicAux]
    simp only [if_neg (show '\\' ≠ '"' by decide), if_pos]
    exact basicAux_of_escapes hcs acc rest

/-- **A basic string is read as what was escaped.** -/
theorem basic?_flatMap_escape (cs rest : List Char) :
    basic? (cs.flatMap escape ++ '"' :: rest) = some (cs, rest) := by
  have hread : ∀ acc, basicAux .plain acc (cs.flatMap escape ++ '"' :: rest) =
      some (acc.reverse ++ cs, rest) := by
    induction cs with
    | nil =>
      intro acc
      rw [List.append_nil]
      rfl
    | cons c cs ih =>
      intro acc
      rw [List.flatMap_cons, List.append_assoc, basicAux_escape, ih, List.reverse_cons,
        List.append_assoc, List.singleton_append]
  exact hread []

/-- **A literal string is read as it stands.** -/
theorem literal?_append {cs : List Char} (hplain : ∀ c ∈ cs, isPlain c = true)
    (hquote : '\x27' ∉ cs) (rest : List Char) :
    literal? (cs ++ '\x27' :: rest) = some (cs, rest) := by
  have hread : ∀ acc, literalAux acc (cs ++ '\x27' :: rest) = some (acc.reverse ++ cs, rest) := by
    induction cs with
    | nil =>
      intro acc
      rw [List.append_nil]
      rfl
    | cons c cs ih =>
      intro acc
      rw [List.forall_mem_cons] at hplain
      rw [List.mem_cons, not_or] at hquote
      rw [List.cons_append, literalAux, if_neg (Ne.symm hquote.1), if_pos hplain.1,
        ih hplain.2 hquote.2, List.reverse_cons, List.append_assoc, List.singleton_append]
  exact hread []

/-! ## 3. Several lines -/

section Long

variable {quote : Char} {escapes : Bool} {quotes : Nat}

theorem longAux_quote (h : quotes < 4) (acc rest : List Char) :
    longAux quote escapes (.plain quotes) acc (quote :: rest) =
      longAux quote escapes (.plain (quotes + 1)) acc rest := by
  rw [longAux]
  simp only [if_pos, if_neg (show quotes ≠ 4 by omega)]

/-- Three quotes close the string when no other follows. -/
theorem longAux_closed (h : 3 ≤ quotes) (acc : List Char) {rest : List Char}
    (hrest : rest.head? ≠ some quote) :
    longAux quote escapes (.plain quotes) acc rest =
      some ((List.replicate (quotes - 3) quote ++ acc).reverse, rest) := by
  cases rest with
  | nil =>
    rw [longAux]
    simp only [if_pos h]
  | cons c rest =>
    rw [longAux]
    simp only [if_neg (show c ≠ quote from fun hc => hrest (by rw [hc]; rfl)), if_pos h]

/-- The quotes that close a string, with up to two before them that belong to it. -/
theorem longAux_close (h : quotes ≤ 2) (acc : List Char) {rest : List Char}
    (hrest : rest.head? ≠ some quote) :
    longAux quote escapes (.plain quotes) acc (quote :: quote :: quote :: rest) =
      some (acc.reverse ++ List.replicate quotes quote, rest) := by
  have hmeans : (List.replicate quotes quote ++ acc).reverse =
      acc.reverse ++ List.replicate quotes quote := by
    rw [List.reverse_append, List.reverse_replicate]
  rw [longAux_quote (by omega), longAux_quote (by omega), ← hmeans]
  by_cases htwo : quotes = 2
  · -- the fifth quote in a row can only be the last
    subst htwo
    rw [longAux]
    simp only [if_pos]
  · rw [longAux_quote (by omega), longAux_closed (by omega) acc hrest]
    rfl

/-- What was read is put together from its quotes and the character after them. -/
theorem reverse_cons_replicate (quotes : Nat) (quote c : Char) (acc cs : List Char) :
    (c :: (List.replicate quotes quote ++ acc)).reverse ++ (List.replicate 0 quote ++ cs) =
      acc.reverse ++ (List.replicate quotes quote ++ c :: cs) := by
  rw [List.reverse_cons, List.reverse_append, List.reverse_replicate, List.append_assoc,
    List.append_assoc]
  rfl

/-- One quote more. -/
theorem replicate_succ_append (quotes : Nat) (quote : Char) (cs : List Char) :
    List.replicate (quotes + 1) quote ++ cs = List.replicate quotes quote ++ quote :: cs := by
  rw [List.replicate_succ', List.append_assoc, List.singleton_append]

/-- A character that stands for itself. -/
theorem longAux_char (h : quotes ≤ 2) {c : Char} (hquote : c ≠ quote)
    (hbackslash : ¬ (c = '\\' ∧ escapes = true)) (hc : isPlain c = true ∨ c = '\n')
    (acc rest : List Char) :
    longAux quote escapes (.plain quotes) acc (c :: rest) =
      longAux quote escapes (.plain 0) (c :: (List.replicate quotes quote ++ acc)) rest := by
  rw [longAux]
  simp only [if_neg hquote, if_neg (show ¬ 3 ≤ quotes by omega), if_neg hbackslash]
  by_cases hbreak : c = '\n'
  · rw [if_pos hbreak, hbreak]
  · have hplain := hc.resolve_right hbreak
    rw [if_neg hbreak, if_neg (ne_of_isPlain hplain).2, if_pos hplain]

/-- How reading goes on after a character of an escape. -/
def Mode.goOn : Mode → LongMode
  | .plain => .plain 0
  | mode => .escape mode

theorem longAux_escapeStep {mode mode' : Mode} {c : Char} {e : Option Char}
    (h : escapeStep? mode c = some (mode', e)) (acc rest : List Char) :
    longAux quote escapes (.escape mode) acc (c :: rest) =
      longAux quote escapes mode'.goOn (pushChar? e acc) rest := by
  cases mode with
  | plain => cases h
  | escape =>
    have hne : ∀ x, escapeStep? .escape x = none → c ≠ x := by
      rintro x hx rfl
      rw [hx] at h
      cases h
    have hblank : ¬ (c = ' ' ∨ c = '\t') := not_or.2 ⟨hne ' ' rfl, hne '\t' rfl⟩
    rw [longAux]
    simp only [if_neg hblank, if_neg (hne '\n' rfl), if_neg (hne '\r' rfl), h]
    cases mode' <;> rfl
  | code left value =>
    rw [longAux, h]
    · cases mode' <;> rfl
    · exact Mode.noConfusion

theorem longAux_of_escapes {e : Char} {mode : Mode} {cs : List Char} (h : Escapes e mode cs)
    (acc rest : List Char) :
    longAux quote escapes (.escape mode) acc (cs ++ rest) =
      longAux quote escapes (.plain 0) (e :: acc) rest := by
  induction h with
  | last h => exact longAux_escapeStep h acc rest
  | @next mode mode' c cs h hcs ih =>
    have hgoOn : mode'.goOn = .escape mode' := by
      cases mode' with
      | plain => exact absurd rfl hcs.ne_plain
      | escape => rfl
      | code left value => rfl
    rw [List.cons_append, longAux_escapeStep h, hgoOn]
    exact ih

/-- A character by its escape. -/
theorem longAux_escape (h : quotes ≤ 2) (hquote : '\\' ≠ quote) {e : Char} {cs : List Char}
    (hcs : Escapes e .escape cs) (acc rest : List Char) :
    longAux quote true (.plain quotes) acc ('\\' :: (cs ++ rest)) =
      longAux quote true (.plain 0) (e :: (List.replicate quotes quote ++ acc)) rest := by
  rw [longAux]
  simp only [if_neg hquote, if_neg (show ¬ 3 ≤ quotes by omega), and_self, if_pos]
  exact longAux_of_escapes hcs _ rest

/-- **A literal string of several lines is read as it stands**, when it does not have three quotes
    in a row. -/
theorem longAux_lines (h : quotes ≤ 2) {cs : List Char}
    (hcs : ∀ c ∈ cs, isPlain c = true ∨ c = '\n')
    (hruns : ¬ List.replicate 3 quote <:+: List.replicate quotes quote ++ cs) (acc : List Char)
    {rest : List Char} (hrest : rest.head? ≠ some quote) :
    longAux quote false (.plain quotes) acc (cs ++ quote :: quote :: quote :: rest) =
      some (acc.reverse ++ (List.replicate quotes quote ++ cs), rest) := by
  induction cs generalizing quotes acc with
  | nil =>
    rw [List.append_nil]
    exact longAux_close h acc hrest
  | cons c cs ih =>
    rw [List.forall_mem_cons] at hcs
    by_cases hc : c = quote
    · subst hc
      have hfew : quotes ≠ 2 := by
        rintro rfl
        exact hruns (List.prefix_append (List.replicate 3 c) cs).isInfix
      rw [← replicate_succ_append] at hruns ⊢
      rw [List.cons_append, longAux_quote (by omega)]
      exact ih (by omega) hcs.2 hruns acc
    · have hcs' : ¬ List.replicate 3 quote <:+: List.replicate 0 quote ++ cs := fun hrun =>
        hruns (hrun.trans ((List.suffix_cons c cs).trans (List.suffix_append _ _)).isInfix)
      rw [List.cons_append, longAux_char h hc (fun hescape => Bool.noConfusion hescape.2) hcs.1,
        ih (Nat.zero_le 2) hcs.2 hcs', reverse_cons_replicate]

end Long

/-- **A basic string of several lines is read as what was escaped.** -/
theorem longAux_escapeLines {quotes : Nat} (h : quotes ≤ 2) (cs acc : List Char) {rest : List Char}
    (hrest : rest.head? ≠ some '"') :
    longAux '"' true (.plain quotes) acc (escapeLines quotes cs ++ '"' :: '"' :: '"' :: rest) =
      some (acc.reverse ++ (List.replicate quotes '"' ++ cs), rest) := by
  induction cs generalizing quotes acc with
  | nil =>
    rw [List.append_nil]
    exact longAux_close h acc hrest
  | cons c cs ih =>
    rw [escapeLines]
    by_cases hquote : c = '"'
    · subst hquote
      rw [if_pos rfl]
      by_cases htwo : quotes = 2
      · -- the third quote in a row
        have hletter : Escapes '"' .escape ['"'] := escapes_letter rfl rfl
        rw [if_pos htwo, List.cons_append, List.cons_append]
        exact (longAux_escape h (by decide) hletter acc _).trans
          ((ih (Nat.zero_le 2) _).trans (by rw [reverse_cons_replicate]))
      · rw [if_neg htwo, List.cons_append, longAux_quote (by omega), ← replicate_succ_append]
        exact ih (by omega) acc
    · rw [if_neg hquote]
      by_cases hbreak : c = '\n'
      · subst hbreak
        rw [if_pos rfl, List.cons_append, longAux_char h (by decide) (by decide) (.inr rfl),
          ih (Nat.zero_le 2), reverse_cons_replicate]
      rw [if_neg hbreak, List.append_assoc]
      obtain ⟨hc, hplain, -, hbackslash⟩ | ⟨ds, hc, hds⟩ := escape_cases c
      · rw [hc, List.singleton_append,
          longAux_char h hquote (fun hescape => hbackslash hescape.1) (.inl hplain),
          ih (Nat.zero_le 2), reverse_cons_replicate]
      · rw [hc, List.cons_append, longAux_escape h (by decide) hds, ih (Nat.zero_le 2),
          reverse_cons_replicate]

/-! ## 4. Opening quotes -/

/-- A line break is told from one that belongs to the string: it is there whenever the string has
    line breaks. -/
theorem dropBreak_openingBreak {cs ds : List Char}
    (h : '\n' ∉ cs → ∀ c ∈ ds.head?, c ≠ '\n' ∧ c ≠ '\r') :
    dropBreak (openingBreak cs ++ ds) = ds := by
  rw [openingBreak]
  split
  · rfl
  · rename_i hbreak
    rw [List.contains_iff_mem] at hbreak
    rw [List.nil_append]
    unfold dropBreak
    split
    · exact absurd rfl (h hbreak '\n' rfl).1
    · exact absurd rfl (h hbreak '\r' rfl).2
    · rfl

/-- The first character of what was escaped is no line break, unless that of the string is. -/
theorem head?_escapeLines {cs : List Char} (h : '\n' ∉ cs) (rest : List Char) :
    ∀ c ∈ (escapeLines 0 cs ++ '"' :: rest).head?, c ≠ '\n' ∧ c ≠ '\r' := by
  intro c hc
  cases cs with
  | nil =>
    cases hc
    decide
  | cons d cs =>
    rw [List.mem_cons, not_or] at h
    rw [escapeLines] at hc
    by_cases hquote : d = '"'
    · rw [if_pos hquote, if_neg (by decide)] at hc
      cases hc
      decide
    rw [if_neg hquote, if_neg (Ne.symm h.1)] at hc
    obtain ⟨hd, hplain, -, -⟩ | ⟨ds, hd, -⟩ := escape_cases d
    · rw [hd] at hc
      cases hc
      exact ne_of_isPlain hplain
    · rw [hd] at hc
      cases hc
      decide

theorem quotation?_basic {ds : List Char} (h : ∀ es, ds ≠ '"' :: '"' :: es) :
    quotation? ('"' :: ds) = basic? ds := by
  rw [quotation?]
  exact h

theorem quotation?_literal {ds : List Char} (h : ∀ es, ds ≠ '\x27' :: '\x27' :: es) :
    quotation? ('\x27' :: ds) = literal? ds := by
  rw [quotation?]
  exact h

/-! ## 5. Strings between quotes -/

section Forms

variable (cs rest : List Char)

/-- A basic string of one line, with escapes or without. -/
theorem quotation?_escape : quotation? ('"' :: (cs.flatMap escape ++ '"' :: '\n' :: rest)) =
    some (cs, '\n' :: rest) := by
  rw [quotation?_basic, basic?_flatMap_escape]
  intro es h
  cases cs with
  | nil => cases h
  | cons c cs =>
    rw [List.flatMap_cons] at h
    obtain ⟨hc, -, hquote, -⟩ | ⟨ds, hc, -⟩ := escape_cases c
    · rw [hc] at h
      exact hquote (List.cons.inj h).1
    · rw [hc] at h
      cases h

/-- A literal string of one line. -/
theorem quotation?_plain {cs} (hplain : ∀ c ∈ cs, isPlain c = true) (hquote : '\x27' ∉ cs) :
    quotation? ('\x27' :: (cs ++ '\x27' :: '\n' :: rest)) = some (cs, '\n' :: rest) := by
  rw [quotation?_literal, literal?_append hplain hquote]
  rintro es h
  cases cs with
  | nil => cases h
  | cons c cs =>
    rw [List.mem_cons, not_or] at hquote
    exact hquote.1 (List.cons.inj h).1.symm

/-- A basic string of several lines. -/
theorem quotation?_escapeLines :
    quotation? ('"' :: '"' :: '"' ::
        (openingBreak cs ++ (escapeLines 0 cs ++ '"' :: '"' :: '"' :: '\n' :: rest))) =
      some (cs, '\n' :: rest) := by
  rw [quotation?, longBasic?, dropBreak_openingBreak fun h => head?_escapeLines h _,
    longAux_escapeLines (Nat.zero_le 2) cs [] (by simp)]
  rfl

/-- A literal string of several lines. -/
theorem quotation?_lines {cs} (hcs : ∀ c ∈ cs, isPlain c = true ∨ c = '\n')
    (hruns : ¬ List.replicate 3 '\x27' <:+: cs) :
    quotation? ('\x27' :: '\x27' :: '\x27' ::
        (openingBreak cs ++ (cs ++ '\x27' :: '\x27' :: '\x27' :: '\n' :: rest))) =
      some (cs, '\n' :: rest) := by
  have hhead : '\n' ∉ cs → ∀ c ∈ (cs ++ '\x27' :: '\x27' :: '\x27' :: '\n' :: rest).head?,
      c ≠ '\n' ∧ c ≠ '\r' := by
    intro hbreak c hc
    cases cs with
    | nil =>
      cases hc
      decide
    | cons d cs =>
      cases hc
      rw [List.mem_cons, not_or] at hbreak
      exact ne_of_isPlain ((hcs _ List.mem_cons_self).resolve_right (Ne.symm hbreak.1))
  rw [quotation?, longLiteral?, dropBreak_openingBreak hhead,
    longAux_lines (Nat.zero_le 2) hcs hruns [] (by simp)]
  rfl

end Forms

/-- **A string between quotes is read as that string**, whatever its characters. -/
theorem quotation?_quoteString (cs rest : List Char) :
    quotation? (quoteString cs ++ '\n' :: rest) = some (cs, '\n' :: rest) := by
  have hone : isOneLine cs = true → ∀ c ∈ cs, isPlain c = true := List.all_eq_true.1
  have hlines : isLines cs = true → ∀ c ∈ cs, isPlain c = true ∨ c = '\n' := fun h c hc => by
    simpa using List.all_eq_true.1 h c hc
  have hshort : ∀ {q : Char}, (!hasRun q 3 cs) = true → ¬ List.replicate 3 q <:+: cs := by
    intro q h hrun
    rw [hasRun, Text.isSome_offsetOf?_iff.2 hrun] at h
    cases h
  unfold quoteString
  simp only [Bool.and_eq_true]
  split_ifs with hbasic hliteral hlongBasic hlongLiteral hbreak
  · simpa using quotation?_escape cs rest
  · simpa using quotation?_plain rest (hone hliteral.1) (by simpa using hliteral.2)
  · simpa using quotation?_escapeLines cs rest
  · simpa using quotation?_lines rest (hlines hlongLiteral.1) (hshort hlongLiteral.2)
  · simpa using quotation?_escapeLines cs rest
  · simpa using quotation?_escape cs rest

end Recast.Toml
