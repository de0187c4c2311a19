import Recast.Json.Printer
import Recast.Json.Reader

/-!
# Reading what was written

A value whose numbers are natural and whose strings mean something is written so that reading gives
it back. The text goes through its words: the machine that finds them never has to look back, and
the words of a value are put together to that value.

* `Lexer.Rests`: the machine has read some words and may stop;
* `Reads`, `Settles`: a piece of text is read as some words, with nothing pending, or with a number
  that the next character ends;
* `reads_quote`, `settles_digits`: strings and numbers;
* `tokens`: the words of a value; `settles_pretty`: **the written form is read as these words**;
* `run_tokens`: **these words make the value**;
* `parse?_render`: **what is written is read again.**
-/

namespace Recast.Json

/-! ## 1. Pieces of text -/

namespace Lexer

/-- The machine between words, after the given ones. -/
def after (ts : List Token) : Lexer := ⟨ts.reverse, .idle⟩

theorem emit_after (ts : List Token) (m : Mode) (t : Token) :
    emit ⟨ts.reverse, m⟩ t = after (ts ++ [t]) := by
  rw [emit, after, List.reverse_append]
  rfl

/-- The characters that go on with a number. -/
def goesOn (c : Char) : Bool := (Text.digit? c).isSome || c = '.' || Numeral.isMark c

/-- The machine has read the given words: a text may end here, and what does not go on with a number
    is read as it is between words. -/
structure Rests (l : Lexer) (ts : List Token) : Prop where
  finish : l.finish? = some ts
  step : ∀ c, goesOn c = false → l.step c = (after ts).step c

theorem rests_after (ts : List Token) : (after ts).Rests ts where
  finish := by rw [finish?, after, List.reverse_reverse]
  step _ _ := rfl

theorem run_append_of_eq {l l' : Lexer} {xs : List Char} (h : l.run xs = some l')
    (ys : List Char) : l.run (xs ++ ys) = l'.run ys := by
  rw [run_append, h]
  rfl

end Lexer

open Lexer (after)

/-- After whatever words, a piece of text is read as some more, and then nothing is pending. -/
def Reads (cs : List Char) (us : List Token) : Prop :=
  ∀ ts, (after ts).run cs = some (after (ts ++ us))

/-- After whatever words, a piece of text is read as some more once its end is seen. -/
def Settles (cs : List Char) (us : List Token) : Prop :=
  ∀ ts, ∃ l, (after ts).run cs = some l ∧ l.Rests (ts ++ us)

theorem Reads.nil : Reads [] [] := fun ts => by
  rw [List.append_nil]
  rfl

theorem Reads.append {xs ys : List Char} {us vs : List Token} (hx : Reads xs us)
    (hy : Reads ys vs) : Reads (xs ++ ys) (us ++ vs) := by
  intro ts
  rw [Lexer.run_append_of_eq (hx ts), hy (ts ++ us), List.append_assoc]

theorem Reads.settles {xs : List Char} {us : List Token} (h : Reads xs us) : Settles xs us :=
  fun ts => ⟨_, h ts, Lexer.rests_after _⟩

theorem Reads.append_settles {xs ys : List Char} {us vs : List Token} (hx : Reads xs us)
    (hy : Settles ys vs) : Settles (xs ++ ys) (us ++ vs) := by
  intro ts
  obtain ⟨l, hrun, hrests⟩ := hy (ts ++ us)
  refine ⟨l, ?_, ?_⟩
  · rw [Lexer.run_append_of_eq (hx ts), hrun]
  · rw [← List.append_assoc]
    exact hrests

/-- What stands after a value ends it. -/
theorem Settles.append {xs ys : List Char} {us vs : List Token} {c : Char} (hx : Settles xs us)
    (hc : Lexer.goesOn c = false) (hy : Reads (c :: ys) vs) :
    Reads (xs ++ c :: ys) (us ++ vs) := by
  intro ts
  obtain ⟨l, hrun, hrests⟩ := hx ts
  have hstep : l.run (c :: ys) = (after (ts ++ us)).run (c :: ys) := by
    rw [Lexer.run, Lexer.run, hrests.step c hc]
  rw [Lexer.run_append_of_eq hrun, hstep, hy (ts ++ us), List.append_assoc]

/-- A character that is a word of its own. -/
theorem reads_mark {c : Char} {t : Token} (h : ∀ l : Lexer, l.idleStep c = some (l.emit t)) :
    Reads [c] [t] := by
  intro ts
  have hstep : (after ts).step c = some (after (ts ++ [t])) := by
    show (after ts).idleStep c = _
    rw [h]
    exact congrArg some (Lexer.emit_after ts .idle t)
  rw [Lexer.run, hstep]
  rfl

theorem reads_comma : Reads [','] [.comma] := reads_mark fun _ => rfl

theorem reads_openArray : Reads ['['] [.openArray] := reads_mark fun _ => rfl

theorem reads_closeArray : Reads [']'] [.closeArray] := reads_mark fun _ => rfl

theorem reads_openObject : Reads ['\x7b'] [.openObject] := reads_mark fun _ => rfl

theorem reads_closeObject : Reads ['\x7d'] [.closeObject] := reads_mark fun _ => rfl

theorem reads_colon : Reads [':', ' '] [.colon] := fun ts => by
  rw [← Lexer.emit_after ts .idle]
  rfl

/-- A word of letters. -/
theorem reads_word (t : Token) {cs : List Char}
    (h : ∀ found, Lexer.run ⟨found, .idle⟩ cs = some (Lexer.emit ⟨found, .idle⟩ t)) :
    Reads cs [t] := by
  intro ts
  rw [← Lexer.emit_after ts .idle]
  exact h ts.reverse

theorem reads_spaces (n : Nat) : Reads (List.replicate n ' ') [] := by
  induction n with
  | zero => exact .nil
  | succ n ih =>
    intro ts
    exact ih ts

theorem reads_newline (level : Nat) : Reads (newline level) [] := fun ts =>
  reads_spaces (2 * level) ts

/-! ## 2. Strings -/

theorem hexDigit?_hexChar {n : Nat} (h : n < 16) : Text.hexDigit? (hexChar n) = some n := by
  have hall : ∀ n < 16, Text.hexDigit? (hexChar n) = some n := by decide +kernel
  exact hall n h

/-- A letter after a backslash. -/
theorem run_escaped (found : List Token) (t : Draft) {e c : Char} (he : e ≠ 'u')
    (h : escapedChar? e = some c) :
    Lexer.run ⟨found, .text t⟩ ['\\', e] = some ⟨found, .text (t.push c)⟩ := by
  have hstep : Lexer.step ⟨found, .escape t⟩ e = some ⟨found, .text (t.push c)⟩ := by
    show (if e = 'u' then _ else _) = _
    rw [if_neg he, h]
    rfl
  show Lexer.run ⟨found, .escape t⟩ [e] = _
  rw [Lexer.run, hstep]
  rfl

/-- A character by its code. -/
theorem run_code (found : List Token) (t : Draft) {c : Char} (h : c.toNat < 0x20) :
    Lexer.run ⟨found, .text t⟩
        ['\\', 'u', '0', '0', hexChar (c.toNat / 16), hexChar (c.toNat % 16)] =
      some ⟨found, .text (t.push c)⟩ := by
  have hhigh : Lexer.step ⟨found, .code t 1 0⟩ (hexChar (c.toNat / 16)) =
      some ⟨found, .code t 0 (c.toNat / 16)⟩ := by
    simp only [Lexer.step, hexDigit?_hexChar (show c.toNat / 16 < 16 by omega), Option.map_some,
      Nat.zero_mul, Nat.zero_add]
  have hlow : Lexer.step ⟨found, .code t 0 (c.toNat / 16)⟩ (hexChar (c.toNat % 16)) =
      some ⟨found, .text (t.push c)⟩ := by
    have hunit : c.toNat / 16 * 16 + c.toNat % 16 = c.toNat := by omega
    have hpush : t.pushUnit c.toNat = t.push c := by
      rw [Draft.pushUnit, if_neg (by omega), if_neg (by omega), Char.ofNat_toNat]
    simp only [Lexer.step, hexDigit?_hexChar (show c.toNat % 16 < 16 by omega), Option.map_some,
      hunit, hpush]
  show Lexer.run ⟨found, .code t 1 0⟩ [hexChar (c.toNat / 16), hexChar (c.toNat % 16)] = _
  rw [Lexer.run, hhigh]
  show Lexer.run _ [hexChar (c.toNat % 16)] = _
  rw [Lexer.run, hlow]
  rfl

/-- **One character**: inside a string, the written form of a character stands for it. -/
theorem run_escape (found : List Token) (t : Draft) (c : Char) :
    Lexer.run ⟨found, .text t⟩ (escape c) = some ⟨found, .text (t.push c)⟩ := by
  have hof : ∀ n, c.toNat = n → c = Char.ofNat n := fun n h => by rw [← h, Char.ofNat_toNat]
  unfold escape
  by_cases hquote : c = '"'
  · rw [if_pos hquote, hquote]
    exact run_escaped found t (by decide) rfl
  by_cases hbackslash : c = '\\'
  · rw [if_neg hquote, if_pos hbackslash, hbackslash]
    exact run_escaped found t (by decide) rfl
  by_cases hb : c.toNat = 8
  · rw [if_neg hquote, if_neg hbackslash, if_pos hb, hof 8 hb]
    exact run_escaped found t (by decide) rfl
  by_cases hf : c.toNat = 12
  · rw [if_neg hquote, if_neg hbackslash, if_neg hb, if_pos hf, hof 12 hf]
    exact run_escaped found t (by decide) rfl
  rw [if_neg hquote, if_neg hbackslash, if_neg hb, if_neg hf]
  by_cases hn : c = '\n'
  · rw [if_pos hn, hn]
    exact run_escaped found t (by decide) rfl
  by_cases hr : c = '\r'
  · rw [if_neg hn, if_pos hr, hr]
    exact run_escaped found t (by decide) rfl
  by_cases ht : c = '\t'
  · rw [if_neg hn, if_neg hr, if_pos ht, ht]
    exact run_escaped found t (by decide) rfl
  rw [if_neg hn, if_neg hr, if_neg ht]
  by_cases hcode : c.toNat < 0x20
  · rw [if_pos hcode]
    exact run_code found t hcode
  · -- any other character stands for itself
    have hstep : Lexer.step ⟨found, .text t⟩ c = some ⟨found, .text (t.push c)⟩ := by
      show (if c = '"' then _ else if c = '\\' then _ else if c.toNat < 0x20 then _ else _) = _
      rw [if_neg hquote, if_neg hbackslash, if_neg hcode]
    rw [if_neg hcode, Lexer.run, hstep]
    rfl

theorem run_flatMap_escape (found : List Token) (t : Draft) (cs : List Char) :
    Lexer.run ⟨found, .text t⟩ (cs.flatMap escape) =
      some ⟨found, .text (cs.foldl Draft.push t)⟩ := by
  induction cs generalizing t with
  | nil => rfl
  | cons c cs ih =>
    rw [List.flatMap_cons, Lexer.run_append_of_eq (run_escape found t c), ih]
    rfl

/-- Without escapes of its own a draft is its characters. -/
theorem foldl_push (done cs : List Char) :
    cs.foldl Draft.push ⟨done, none, true⟩ = ⟨cs.reverse ++ done, none, true⟩ := by
  induction cs generalizing done with
  | nil => rfl
  | cons c cs ih =>
    rw [List.foldl_cons, List.reverse_cons, List.append_assoc]
    exact ih (c :: done)

/-- **A string between quotes is read as that string.** -/
theorem reads_quote (s : String) : Reads (quote (some s)) [.string (some s)] := by
  intro ts
  have hopen : Lexer.run (after ts) ['"'] = some ⟨ts.reverse, .text .empty⟩ := rfl
  have hchars := run_flatMap_escape ts.reverse .empty s.toList
  have hfinish : (s.toList.foldl Draft.push .empty).finish = some s := by
    rw [Draft.empty, foldl_push, List.append_nil, Draft.finish]
    show some (String.ofList s.toList.reverse.reverse) = some s
    rw [List.reverse_reverse, String.ofList_toList]
  have hclose : Lexer.run ⟨ts.reverse, .text (s.toList.foldl Draft.push .empty)⟩ ['"'] =
      some (after (ts ++ [.string (some s)])) := by
    rw [← Lexer.emit_after ts (.text (s.toList.foldl Draft.push .empty)), ← hfinish]
    rfl
  show Lexer.run (after ts) (['"'] ++ (s.toList.flatMap escape ++ ['"'])) = _
  rw [Lexer.run_append_of_eq hopen, Lexer.run_append_of_eq hchars, hclose]

/-! ## 3. Numbers -/

theorem digit?_digitChar {n : Nat} (h : n < 10) : Text.digit? n.digitChar = some n := by
  rw [Text.digit?, Nat.toNat_digitChar_of_lt_ten h, if_pos (by omega), Nat.add_sub_cancel_left]

/-- What is pending after the digits of a number: zero takes no more of them. -/
def Numeral.ofNat (n : Nat) : Numeral := ⟨if n = 0 then .zero else .whole, false, n, 0, false, 0⟩

theorem finish?_ofNat (n : Nat) : (Numeral.ofNat n).finish? = some (.ofNat n) := by
  unfold Numeral.finish? Numeral.ofNat
  by_cases h : n = 0
  · rw [if_pos h]
    rfl
  · rw [if_neg h]
    rfl

theorem push?_ofNat {c : Char} (hc : Lexer.goesOn c = false) (n : Nat) :
    (Numeral.ofNat n).push? c = none := by
  rw [Lexer.goesOn, Bool.or_eq_false_iff, Bool.or_eq_false_iff] at hc
  obtain ⟨⟨hdigit, hpoint⟩, hmark⟩ := hc
  have hafter (m : Numeral) : m.afterWhole? c = none := by
    rw [Numeral.afterWhole?, if_neg (of_decide_eq_false hpoint), if_neg (by rw [hmark]; decide)]
  unfold Numeral.push? Numeral.ofNat
  by_cases h : n = 0
  · rw [if_pos h]
    exact hafter _
  · rw [if_neg h]
    simp only [Option.not_isSome_iff_eq_none.1 (ne_true_of_eq_false hdigit), hafter]

/-- The first digit begins a number. -/
theorem run_digit (found : List Token) {n : Nat} (h : n < 10) :
    Lexer.run ⟨found, .idle⟩ [n.digitChar] = some ⟨found, .numeral (.ofNat n)⟩ :=
  match n, h with
  | 0, _ | 1, _ | 2, _ | 3, _ | 4, _ | 5, _ | 6, _ | 7, _ | 8, _ | 9, _ => rfl

/-- **One digit more.** -/
theorem push?_digit {n d : Nat} (hn : n ≠ 0) (hd : d < 10) :
    (Numeral.ofNat n).push? d.digitChar = some (.ofNat (n * 10 + d)) := by
  unfold Numeral.push? Numeral.ofNat
  rw [if_neg hn, if_neg (show n * 10 + d ≠ 0 by omega)]
  simp only [digit?_digitChar hd]

theorem run_toDigits (found : List Token) (n : Nat) :
    Lexer.run ⟨found, .idle⟩ (Nat.toDigits 10 n) = some ⟨found, .numeral (.ofNat n)⟩ := by
  induction n using Nat.strongRecOn with
  | ind n ih =>
    by_cases hn : n < 10
    · rw [Nat.toDigits_of_lt_base hn]
      exact run_digit found hn
    · have hstep : Lexer.step ⟨found, .numeral (.ofNat (n / 10))⟩ (n % 10).digitChar =
          some ⟨found, .numeral (.ofNat n)⟩ := by
        have hpush := push?_digit (n := n / 10) (d := n % 10) (by omega) (by omega)
        rw [show n / 10 * 10 + n % 10 = n by omega] at hpush
        simp only [Lexer.step, hpush]
      rw [Nat.toDigits_of_base_le (by decide) (by omega),
        Lexer.run_append_of_eq (ih (n / 10) (by omega)), Lexer.run, hstep]
      rfl

/-- **The digits of a number are read as that number**, once the next character is seen. -/
theorem settles_digits (n : Nat) : Settles (Nat.toDigits 10 n) [.number (.ofNat n)] := by
  intro ts
  refine ⟨_, run_toDigits ts.reverse n, ?_, fun c hc => ?_⟩
  · show (Numeral.finish? _).map _ = _
    rw [finish?_ofNat, Option.map_some, List.reverse_cons, List.reverse_reverse]
  · have hidle : (Lexer.emit ⟨ts.reverse, .numeral (.ofNat n)⟩ (.number (.ofNat n))).idleStep c =
        (after (ts ++ [.number (.ofNat n)])).step c := by
      rw [Lexer.emit_after]
      rfl
    rw [← hidle]
    simp only [Lexer.step, push?_ofNat hc, finish?_ofNat, Option.bind_some]

/-! ## 4. The words of a value -/

mutual

/-- The words of a value. -/
def tokens : Json → List Token
  | .null => [.null]
  | .bool b => [.bool b]
  | .number n => [.number n]
  | .string s => [.string s]
  | .array [] => [.openArray, .closeArray]
  | .array (v :: vs) => .openArray :: tokens v ++ itemTokens vs ++ [.closeArray]
  | .object [] => [.openObject, .closeObject]
  | .object ((k, v) :: fs) =>
    .openObject :: .string k :: .colon :: tokens v ++ fieldTokens fs ++ [.closeObject]

/-- The words of the items after the first. -/
def itemTokens : List Json → List Token
  | [] => []
  | v :: vs => .comma :: tokens v ++ itemTokens vs

/-- The words of the fields after the first. -/
def fieldTokens : List (Option String × Json) → List Token
  | [] => []
  | (k, v) :: fs => .comma :: .string k :: .colon :: tokens v ++ fieldTokens fs

end

/-- A value that keeps its meaning when it is written: its numbers are natural, and all its strings
    mean something. -/
inductive Printable : Json → Prop where
  | null : Printable .null
  | bool (b : Bool) : Printable (.bool b)
  | nat (n : Nat) : Printable (.number (.ofNat n))
  | str (s : String) : Printable (.string (some s))
  | array {items : List Json} (h : ∀ v ∈ items, Printable v) : Printable (.array items)
  | object {fields : List (Option String × Json)} (hkeys : ∀ f ∈ fields, f.1.isSome = true)
    (hvalues : ∀ f ∈ fields, Printable f.2) : Printable (.object fields)

theorem chars_ofNat (n : Nat) : (Number.ofNat n).chars = Nat.toDigits 10 n := by
  rw [Number.chars]
  exact List.append_nil _

theorem reads_quote_key {k : Option String} (h : k.isSome = true) :
    Reads (quote k ++ [':', ' ']) [.string k, .colon] := by
  obtain ⟨s, rfl⟩ := Option.isSome_iff_exists.1 h
  exact (reads_quote s).append reads_colon

/-- A closing bracket on a line of its own ends what comes before. -/
theorem Settles.append_bracket {xs : List Char} {us : List Token} (h : Settles xs us) (level : Nat)
    {c : Char} {t : Token} (hc : Reads [c] [t]) :
    Reads (xs ++ (newline level ++ [c])) (us ++ [t]) :=
  h.append (by decide) ((reads_newline level).append hc)

/-- What comes after a comma on a new line. -/
theorem Settles.append_comma {xs ys : List Char} {us vs : List Token} (h : Settles xs us)
    (level : Nat) (hy : Settles ys vs) :
    Settles (xs ++ (',' :: newline level) ++ ys) (us ++ .comma :: vs) := by
  have hcomma : Reads (',' :: newline level) [.comma] := reads_comma.append (reads_newline level)
  have hx := (h.append (by decide) hcomma).append_settles hy
  rwa [List.append_assoc us] at hx

mutual

/-- **The written form of a value is read as its words.** -/
theorem settles_pretty (level : Nat) : (j : Json) → j.Printable → Settles (pretty level j) j.tokens
  | .null, _ => by
    rw [pretty, tokens]
    exact (reads_word .null fun _ => rfl).settles
  | .bool true, _ => by
    rw [pretty, tokens]
    exact (reads_word (.bool true) fun _ => rfl).settles
  | .bool false, _ => by
    rw [pretty, tokens]
    exact (reads_word (.bool false) fun _ => rfl).settles
  | .number n, h => by
    rw [pretty, tokens]
    cases h with
    | nat n =>
      rw [chars_ofNat]
      exact settles_digits n
  | .string s, h => by
    rw [pretty, tokens]
    cases h with
    | str s => exact (reads_quote s).settles
  | .array [], _ => by
    rw [pretty, tokens]
    exact (reads_openArray.append reads_closeArray).settles
  | .array (v :: vs), .array h => by
    rw [List.forall_mem_cons] at h
    have hfirst : Settles ('[' :: newline (level + 1) ++ pretty (level + 1) v)
        (.openArray :: tokens v) :=
      (reads_openArray.append (reads_newline _)).append_settles (settles_pretty (level + 1) v h.1)
    have hitems := settles_prettyItems (level + 1) vs h.2 hfirst
    have hclosed := hitems.append_bracket level reads_closeArray
    rw [pretty, tokens]
    rw [← List.append_assoc] at hclosed
    exact hclosed.settles
  | .object [], _ => by
    rw [pretty, tokens]
    exact (reads_openObject.append reads_closeObject).settles
  | .object ((k, v) :: fs), .object hkeys hvalues => by
    rw [List.forall_mem_cons] at hkeys hvalues
    have hfield : Settles (quote k ++ [':', ' '] ++ pretty (level + 1) v)
        (.string k :: .colon :: tokens v) :=
      (reads_quote_key hkeys.1).append_settles (settles_pretty (level + 1) v hvalues.1)
    have hfirst : Settles ('\x7b' :: newline (level + 1) ++
        (quote k ++ [':', ' '] ++ pretty (level + 1) v))
        (.openObject :: .string k :: .colon :: tokens v) :=
      (reads_openObject.append (reads_newline _)).append_settles hfield
    have hfields := settles_prettyFields (level + 1) fs hkeys.2 hvalues.2 hfirst
    have hclosed := hfields.append_bracket level reads_closeObject
    rw [pretty, tokens]
    simpa only [List.append_assoc, List.cons_append] using hclosed.settles

theorem settles_prettyItems (level : Nat) : (vs : List Json) → (∀ v ∈ vs, v.Printable) →
    {xs : List Char} → {us : List Token} → Settles xs us →
    Settles (xs ++ prettyItems level vs) (us ++ itemTokens vs)
  | [], _, xs, us, hx => by
    rw [prettyItems, itemTokens, List.append_nil, List.append_nil]
    exact hx
  | v :: vs, h, xs, us, hx => by
    rw [List.forall_mem_cons] at h
    have hv := hx.append_comma level (settles_pretty level v h.1)
    have hvs := settles_prettyItems level vs h.2 hv
    rw [prettyItems, itemTokens]
    simpa only [List.append_assoc, List.cons_append] using hvs

theorem settles_prettyFields (level : Nat) : (fs : List (Option String × Json)) →
    (∀ f ∈ fs, f.1.isSome = true) → (∀ f ∈ fs, f.2.Printable) →
    {xs : List Char} → {us : List Token} → Settles xs us →
    Settles (xs ++ prettyFields level fs) (us ++ fieldTokens fs)
  | [], _, _, xs, us, hx => by
    rw [prettyFields, fieldTokens, List.append_nil, List.append_nil]
    exact hx
  | (k, v) :: fs, hkeys, hvalues, xs, us, hx => by
    rw [List.forall_mem_cons] at hkeys hvalues
    have hfield := (reads_quote_key hkeys.1).append_settles (settles_pretty level v hvalues.1)
    have hfs := settles_prettyFields level fs hkeys.2 hvalues.2 (hx.append_comma level hfield)
    rw [prettyFields, fieldTokens]
    simpa only [List.append_assoc, List.cons_append, List.nil_append] using hfs

end

/-! ## 5. Values from words -/

namespace Builder

theorem run_append_of_eq {b b' : Builder} {xs : List Token} (h : b.run xs = some b')
    (ys : List Token) : b.run (xs ++ ys) = b'.run ys := by
  rw [run_append, h]
  rfl

/-- The first item of an array is read like any other value: none begins with the end of one. -/
theorem run_firstItem (stack : List Frame) (j : Json) (ts : List Token) :
    run (.firstItem stack) (j.tokens ++ ts) =
      run (.value (.array [] :: stack)) (j.tokens ++ ts) := by
  cases j with
  | null | bool | number | string =>
    rw [tokens]
    rfl
  | array items =>
    cases items with
    | nil | cons =>
      rw [tokens]
      rfl
  | object fields =>
    cases fields with
    | nil | cons =>
      rw [tokens]
      rfl

mutual

/-- **The words of a value make that value**, whatever is open around it. -/
theorem run_tokens : (j : Json) → (stack : List Frame) →
    run (.value stack) j.tokens = some (.settled j stack)
  | .null, _ | .bool _, _ | .number _, _ | .string _, _ => by
    rw [tokens]
    rfl
  | .array [], _ | .object [], _ => by
    rw [tokens]
    rfl
  | .array (v :: vs), stack => by
    rw [tokens, List.append_assoc]
    show run (.firstItem stack) (v.tokens ++ _) = _
    rw [run_firstItem, run_append_of_eq (run_tokens v _), run_itemTokens vs]
    rfl
  | .object ((k, v) :: fs), stack => by
    rw [tokens, List.append_assoc]
    show run (.value (.object [] k :: stack)) (v.tokens ++ _) = _
    rw [run_append_of_eq (run_tokens v _), run_fieldTokens fs]
    rfl

theorem run_itemTokens : (vs : List Json) → (v : Json) → (items : List Json) →
    (stack : List Frame) →
    run (.settled v (.array items :: stack)) (itemTokens vs ++ [.closeArray]) =
      some (.settled (.array (items.reverse ++ v :: vs)) stack)
  | [], v, items, stack => by
    rw [itemTokens, ← List.reverse_cons]
    rfl
  | w :: vs, v, items, stack => by
    rw [itemTokens, List.append_assoc]
    show run (.value (.array (v :: items) :: stack)) (w.tokens ++ _) = _
    rw [run_append_of_eq (run_tokens w _), run_itemTokens vs, List.reverse_cons, List.append_assoc]
    rfl

theorem run_fieldTokens : (fs : List (Option String × Json)) → (k : Option String) → (v : Json) →
    (fields : List (Option String × Json)) → (stack : List Frame) →
    run (.settled v (.object fields k :: stack)) (fieldTokens fs ++ [.closeObject]) =
      some (.settled (.object (fields.reverse ++ (k, v) :: fs)) stack)
  | [], k, v, fields, stack => by
    rw [fieldTokens, ← List.reverse_cons]
    rfl
  | (k', w) :: fs, k, v, fields, stack => by
    rw [fieldTokens, List.append_assoc]
    show run (.value (.object ((k, v) :: fields) k' :: stack)) (w.tokens ++ _) = _
    rw [run_append_of_eq (run_tokens w _), run_fieldTokens fs, List.reverse_cons, List.append_assoc]
    rfl

end

end Builder

/-- A text that is read as the words of a value is read as that value. -/
theorem parse?_of_settles {cs : List Char} {j : Json} (h : Settles cs j.tokens) :
    parse? (String.ofList cs) = some j := by
  obtain ⟨l, hrun, hrests⟩ := h []
  have htokens : tokens? cs = some j.tokens := by
    rw [tokens?, show Lexer.init = after [] from rfl, hrun]
    exact hrests.finish
  have hvalue : ofTokens? j.tokens = some j := by
    rw [ofTokens?, Builder.init, Builder.run_tokens]
    rfl
  rw [parse?, String.toList_ofList, htokens]
  exact hvalue

/-- **What is written is read again.** -/
theorem parse?_render {j : Json} (h : j.Printable) : parse? j.render = some j :=
  parse?_of_settles (settles_pretty 0 j h)

/-- So is what is written on a line of its own. -/
theorem parse?_render_newline {j : Json} (h : j.Printable) :
    parse? (j.render ++ "\n") = some j := by
  have hline := ((settles_pretty 0 j h).append (by decide) (reads_newline 0)).settles
  rw [List.append_nil] at hline
  have htext := parse?_of_settles hline
  rwa [String.ofList_append] at htext

end Recast.Json
