import Recast.Proofs.Text.Digit
import Recast.Proofs.Toml.Quotation

/-!
# TOML is read line by line

Each line of a text does its part, whatever stands in the lines after it: a header opens a table,
and a key with its value adds to the table that is open. From the lines one after the other comes
what a section adds as a whole.

* `Spells`: a run of characters that is read as a value when a line ends after it, with truth
  values, integers and strings as instances;
* `Field`, `sectionChars`: a table, as a header and the lines of its keys;
* `statements?_field`, `statements?_header`: what one line does;
* `statements?_section`: **the lines of a table add it**, with its keys in order.
-/

namespace Recast.Toml

/-! ## 1. Values at the end of a line -/

/-- A run of characters is read as a value when a line ends after it. -/
structure Spells (cs : List Char) (v : Toml) : Prop where
  start : ∀ rest, skipSpace (cs ++ '\n' :: rest) = cs ++ '\n' :: rest
  read : ∀ rest, value? maxDepth (cs ++ '\n' :: rest) = some (v, '\n' :: rest)

/-- A character of a class is none that does not belong to it. -/
theorem ne_of_class {p : Char → Bool} {c x : Char} (h : p c = true) (hx : p x = false) : c ≠ x := by
  rintro rfl
  exact absurd h (ne_true_of_eq_false hx)

theorem isSpace_eq_false {p : Char → Bool} {c : Char} (h : p c = true) (hblank : p ' ' = false)
    (htab : p '\t' = false) : isSpace c = false := by
  rw [isSpace, Bool.or_eq_false_iff]
  exact ⟨decide_eq_false (ne_of_class h hblank), decide_eq_false (ne_of_class h htab)⟩

theorem skipSpace_of_head {c : Char} (h : isSpace c = false) (cs : List Char) :
    skipSpace (c :: cs) = c :: cs := by
  rw [skipSpace, List.dropWhile_cons_of_neg (ne_true_of_eq_false h)]

theorem takeWhile_run {p : Char → Bool} {cs rest : List Char} (hcs : ∀ c ∈ cs, p c = true)
    (hrest : ∀ c ∈ rest.head?, p c = false) : (cs ++ rest).takeWhile p = cs := by
  rw [List.takeWhile_append_of_pos hcs]
  cases rest with
  | nil => rw [List.takeWhile_nil, List.append_nil]
  | cons c rest =>
    rw [List.takeWhile_cons_of_neg (ne_true_of_eq_false (hrest c rfl)), List.append_nil]

theorem scalar?_run {cs : List Char} (hcs : ∀ c ∈ cs, isScalarChar c = true) (rest : List Char) :
    scalar? (cs ++ '\n' :: rest) = (runValue? cs).map fun v => (v, '\n' :: rest) := by
  have hrun : (cs ++ '\n' :: rest).takeWhile isScalarChar = cs :=
    takeWhile_run hcs fun c hc => by cases hc; decide
  rw [scalar?]
  simp only [hrun, List.drop_left]
  rfl

/-- A value without quotes and brackets. -/
theorem spells_run {c : Char} {cs : List Char} {v : Toml}
    (hcs : ∀ x ∈ c :: cs, isScalarChar x = true) (h : runValue? (c :: cs) = some v) :
    Spells (c :: cs) v := by
  have hc := hcs c List.mem_cons_self
  constructor
  · intro rest
    exact skipSpace_of_head (isSpace_eq_false hc rfl rfl) _
  · intro rest
    have hscalar : value? maxDepth (c :: cs ++ '\n' :: rest) =
        scalar? (c :: cs ++ '\n' :: rest) := by
      rw [List.cons_append, value?]
      all_goals
        rintro ds heq
        exact ne_of_class hc (by decide) (List.cons.inj heq).1
    rw [hscalar, scalar?_run hcs, h, Option.map_some]

theorem spells_bool (b : Bool) : Spells (boolText b).toList (.bool b) := by
  cases b
  · exact spells_run (List.all_eq_true.1 (by decide)) rfl
  · exact spells_run (List.all_eq_true.1 (by decide)) rfl

/-- Digits are not grouped. -/
theorem ungroup?_digits {isDigit : Char → Bool} {cs : List Char} (hne : cs ≠ [])
    (h : ∀ c ∈ cs, isDigit c = true) (hmark : isDigit '_' = false) :
    ungroup? isDigit cs = some cs := by
  induction cs with
  | nil => exact absurd rfl hne
  | cons c cs ih =>
    rw [List.forall_mem_cons] at h
    cases cs with
    | nil => rw [ungroup?, if_pos h.1]
    | cons d ds =>
      have hd : d ≠ '_' := ne_of_class (h.2 d List.mem_cons_self) hmark
      rw [ungroup?, if_pos h.1, ih (List.cons_ne_nil d ds) h.2, Option.map_some]
      · exact List.cons_ne_nil d ds
      · exact fun es heq => hd (List.cons.inj heq).1

theorem natIn?_digits {cs : List Char} (hne : cs ≠ []) (h : ∀ c ∈ cs, c.isDigit = true) :
    natIn? 10 cs = some (Nat.ofDigitChars 10 cs 0) := by
  have hvalue : ∀ c ∈ cs, ((Text.hexDigit? c).bind fun d => if d < 10 then some d else none) =
      some (c.toNat - 48) := by
    intro c hc
    have hrange : 48 ≤ c.toNat ∧ c.toNat ≤ 57 := Char.isDigit_iff_toNat.1 (h c hc)
    rw [Text.hexDigit?_eq_some (h c hc), Option.bind_some, if_pos (by omega)]
  rw [natIn?, ungroup?_digits hne (fun c hc => Option.isSome_iff_exists.2 ⟨_, hvalue c hc⟩)
    (by decide)]
  exact Text.foldlM_digits hvalue 0

/-- **The digits of a number are read as that number.** Only zero has a zero in front. -/
theorem integer?_toDigits (n : Nat) : integer? (Nat.toDigits 10 n) = some (n : Int) := by
  by_cases hn : n = 0
  · rw [hn]
    decide
  have hdigits : ∀ c ∈ Nat.toDigits 10 n, c.isDigit = true := fun c hc =>
    Nat.isDigit_of_mem_toDigits (by decide) (by decide) hc
  have hnat : natIn? 10 (Nat.toDigits 10 n) = some n := by
    rw [natIn?_digits Nat.toDigits_ne_nil hdigits, Nat.ofDigitChars_ten_toDigits]
  have hzero := Text.head?_toDigits_ne_zero hn
  obtain ⟨c, cs, hcs⟩ := List.exists_cons_of_ne_nil (Nat.toDigits_ne_nil (b := 10) (n := n))
  rw [hcs] at hdigits hnat hzero ⊢
  have hne : ∀ x : Char, x.isDigit = false ∨ x = '0' → ∀ ds, c :: cs = x :: ds → False := by
    rintro x (hx | rfl) ds heq
    · exact ne_of_class (hdigits c List.mem_cons_self) hx (List.cons.inj heq).1
    · exact hzero (by rw [(List.cons.inj heq).1]; rfl)
  have hdecimal : decimalNat? (c :: cs) = natIn? 10 (c :: cs) := by
    rw [decimalNat?]
    exact fun d ds heq => hne '0' (.inr rfl) _ heq
  rw [integer?, hdecimal, hnat]
  · rfl
  all_goals exact fun ds => hne _ (by decide) _

theorem spells_integer {n : Nat} (h : fits n = true) :
    Spells (Nat.toDigits 10 n) (.integer n) := by
  obtain ⟨c, cs, hcs⟩ := List.exists_cons_of_ne_nil (Nat.toDigits_ne_nil (b := 10) (n := n))
  have hdigits : ∀ x ∈ c :: cs, x.isDigit = true := fun x hx =>
    Nat.isDigit_of_mem_toDigits (by decide) (by decide) (hcs ▸ hx)
  have hread := integer?_toDigits n
  rw [hcs] at hread ⊢
  refine spells_run (fun x hx => ?_) ?_
  · rw [isScalarChar, Char.isAlphanum, hdigits x hx]
    simp only [Bool.or_true, Bool.true_or]
  · have hword : ∀ word : List Char, (∃ x ∈ word, x.isDigit = false) → c :: cs ≠ word := by
      rintro word ⟨x, hx, hletter⟩ rfl
      exact absurd (hdigits x hx) (ne_true_of_eq_false hletter)
    rw [runValue?, if_neg (hword _ ⟨'t', by decide, by decide⟩),
      if_neg (hword _ ⟨'f', by decide, by decide⟩), hread]
    exact if_pos h

theorem spells_string (s : String) : Spells (quoteString s.toList) (.string s) := by
  have hopen : ∃ ds, quoteString s.toList = '"' :: ds ∨ quoteString s.toList = '\x27' :: ds := by
    simp only [quoteString]
    split_ifs
    · exact ⟨_, .inl rfl⟩
    · exact ⟨_, .inr rfl⟩
    · exact ⟨_, .inl rfl⟩
    · exact ⟨_, .inr rfl⟩
    · exact ⟨_, .inl rfl⟩
    · exact ⟨_, .inl rfl⟩
  have hread := quotation?_quoteString s.toList
  obtain ⟨ds, hds | hds⟩ := hopen
  · rw [hds] at hread ⊢
    refine ⟨fun rest => skipSpace_of_head (by decide) _, fun rest => ?_⟩
    rw [List.cons_append, value?, ← List.cons_append, hread]
    exact congrArg (fun t => some (string t, '\n' :: rest)) String.ofList_toList
  · rw [hds] at hread ⊢
    refine ⟨fun rest => skipSpace_of_head (by decide) _, fun rest => ?_⟩
    rw [List.cons_append, value?, ← List.cons_append, hread]
    exact congrArg (fun t => some (string t, '\n' :: rest)) String.ofList_toList

/-! ## 2. Keys -/

/-- A key that is written without quotes. -/
def IsBare (key : String) : Prop := key.toList ≠ [] ∧ key.toList.all isBareChar = true

instance (key : String) : Decidable (IsBare key) := inferInstanceAs (Decidable (_ ∧ _))

/-- Where a bare key stands in front, one of its characters does. -/
theorem IsBare.head {key : String} (h : IsBare key) (rest : List Char) :
    ∃ c cs, key.toList ++ rest = c :: cs ∧ isBareChar c = true := by
  obtain ⟨c, cs, hcs⟩ := List.exists_cons_of_ne_nil h.1
  have hc : c ∈ key.toList := by
    rw [hcs]
    exact List.mem_cons_self
  exact ⟨c, cs ++ rest, by rw [hcs]; rfl, List.all_eq_true.1 h.2 c hc⟩

theorem simpleKey?_bare {key : String} (h : IsBare key) {rest : List Char}
    (hrest : ∀ c ∈ rest.head?, isBareChar c = false) :
    simpleKey? (key.toList ++ rest) = some (key, rest) := by
  have hbare : (key.toList ++ rest).takeWhile isBareChar = key.toList :=
    takeWhile_run (List.all_eq_true.1 h.2) hrest
  obtain ⟨c, cs, hcs, hc⟩ := h.head rest
  rw [simpleKey?]
  · simp only [hbare, List.drop_left, String.ofList_toList]
    exact if_neg fun hempty => h.1 (List.isEmpty_iff.1 hempty)
  all_goals
    intro ds hds
    exact ne_of_class hc (by decide) (List.cons.inj (hcs.symm.trans hds)).1

/-- A key of one part, with what follows after blanks. -/
theorem key?_bare {key : String} (h : IsBare key) {rest : List Char}
    (hrest : ∀ c ∈ rest.head?, isBareChar c = false)
    (hdot : ∀ cs, skipSpace rest ≠ '.' :: cs) :
    key? (key.toList ++ rest) = some ([key], skipSpace rest) := by
  have hskip : skipSpace (key.toList ++ rest) = key.toList ++ rest := by
    obtain ⟨c, cs, hcs, hc⟩ := h.head rest
    rw [hcs, skipSpace_of_head (isSpace_eq_false hc rfl rfl)]
  have haux : keyAux [] (key.toList ++ rest) = some ([key], skipSpace rest) := by
    rw [keyAux, hskip, simpleKey?_bare h hrest]
    dsimp only
    split
    · rename_i heq
      exact absurd heq (hdot _)
    · rfl
  rw [key?, haux]
  rfl

/-! ## 3. Tables that grow -/

section Tables

variable {name key : String} {done fields : List (String × Toml)}

theorem lookup_eq_none (h : key ∉ done.map Prod.fst) : done.lookup key = none := by
  rw [List.lookup_eq_none_iff]
  intro e he
  rw [bne_iff_ne]
  rintro rfl
  exact h (List.mem_map_of_mem he)

theorem lookup_concat (h : name ∉ done.map Prod.fst) (t : Toml) :
    (done ++ [(name, t)]).lookup name = some t := by
  rw [List.lookup_append, lookup_eq_none h, Option.none_or, List.lookup_cons_self]

theorem replace_concat (h : name ∉ done.map Prod.fst) (t t' : Toml) :
    replace name t' (done ++ [(name, t)]) = done ++ [(name, t')] := by
  have hdone : replace name t' done = done := by
    refine (List.map_congr_left fun e he => if_neg ?_).trans (List.map_id done)
    rintro rfl
    exact h (List.mem_map_of_mem he)
  rw [replace, List.map_append, ← replace, hdone, List.map_singleton, if_pos rfl]

/-- A header opens a table that was not there. -/
theorem define?_new (h : name ∉ done.map Prod.fst) :
    define? [name] (.table .defined done) =
      some (.table .defined (done ++ [(name, .table .defined [])])) := by
  show openTable? name (.table .defined done) = _
  rw [openTable?, lookup_eq_none h]

/-- What was read when the last of some tables is open. -/
def Reading.within (done : List (String × Toml)) (name : String) (fields : List (String × Toml)) :
    Reading :=
  ⟨.table .defined (done ++ [(name, .table .defined fields)]), [name]⟩

/-- A key that was not there is added to the table that is open. -/
theorem insert?_within (hname : name ∉ done.map Prod.fst) (hkey : key ∉ fields.map Prod.fst)
    (v : Toml) :
    (Reading.within done name fields).insert? [key] v =
      some (.within done name (fields ++ [(key, v)])) := by
  have hadd : insert? (.table .defined fields) [key] v =
      some (.table .defined (fields ++ [(key, v)])) := by
    show addKey? true key v (.table .defined fields) = _
    rw [addKey?, lookup_eq_none hkey]
    rfl
  rw [Reading.insert?, Reading.within, modify?, lookup_concat hname]
  simp only [modify?, hadd, replace_concat hname]
  rfl

end Tables

/-! ## 4. Lines -/

/-- A key with its value, and how the value is written. -/
structure Field where
  key : String
  chars : List Char
  value : Toml

namespace Field

/-- The key is bare, and the value is written as what it is. -/
def Reads (f : Field) : Prop := IsBare f.key ∧ Spells f.chars f.value

/-- The line of a key with its value. -/
def line (f : Field) : List Char := f.key.toList ++ " = ".toList ++ f.chars

/-- What a line adds to the table that is open. -/
def entry (f : Field) : String × Toml := (f.key, f.value)

end Field

/-- A line begins with its key. -/
theorem Field.Reads.exists_line {f : Field} (hf : f.Reads) :
    ∃ c cs, f.line = c :: cs ∧ isSpace c = false ∧ c ≠ '\n' ∧ c ≠ '\r' ∧ c ≠ '#' := by
  obtain ⟨c, cs, hcs, hc⟩ := hf.1.head (" = ".toList ++ f.chars)
  exact ⟨c, cs, (List.append_assoc ..).trans hcs, isSpace_eq_false hc rfl rfl,
    ne_of_class hc (by decide), ne_of_class hc (by decide),
    ne_of_class hc (by decide)⟩

theorem skipGap?_breaks {gap : List Char} (hgap : ∀ c ∈ gap, c = '\n') {c : Char}
    (hc : isSpace c = false ∧ c ≠ '\n' ∧ c ≠ '\r' ∧ c ≠ '#') (cs : List Char) :
    skipGap? .blank (gap ++ c :: cs) = some (c :: cs) := by
  induction gap with
  | nil =>
    rw [List.nil_append, skipGap?]
    simp [hc]
  | cons d gap ih =>
    rw [List.forall_mem_cons] at hgap
    rw [hgap.1]
    exact ih hgap.2

/-- **One line**, after line breaks: reading goes on at the end of it with what it did. -/
theorem statements?_line {r r' : Reading} {gap line rest : List Char}
    (hgap : ∀ c ∈ gap, c = '\n')
    (hline : ∃ c cs, line = c :: cs ∧ isSpace c = false ∧ c ≠ '\n' ∧ c ≠ '\r' ∧ c ≠ '#')
    (h : statement? r (line ++ '\n' :: rest) = some (r', '\n' :: rest)) :
    statements? r (gap ++ (line ++ '\n' :: rest)) = statements? r' ('\n' :: rest) := by
  obtain ⟨c, cs, rfl, hc⟩ := hline
  rw [List.cons_append] at h ⊢
  rw [statements?, skipGap?_breaks hgap hc]
  simp only [h]
  refine if_pos ?_
  rw [Bool.and_eq_true, decide_eq_true_eq]
  refine ⟨rfl, ?_⟩
  simp only [List.length_append, List.length_cons]
  omega

/-- A key with its value. -/
theorem statement?_field {f : Field} (hf : f.Reads) (r : Reading) (rest : List Char) :
    statement? r (f.line ++ '\n' :: rest) =
      (r.insert? [f.key] f.value).map fun r => (r, '\n' :: rest) := by
  obtain ⟨hkey, hvalue⟩ := hf
  have hline : f.line ++ '\n' :: rest =
      f.key.toList ++ ' ' :: '=' :: ' ' :: (f.chars ++ '\n' :: rest) := by
    rw [Field.line, List.append_assoc, List.append_assoc]
    rfl
  have hread : key? (f.line ++ '\n' :: rest) =
      some ([f.key], '=' :: ' ' :: (f.chars ++ '\n' :: rest)) := by
    rw [hline, key?_bare hkey]
    · rfl
    · intro c hc
      cases hc
      decide
    · exact fun cs hcs => absurd (List.cons.inj hcs).1 (by decide)
  obtain ⟨c, cs, hcs, hc⟩ := hkey.head (' ' :: '=' :: ' ' :: (f.chars ++ '\n' :: rest))
  have hopen : ∀ ds, f.line ++ '\n' :: rest = '[' :: ds → False := fun ds hds =>
    ne_of_class hc (by decide) (List.cons.inj (hcs.symm.trans (hline.symm.trans hds))).1
  rw [statement?]
  · simp only [hread]
    have hskip : skipSpace (' ' :: (f.chars ++ '\n' :: rest)) = f.chars ++ '\n' :: rest :=
      hvalue.start rest
    rw [hskip, hvalue.read, Option.map_eq_bind]
    rfl
  · exact fun ds => hopen _
  · exact hopen

/-- A header. -/
theorem statement?_header {name : String} (hname : IsBare name) (r : Reading) (rest : List Char) :
    statement? r ('[' :: name.toList ++ [']'] ++ rest) =
      (define? [name] r.table).map fun t => (⟨t, [name]⟩, rest) := by
  have hread : key? (name.toList ++ ']' :: rest) = some ([name], ']' :: rest) := by
    rw [key?_bare hname]
    · rfl
    · intro c hc
      cases hc
      decide
    · exact fun cs hcs => absurd (List.cons.inj hcs).1 (by decide)
  obtain ⟨c, cs, hcs, hc⟩ := hname.head (']' :: rest)
  rw [List.append_assoc, List.singleton_append, List.cons_append, statement?]
  · simp only [hread]
  · exact fun ds hds =>
      ne_of_class hc (by decide) (List.cons.inj (hcs.symm.trans hds)).1

/-! ## 5. Sections -/

/-- The lines of some keys. -/
def linesOf (fs : List Field) : List Char := fs.flatMap fun f => '\n' :: f.line

/-- A header and the lines of its keys. -/
def sectionChars (name : String) (fs : List Field) : List Char :=
  '[' :: name.toList ++ [']'] ++ linesOf fs

theorem exists_linesOf (fs : List Field) (rest : List Char) :
    ∃ cs, linesOf fs ++ '\n' :: rest = '\n' :: cs := by
  cases fs with
  | nil => exact ⟨rest, rfl⟩
  | cons f fs => exact ⟨_, rfl⟩

/-- The lines of keys add them one after the other. -/
theorem statements?_fields {name : String} {done fields : List (String × Toml)} {fs : List Field}
    (hname : name ∉ done.map Prod.fst) (hfs : ∀ f ∈ fs, f.Reads)
    (hkeys : ((fields ++ fs.map Field.entry).map Prod.fst).Nodup) (rest : List Char) :
    statements? (.within done name fields) (linesOf fs ++ '\n' :: rest) =
      statements? (.within done name (fields ++ fs.map Field.entry)) ('\n' :: rest) := by
  induction fs generalizing fields with
  | nil => rw [List.map_nil, List.append_nil]; rfl
  | cons f fs ih =>
    rw [List.forall_mem_cons] at hfs
    have hmore : fields ++ (f :: fs).map Field.entry =
        (fields ++ [f.entry]) ++ fs.map Field.entry := by
      rw [List.map_cons, List.append_assoc, List.singleton_append]
    rw [hmore] at hkeys ⊢
    have hkey : f.key ∉ fields.map Prod.fst := by
      rw [List.map_append, List.map_append, List.append_assoc] at hkeys
      exact fun hmem => (List.nodup_append.1 hkeys).2.2 _ hmem _ List.mem_cons_self rfl
    obtain ⟨rest', hrest'⟩ := exists_linesOf fs rest
    have hread := statement?_field hfs.1 (.within done name fields) rest'
    rw [insert?_within hname hkey, Option.map_some] at hread
    calc statements? (.within done name fields) (linesOf (f :: fs) ++ '\n' :: rest)
        = statements? (.within done name fields) (['\n'] ++ (f.line ++ '\n' :: rest')) := by
          rw [← hrest', linesOf, List.flatMap_cons, List.append_assoc]
          rfl
      _ = statements? (.within done name (fields ++ [f.entry])) ('\n' :: rest') :=
          statements?_line (by simp) hfs.1.exists_line hread
      _ = statements? (.within done name (fields ++ [f.entry])) (linesOf fs ++ '\n' :: rest) := by
          rw [hrest']
      _ = _ := ih hfs.2 hkeys

/-- **The lines of a table add it**, with its keys in order, to those before it. -/
theorem statements?_section {name : String} {done : List (String × Toml)} {path : List String}
    {gap : List Char} {fs : List Field} (hgap : ∀ c ∈ gap, c = '\n') (hname : IsBare name)
    (hnew : name ∉ done.map Prod.fst) (hfs : ∀ f ∈ fs, f.Reads)
    (hkeys : ((fs.map Field.entry).map Prod.fst).Nodup) (rest : List Char) :
    statements? ⟨.table .defined done, path⟩ (gap ++ (sectionChars name fs ++ '\n' :: rest)) =
      statements? (.within done name (fs.map Field.entry)) ('\n' :: rest) := by
  obtain ⟨rest', hrest'⟩ := exists_linesOf fs rest
  have hread := statement?_header hname ⟨.table .defined done, path⟩ ('\n' :: rest')
  rw [define?_new hnew, Option.map_some] at hread
  calc statements? ⟨.table .defined done, path⟩ (gap ++ (sectionChars name fs ++ '\n' :: rest))
      = statements? (.within done name []) ('\n' :: rest') := by
        rw [sectionChars, List.append_assoc _ (linesOf fs), hrest']
        exact statements?_line hgap ⟨'[', _, rfl, by decide⟩ hread
    _ = statements? (.within done name []) (linesOf fs ++ '\n' :: rest) := by rw [hrest']
    _ = _ := statements?_fields hnew hfs hkeys rest

end Recast.Toml
