import Mathlib.Data.List.Basic
import Recast.Document.Json
import Recast.Proofs.Json.Place
import Recast.Proofs.Text.Digit

/-!
# The two spellings of an offset

The position and the length of a node may be written as a number or as a text that holds one. A
document depends on the value alone, and a text that holds no offset makes it unreadable.

* `SpellsOffset`, `IsOffsetText`: the texts that hold a given number, and those that hold an offset;
* `Role`, `roleAt`: **what the part of a document at the end of a path is**;
* `Through`: a result that depends on an offset by its value alone;
  `Outline.through_decode?`, `Document.through_decode?`: so do documents on all their offsets;
* `Respelled`: a text with some of its offsets written as texts;
* `offsets_as_text`: **either spelling gives the same document, and a text that holds no offset is
  refused.**
-/

namespace Recast

/-! ## 1. Offsets as texts -/

namespace Text

theorem isBlank_of_isDigit {c : Char} (h : c.isDigit = true) : isBlank c = false := by
  have hrange : 48 ≤ c.toNat ∧ c.toNat ≤ 57 := Char.isDigit_iff_toNat.1 h
  rw [isBlank, inRanges, List.any_eq_false]
  intro range hmem hin
  have hout : ∀ r ∈ blankRanges, r.2 < 48 ∨ 57 < r.1 := by decide
  rw [Bool.and_eq_true, decide_eq_true_iff, decide_eq_true_iff] at hin
  rcases hout range hmem with h | h <;> omega

theorem dropWhile_blank {front mid : List Char} (hfront : ∀ c ∈ front, isBlank c = true)
    (hmid : ∀ c ∈ mid.head?, isBlank c = false) : (front ++ mid).dropWhile isBlank = mid := by
  rw [List.dropWhile_append_of_pos hfront]
  cases mid with
  | nil => rfl
  | cons c cs => exact List.dropWhile_cons_of_neg (ne_true_of_eq_false (hmid c rfl))

/-- Trimming takes the blanks from both ends. -/
theorem trim_between {front mid back : List Char} (hfront : ∀ c ∈ front, isBlank c = true)
    (hback : ∀ c ∈ back, isBlank c = true) (hne : mid ≠ [])
    (hmid : ∀ c ∈ mid, isBlank c = false) : trim (front ++ (mid ++ back)) = mid := by
  have hstart : trimStart (front ++ (mid ++ back)) = mid ++ back := by
    refine dropWhile_blank hfront fun c hc => hmid c ?_
    obtain ⟨d, mid, rfl⟩ := List.exists_cons_of_ne_nil hne
    exact List.mem_of_mem_head? hc
  have hend : (mid ++ back).reverse.dropWhile isBlank = mid.reverse := by
    rw [List.reverse_append]
    refine dropWhile_blank (fun c hc => hback c (List.mem_reverse.1 hc)) fun c hc => hmid c ?_
    exact List.mem_reverse.1 (List.mem_of_mem_head? hc)
  rw [trim, hstart, trimEnd, dropEndWhile, hend, List.reverse_reverse]

end Text

/-- What may stand before the digits of an offset. -/
def IsPlus (plus : List Char) : Prop := plus = [] ∨ plus = ['+']

/-- A text that holds the given number: blanks at either end, an optional plus sign, any number of
    leading zeros, and the digits. -/
def SpellsOffset (s : String) (n : Nat) : Prop :=
  ∃ front plus back : List Char, ∃ zeros : Nat, IsPlus plus ∧
    (∀ c ∈ front, Text.isBlank c = true) ∧ (∀ c ∈ back, Text.isBlank c = true) ∧
    s.toList = front ++ plus ++ List.replicate zeros '0' ++ Nat.toDigits 10 n ++ back

/-- A text that holds an offset: without the blanks at its ends it is an optional plus sign and one
    or more digits, and their value is not too large. -/
def IsOffsetText (s : String) : Prop :=
  ∃ plus digits : List Char, IsPlus plus ∧ Text.trim s.toList = plus ++ digits ∧ digits ≠ [] ∧
    (∀ c ∈ digits, c.isDigit = true) ∧ Nat.ofDigitChars 10 digits 0 ≤ 4294967295

/-- A text without the plus sign in front. -/
def afterPlus : List Char → List Char
  | '+' :: cs => cs
  | cs => cs

theorem offsetOfText?_eq (s : String) : offsetOfText? s =
    (Text.decimal? (afterPlus (Text.trim s.toList))).bind fun n =>
      if n ≤ Text.maxOffset then some n else none := rfl

theorem exists_afterPlus (cs : List Char) : ∃ plus, IsPlus plus ∧ cs = plus ++ afterPlus cs := by
  unfold afterPlus
  split
  · exact ⟨['+'], .inr rfl, rfl⟩
  · exact ⟨[], .inl rfl, rfl⟩

/-- A digit is no plus sign. -/
theorem afterPlus_append {plus digits : List Char} (hplus : IsPlus plus)
    (hdigits : ∀ c ∈ digits, c.isDigit = true) : afterPlus (plus ++ digits) = digits := by
  rcases hplus with rfl | rfl
  · rw [List.nil_append]
    unfold afterPlus
    split
    · exact absurd (hdigits '+' List.mem_cons_self) (by decide)
    · rfl
  · rfl

/-- **Leading zeros, a sign and blanks do not change the value.** -/
theorem offsetOfText?_of_spells {s : String} {n : Nat} (h : SpellsOffset s n) :
    offsetOfText? s = if n ≤ Text.maxOffset then some n else none := by
  obtain ⟨front, plus, back, zeros, hplus, hfront, hback, hs⟩ := h
  have hdigits : ∀ c ∈ List.replicate zeros '0' ++ Nat.toDigits 10 n, c.isDigit = true := by
    rw [List.forall_mem_append]
    refine ⟨fun c hc => ?_, fun c hc => Nat.isDigit_of_mem_toDigits (by decide) (by decide) hc⟩
    rw [List.eq_of_mem_replicate hc]
    rfl
  have hne : List.replicate zeros '0' ++ Nat.toDigits 10 n ≠ [] :=
    List.append_ne_nil_of_right_ne_nil _ Nat.toDigits_ne_nil
  have hvalue : Nat.ofDigitChars 10 (List.replicate zeros '0' ++ Nat.toDigits 10 n) 0 = n := by
    rw [Nat.ofDigitChars_append, Nat.ofDigitChars_replicate_zero, Nat.mul_zero,
      Nat.ofDigitChars_ten_toDigits]
  have hblank : ∀ c ∈ plus ++ (List.replicate zeros '0' ++ Nat.toDigits 10 n),
      Text.isBlank c = false := by
    rw [List.forall_mem_append]
    refine ⟨fun c hc => ?_, fun c hc => Text.isBlank_of_isDigit (hdigits c hc)⟩
    rcases hplus with rfl | rfl
    · cases hc
    · rw [List.mem_singleton.1 hc]
      rfl
  have htrim : Text.trim s.toList = plus ++ (List.replicate zeros '0' ++ Nat.toDigits 10 n) := by
    rw [hs, ← Text.trim_between hfront hback (List.append_ne_nil_of_right_ne_nil _ hne) hblank]
    simp only [List.append_assoc]
  rw [offsetOfText?_eq, htrim, afterPlus_append hplus hdigits, Text.decimal?_digits hne hdigits,
    hvalue, Option.bind_some]

/-- **An offset is read as one, and nothing else is.** -/
theorem isOffsetText_iff (s : String) : IsOffsetText s ↔ (offsetOfText? s).isSome = true := by
  constructor
  · rintro ⟨plus, digits, hplus, htrim, hne, hdigits, hle⟩
    rw [offsetOfText?_eq, htrim, afterPlus_append hplus hdigits, Text.decimal?_digits hne hdigits,
      Option.bind_some]
    exact congrArg Option.isSome (if_pos hle)
  · intro h
    obtain ⟨n, hn⟩ := Option.isSome_iff_exists.1 h
    obtain ⟨plus, hplus, htrim⟩ := exists_afterPlus (Text.trim s.toList)
    rw [offsetOfText?_eq] at hn
    obtain ⟨m, hm, hle⟩ := Option.bind_eq_some_iff.1 hn
    obtain ⟨hne, hdigits⟩ := Text.forall_isDigit_of_decimal? hm
    rw [Text.decimal?_digits hne hdigits] at hm
    refine ⟨plus, _, hplus, htrim, hne, hdigits, ?_⟩
    rw [Option.some.inj hm]
    exact (Option.ite_none_right_eq_some.1 hle).1

instance (s : String) : Decidable (IsOffsetText s) := decidable_of_iff _ (isOffsetText_iff s).symm

/-! ## 2. Where offsets stand -/

/-- What a part of a document is. -/
inductive Role where
  | document
  | tree
  | node
  /-- The list of the children of a node. -/
  | nodes
  | offset
  | other
deriving DecidableEq

namespace Role

/-- What a part of a part is: a record has its fields by name, or in order. -/
def inside : Role → Json.Step → Role
  | .document, s =>
    match s with
    | .field (some "before") | .item 1 => .tree
    | .field (some "after") | .item 2 => .tree
    | _ => .other
  | .tree, s =>
    match s with
    | .field (some "root") | .item 1 => .node
    | _ => .other
  | .node, s =>
    match s with
    | .field (some "pos") | .item 2 => .offset
    | .field (some "length") | .item 3 => .offset
    | .field (some "children") | .item 4 => .nodes
    | _ => .other
  | .nodes, s =>
    match s with
    | .item _ => .node
    | .field _ => .other
  | .offset, _ => .other
  | .other, _ => .other

/-- What is at the end of a path that begins at a part of the given role. -/
def along (r : Role) (path : List Json.Step) : Role := path.foldl inside r

theorem along_other (path : List Json.Step) : along .other path = .other := by
  induction path with
  | nil => rfl
  | cons s path ih => exact ih

/-- Offsets have no parts. -/
theorem path_of_along_offset {path : List Json.Step} (h : along .offset path = .offset) :
    path = [] := by
  cases path with
  | nil => rfl
  | cons s path =>
    have hother : along .offset (s :: path) = .other := along_other path
    rw [hother] at h
    cases h

/-- The first step on the way to an offset leads to something a document is made of. -/
theorem along_cons {r : Role} {s : Json.Step} {path : List Json.Step}
    (h : along r (s :: path) = .offset) :
    inside r s ≠ .other ∧ along (inside r s) path = .offset := by
  refine ⟨fun hother => ?_, h⟩
  have hend : along (inside r s) path = .offset := h
  rw [hother, along_other] at hend
  cases hend

end Role

/-- What is at the end of a path into a document. -/
def roleAt (path : List Json.Step) : Role := Role.along .document path

namespace Json

/-- A step that leads to the field of a record with the given number. -/
def Step.IsField (names : List String) (i : Nat) : Step → Prop
  | .item j => j = i
  | .field k => ∃ name, k = some name ∧ names[i]? = some name

end Json

namespace Role

variable {s : Json.Step}

theorem inside_document (h : inside .document s ≠ .other) : inside .document s = .tree ∧
    (s.IsField Document.fieldNames 1 ∨ s.IsField Document.fieldNames 2) := by
  simp only [inside] at h ⊢
  split at h
  · exact ⟨rfl, .inl ⟨_, rfl, rfl⟩⟩
  · exact ⟨rfl, .inl rfl⟩
  · exact ⟨rfl, .inr ⟨_, rfl, rfl⟩⟩
  · exact ⟨rfl, .inr rfl⟩
  · exact absurd rfl h

theorem inside_tree (h : inside .tree s ≠ .other) :
    inside .tree s = .node ∧ s.IsField TreeDocument.fieldNames 1 := by
  simp only [inside] at h ⊢
  split at h
  · exact ⟨rfl, _, rfl, rfl⟩
  · exact ⟨rfl, rfl⟩
  · exact absurd rfl h

theorem inside_node (h : inside .node s ≠ .other) :
    inside .node s = .offset ∧
        (s.IsField Outline.fieldNames 2 ∨ s.IsField Outline.fieldNames 3) ∨
      inside .node s = .nodes ∧ s.IsField Outline.fieldNames 4 := by
  simp only [inside] at h ⊢
  split at h
  · exact .inl ⟨rfl, .inl ⟨_, rfl, rfl⟩⟩
  · exact .inl ⟨rfl, .inl rfl⟩
  · exact .inl ⟨rfl, .inr ⟨_, rfl, rfl⟩⟩
  · exact .inl ⟨rfl, .inr rfl⟩
  · exact .inr ⟨rfl, _, rfl, rfl⟩
  · exact .inr ⟨rfl, rfl⟩
  · exact absurd rfl h

end Role

/-! ## 3. What a document depends on -/

namespace Json

theorem valuesOf_append (name : String) (xs ys : List (Option String × Json)) :
    valuesOf name (xs ++ ys) = valuesOf name xs ++ valuesOf name ys :=
  List.filterMap_append

/-- Under another name, a field does not count. -/
theorem field?_of_ne {name k : String} (h : k ≠ name) (before after : List (Option String × Json))
    (v : Json) : field? name (before ++ (some k, v) :: after) = field? name (before ++ after) := by
  have hk : valuesOf name [(some k, v)] = [] := by simp [valuesOf, h]
  rw [field?, field?, ← List.singleton_append, valuesOf_append, valuesOf_append, valuesOf_append,
    hk, List.nil_append]

/-- Under its own name it counts, unless there is another. -/
theorem field?_self (name : String) (before after : List (Option String × Json)) (v : Json) :
    field? name (before ++ (some name, v) :: after) =
      if valuesOf name (before ++ after) = [] then some (some v) else none := by
  have hk : valuesOf name [(some name, v)] = [v] := by simp [valuesOf]
  rw [field?, ← List.singleton_append, valuesOf_append, valuesOf_append, valuesOf_append, hk]
  rcases valuesOf name before with _ | ⟨x, xs⟩
  · rcases valuesOf name after with _ | ⟨y, ys⟩ <;> rfl
  · rcases xs with _ | ⟨z, zs⟩ <;> rfl

section Fields

variable {name : String} (before after : List (Option String × Json))

/-- Fields under other names do not depend on the value under this one. -/
theorem mapM_field?_of_not_mem {names : List String} (h : name ∉ names) :
    (∀ v, names.mapM (field? · (before ++ (some name, v) :: after)) = none) ∨
      ∃ ys : List (Option Json), ys.length = names.length ∧
        ∀ v, names.mapM (field? · (before ++ (some name, v) :: after)) = some ys := by
  induction names with
  | nil => exact .inr ⟨[], rfl, fun _ => rfl⟩
  | cons n names ih =>
    rw [List.mem_cons, not_or] at h
    simp only [List.mapM_cons, field?_of_ne h.1]
    cases field? n (before ++ after) with
    | none => exact .inl fun _ => rfl
    | some y =>
      rcases ih h.2 with hnone | ⟨ys, hlength, hys⟩
      · refine .inl fun v => ?_
        rw [hnone]
        rfl
      · refine .inr ⟨y :: ys, congrArg (· + 1) hlength, fun v => ?_⟩
        rw [hys]
        rfl

/-- **The value under a name is one of the fields**, or the fields are refused whatever it is. -/
theorem mapM_field?_fill {names : List String} (hnames : names.Nodup) {i : Nat}
    (hi : names[i]? = some name) :
    (∀ v, names.mapM (field? · (before ++ (some name, v) :: after)) = none) ∨
      ∃ xs ys : List (Option Json), xs.length = i ∧ xs.length + ys.length + 1 = names.length ∧
        ∀ v, names.mapM (field? · (before ++ (some name, v) :: after)) =
          some (xs ++ some v :: ys) := by
  induction names generalizing i with
  | nil => cases hi
  | cons n names ih =>
    obtain ⟨hn, hnames⟩ := List.nodup_cons.1 hnames
    cases i with
    | zero =>
      obtain rfl : n = name := Option.some.inj hi
      simp only [List.mapM_cons, field?_self]
      by_cases hother : valuesOf n (before ++ after) = []
      · rcases mapM_field?_of_not_mem before after hn with hnone | ⟨ys, hlength, hys⟩
        · refine .inl fun v => ?_
          rw [if_pos hother, hnone]
          rfl
        · refine .inr ⟨[], ys, rfl, ?_, fun v => ?_⟩
          · rw [List.length_nil, Nat.zero_add, hlength, List.length_cons]
          · rw [if_pos hother, hys]
            rfl
      · refine .inl fun v => ?_
        rw [if_neg hother]
        rfl
    | succ i =>
      have hne : name ≠ n := fun h => hn (h ▸ List.mem_of_getElem? hi)
      simp only [List.mapM_cons, field?_of_ne hne]
      cases field? n (before ++ after) with
      | none => exact .inl fun _ => rfl
      | some x =>
        rcases ih hnames hi with hnone | ⟨xs, ys, hxs, hlength, hys⟩
        · refine .inl fun v => ?_
          rw [hnone]
          rfl
        · refine .inr ⟨x :: xs, ys, congrArg (· + 1) hxs, ?_, fun v => ?_⟩
          · rw [List.length_cons, List.length_cons]
            omega
          · rw [hys]
            rfl

end Fields

/-- **A record shows each of its fields as it is**: with one part left open, either it is refused
    whatever the part is, or the part is one of its fields. -/
theorem record?_fill {names : List String} (hnames : names.Nodup) {a : Around} {i : Nat}
    (ha : a.step.IsField names i) :
    (∀ v, record? names (a.fill v) = none) ∨
      ∃ before after, before.length = i ∧ before.length + after.length + 1 = names.length ∧
        ∀ v, record? names (a.fill v) = some (before ++ some v :: after) := by
  cases a with
  | items before after =>
    have hi : before.length = i := ha
    have hsize (v : Json) : (before ++ v :: after).length = before.length + (after.length + 1) := by
      rw [List.length_append, List.length_cons]
    by_cases hlength : before.length + (after.length + 1) ≤ names.length
    · refine .inr ⟨before.map some, after.map some ++
        List.replicate (names.length - (before.length + (after.length + 1))) none, ?_, ?_,
        fun v => ?_⟩
      · rw [List.length_map, hi]
      · rw [List.length_append, List.length_map, List.length_map, List.length_replicate]
        omega
      · show (if (before ++ v :: after).length ≤ _ then _ else _) = _
        rw [hsize, if_pos hlength, List.map_append, List.map_cons, List.append_assoc]
        rfl
    · refine .inl fun v => if_neg ?_
      rwa [hsize]
  | fields before k after =>
    obtain ⟨name, rfl, hname⟩ : ∃ name, k = some name ∧ names[i]? = some name := ha
    have hkeys (v : Json) : (before ++ (some name, v) :: after).all (fun f => f.1.isSome) =
        (before ++ after).all fun f => f.1.isSome := by
      rw [List.all_append, List.all_append, List.all_cons]
      rfl
    have hread (v : Json) : record? names (Around.fill (.fields before (some name) after) v) =
        if (before ++ after).all (fun f => f.1.isSome) = true then
          names.mapM (field? · (before ++ (some name, v) :: after)) else none := by
      rw [← hkeys v]
      rfl
    simp only [hread]
    by_cases hproper : (before ++ after).all (fun f => f.1.isSome) = true
    · simp only [if_pos hproper]
      exact mapM_field?_fill before after hnames hname
    · exact .inl fun v => if_neg hproper

end Json

/-- A result that depends on a part by the offset it holds, and cannot do without one. -/
def Through {α : Type} (f : Json → Option α) : Prop :=
  ∃ g : Nat → Option α, ∀ v, f v = (offsetOfJson? v).bind g

namespace Through

variable {α β : Type}

theorem read (g : Nat → Option α) : Through fun v => (offsetOfJson? v).bind g :=
  ⟨g, fun _ => rfl⟩

theorem none : Through fun _ => (.none : Option α) :=
  ⟨fun _ => .none, fun v => (Option.bind_fun_none (offsetOfJson? v)).symm⟩

theorem bind {f : Json → Option α} (h : Through f) (k : α → Option β) :
    Through fun v => (f v).bind k := by
  obtain ⟨g, hg⟩ := h
  refine ⟨fun n => (g n).bind k, fun v => ?_⟩
  show (f v).bind k = _
  rw [hg, Option.bind_assoc]

/-- What comes before plays no part. -/
theorem after (o : Option α) {f : α → Json → Option β} (h : ∀ a, Through (f a)) :
    Through fun v => o.bind fun a => f a v := by
  cases o with
  | none => exact .none
  | some a => exact h a

/-- A record depends on a part as the field that the part is of does. -/
theorem record {names : List String} (hnames : names.Nodup) {a : Json.Around} {p : Json.Place}
    {i : Nat} (ha : a.step.IsField names i) {k : List (Option Json) → Option α}
    (h : ∀ before after, before.length = i → before.length + after.length + 1 = names.length →
      Through fun v => k (before ++ some (p.fill v) :: after)) :
    Through fun v => (Json.record? names (Json.Place.fill (a :: p) v)).bind k := by
  have hfill (v : Json) : Json.Place.fill (a :: p) v = a.fill (p.fill v) := rfl
  simp only [hfill]
  rcases Json.record?_fill hnames ha with hnone | ⟨before, after, hbefore, hlength, hread⟩
  · simp only [hnone, Option.bind_none]
    exact .none
  · simp only [hread, Option.bind_some]
    exact h before after hbefore hlength

end Through

namespace Outline

variable (levels : Nat) (below? : Json → Option (List Outline)) {p : Json.Place}

theorem through_pos {before after : List (Option Json)} (hbefore : before.length = 2)
    (hafter : after.length = 2) :
    Through fun v => ofFields? levels below? (before ++ some v :: after) := by
  obtain ⟨type, label, rfl⟩ := List.length_eq_two.1 hbefore
  obtain ⟨length, children, rfl⟩ := List.length_eq_two.1 hafter
  rcases type with _ | type
  · exact .none
  rcases length with _ | length
  · exact .none
  refine .after (Kind.decode? levels type) fun kind => ?_
  refine .after (Json.optional? "" Json.string? label) fun label => ?_
  exact .read _

theorem through_length {before after : List (Option Json)} (hbefore : before.length = 3)
    (hafter : after.length = 1) :
    Through fun v => ofFields? levels below? (before ++ some v :: after) := by
  obtain ⟨type, label, pos, rfl⟩ := List.length_eq_three.1 hbefore
  obtain ⟨children, rfl⟩ := List.length_eq_one_iff.1 hafter
  rcases type with _ | type
  · exact .none
  rcases pos with _ | pos
  · exact .none
  refine .after (Kind.decode? levels type) fun kind => ?_
  refine .after (Json.optional? "" Json.string? label) fun label => ?_
  refine .after (offsetOfJson? pos) fun pos => ?_
  exact .read _

theorem through_children {before after : List (Option Json)} (hbefore : before.length = 4)
    (hafter : after.length = 0) (h : Through fun v => below? (p.fill v)) :
    Through fun v => ofFields? levels below? (before ++ some (p.fill v) :: after) := by
  obtain ⟨type, before, rfl⟩ := List.exists_cons_of_length_eq_add_one hbefore
  obtain ⟨label, pos, length, rfl⟩ := List.length_eq_three.1 (Nat.succ.inj hbefore)
  obtain rfl := List.eq_nil_of_length_eq_zero hafter
  rcases type with _ | type
  · exact .none
  rcases pos with _ | pos
  · exact .none
  rcases length with _ | length
  · exact .none
  refine .after (Kind.decode? levels type) fun kind => ?_
  refine .after (Json.optional? "" Json.string? label) fun label => ?_
  refine .after (offsetOfJson? pos) fun pos => ?_
  refine .after (offsetOfJson? length) fun length => ?_
  exact h.bind fun children => some (node kind label pos length children)

/-- **A node depends on every offset in it by its value alone**, when the list of its children
    does. -/
theorem through_record {a : Json.Around}
    (h : Role.along .node (Json.Place.path (a :: p)) = .offset)
    (hbelow : Role.along .nodes p.path = .offset → Through fun v => below? (p.fill v)) :
    Through fun v =>
      (Json.record? fieldNames (Json.Place.fill (a :: p) v)).bind (ofFields? levels below?) := by
  have hnames : fieldNames.Nodup := by decide
  obtain ⟨hstep, h⟩ := Role.along_cons h
  rcases Role.inside_node hstep with ⟨hrole, hfield⟩ | ⟨hrole, hfield⟩
  · rw [hrole] at h
    obtain rfl : p = [] := List.map_eq_nil_iff.1 (Role.path_of_along_offset h)
    rcases hfield with hfield | hfield
    · refine .record hnames hfield fun before after hbefore hlength => ?_
      refine through_pos levels below? hbefore ?_
      rw [hbefore] at hlength
      exact Nat.add_left_cancel (Nat.succ.inj hlength)
    · refine .record hnames hfield fun before after hbefore hlength => ?_
      refine through_length levels below? hbefore ?_
      rw [hbefore] at hlength
      exact Nat.add_left_cancel (Nat.succ.inj hlength)
  · rw [hrole] at h
    refine .record hnames hfield fun before after hbefore hlength => ?_
    refine through_children levels below? hbefore ?_ (hbelow h)
    rw [hbefore] at hlength
    exact Nat.add_left_cancel (Nat.succ.inj hlength)

theorem through_mapM {read? : Json → Option Outline} (before after : List Json)
    (h : Through fun v => read? (p.fill v)) :
    Through fun v => (before ++ p.fill v :: after).mapM read? := by
  have hmapM (v : Json) : (before ++ p.fill v :: after).mapM read? =
      (before.mapM read?).bind fun xs => (read? (p.fill v)).bind fun x =>
        (after.mapM read?).bind fun ys => some (xs ++ x :: ys) := by
    rw [List.mapM_append, List.mapM_cons]
    cases before.mapM read? with
    | none => rfl
    | some xs =>
      cases read? (p.fill v) with
      | none => rfl
      | some x => cases after.mapM read? <;> rfl
  simp only [hmapM]
  exact .after _ fun xs => h.bind _

/-- **A node depends on every offset below it by its value alone**, however deep that is. -/
theorem through_decode? : (levels : Nat) → (p : Json.Place) → Role.along .node p.path = .offset →
    Through fun v => decode? levels (p.fill v)
  | _, [], h => nomatch h
  | 0, _ :: _, _ => .none
  | 1, a :: p, h => through_record 0 _ h fun _ => .none
  | levels + 2, a :: p, h => by
    refine through_record (levels + 1) _ h fun hnodes => ?_
    cases p with
    | nil => cases hnodes
    | cons b p =>
      cases b with
      | items before after =>
        exact through_mapM before after (through_decode? levels p hnodes)
      | fields before k after =>
        exact absurd rfl (Role.along_cons hnodes).1

end Outline

theorem TreeDocument.through_decode? (levels : Nat) {p : Json.Place}
    (h : Role.along .tree p.path = .offset) :
    Through fun v => TreeDocument.decode? levels (p.fill v) := by
  cases levels with
  | zero => exact .none
  | succ levels =>
    cases p with
    | nil => cases h
    | cons a p =>
      obtain ⟨hstep, h⟩ := Role.along_cons h
      obtain ⟨hrole, hfield⟩ := Role.inside_tree hstep
      rw [hrole] at h
      refine .record (by decide) hfield fun before after hbefore hlength => ?_
      obtain ⟨text, rfl⟩ := List.length_eq_one_iff.1 hbefore
      obtain rfl : after = [] :=
        List.eq_nil_of_length_eq_zero (Nat.add_left_cancel (Nat.succ.inj hlength))
      cases text with
      | none => exact .none
      | some text =>
        refine .after text.string? fun text => ?_
        exact (Outline.through_decode? levels p h).bind fun root => some (TreeDocument.mk text root)

/-- **A document depends on every offset in it by its value alone.** -/
theorem Document.through_decode? (levels : Nat) {p : Json.Place} (h : roleAt p.path = .offset) :
    Through fun v => Document.decode? levels (p.fill v) := by
  cases levels with
  | zero => exact .none
  | succ levels =>
    cases p with
    | nil => cases h
    | cons a p =>
      obtain ⟨hstep, h⟩ := Role.along_cons h
      obtain ⟨hrole, hfield⟩ := Role.inside_document hstep
      rw [hrole] at h
      have htree := TreeDocument.through_decode? levels h
      rcases hfield with hfield | hfield
      · refine .record (by decide) hfield fun xs ys hxs hlength => ?_
        obtain ⟨path, rfl⟩ := List.length_eq_one_iff.1 hxs
        obtain ⟨after, mapping, script, rfl⟩ :=
          List.length_eq_three.1 (Nat.add_left_cancel (Nat.succ.inj hlength))
        rcases path with _ | path
        · exact .none
        rcases after with _ | after
        · exact .none
        refine .after path.string? fun path => ?_
        exact htree.bind _
      · refine .record (by decide) hfield fun xs ys hxs hlength => ?_
        obtain ⟨path, before, rfl⟩ := List.length_eq_two.1 hxs
        obtain ⟨mapping, script, rfl⟩ :=
          List.length_eq_two.1 (Nat.add_left_cancel (Nat.succ.inj hlength))
        rcases path with _ | path
        · exact .none
        rcases before with _ | before
        · exact .none
        refine .after path.string? fun path => ?_
        refine .after (TreeDocument.decode? levels before) fun before => ?_
        exact htree.bind _

/-! ## 4. Texts of documents -/

open Json (Reads Stands)

/-- After `pre`, the next value of a text is the position or the length of a node. -/
def OffsetFollows (pre : List Char) : Prop :=
  (Json.nextValue? pre).map roleAt = some .offset

instance (pre : List Char) : Decidable (OffsetFollows pre) :=
  inferInstanceAs (Decidable (_ = _))

/-- `Respelled pre cs cs'` is about two texts that begin with `pre`: they go on with `cs` and `cs'`,
    which are the same, except that positions and lengths that are numbers in `cs` may be strings
    in `cs'` that hold these numbers. -/
inductive Respelled : (pre cs cs' : List Char) → Prop where
  | same {pre : List Char} (cs : List Char) : Respelled pre cs cs
  | keep {pre cs cs' : List Char} (c : Char) (h : Respelled (pre ++ [c]) cs cs') :
      Respelled pre (c :: cs) (c :: cs')
  | offset {pre post post' lit : List Char} {s : String} {n : Nat} (hpre : OffsetFollows pre)
      (hnumber : ∀ c ∈ post.head?, Json.Lexer.goesOn c = false)
      (hlit : Reads lit [.string (some s)]) (hs : SpellsOffset s n)
      (h : Respelled (pre ++ Nat.toDigits 10 n) post post') :
      Respelled pre (Nat.toDigits 10 n ++ post) (lit ++ post')

/-- In the middle of a number nothing new begins. -/
theorem OffsetFollows.not_append_digits {pre : List Char} (h : OffsetFollows pre) (n : Nat) :
    ¬ OffsetFollows (pre ++ Nat.toDigits 10 n) := by
  intro hthen
  obtain ⟨path, hpath, -⟩ := Option.map_eq_some_iff.1 h
  obtain ⟨path', hpath', -⟩ := Option.map_eq_some_iff.1 hthen
  obtain ⟨ts, -, hrun, -⟩ := Json.exists_stack_of_nextValue? hpath
  obtain ⟨us, -, hend, -⟩ := Json.exists_stack_of_nextValue? hpath'
  rw [Json.Lexer.run_append_of_eq hrun] at hend
  have hdigits : (Json.Lexer.after ts).run (Nat.toDigits 10 n) =
      some ⟨ts.reverse, .numeral (.ofNat n)⟩ := Json.run_toDigits ts.reverse n
  rw [hdigits] at hend
  cases congrArg Json.Lexer.mode (Option.some.inj hend)

theorem Respelled.head?_eq {pre cs cs' : List Char} (h : Respelled pre cs cs')
    (hpre : ¬ OffsetFollows pre) : cs'.head? = cs.head? := by
  cases h with
  | same | keep => rfl
  | offset hfollows => exact absurd hfollows hpre

/-- Two texts that differ in an offset, but not in its value, are read as the same document. -/
theorem Document.ofText_congr {pre xs xs' post : List Char} {t t' : Json.Token} {v v' : Json}
    (hpre : OffsetFollows pre) (hxs : Stands xs post [t]) (hxs' : Stands xs' post [t'])
    (ht : t.IsValue v) (ht' : t'.IsValue v') (hv : offsetOfJson? v = offsetOfJson? v') :
    Document.ofText (String.ofList (pre ++ (xs ++ post))) =
      Document.ofText (String.ofList (pre ++ (xs' ++ post))) := by
  obtain ⟨path, hplace, hrole⟩ := Option.map_eq_some_iff.1 hpre
  have hrel := Json.parse?_place hplace String.toList_ofList String.toList_ofList hxs hxs' ht ht'
  unfold Document.ofText
  generalize Json.parse? (String.ofList (pre ++ (xs ++ post))) = j,
    Json.parse? (String.ofList (pre ++ (xs' ++ post))) = j' at hrel
  cases hrel with
  | none => rfl
  | some hdiffer =>
    obtain ⟨p, hpath, rfl, rfl⟩ := hdiffer
    rw [← hpath] at hrole
    obtain ⟨g, hg⟩ : ∃ g, ∀ u, Document.decode? Json.maxLevels (p.fill u) =
      (offsetOfJson? u).bind g := Document.through_decode? _ hrole
    rw [Option.bind_some, Option.bind_some, hg v, hg v', hv]

/-- **However many offsets are written as strings, the document is the same.** -/
theorem Respelled.ofText_eq {pre cs cs' : List Char} (h : Respelled pre cs cs') :
    Document.ofText (String.ofList (pre ++ cs')) = Document.ofText (String.ofList (pre ++ cs)) := by
  induction h with
  | same => rfl
  | keep c h ih =>
    rw [List.append_assoc, List.append_assoc] at ih
    exact ih
  | @offset pre post post' lit s n hpre hnumber hlit hs h ih =>
    -- the rest first, which does not change how this number ends
    rw [List.append_assoc, List.append_assoc] at ih
    have hhead : ∀ c ∈ post'.head?, Json.Lexer.goesOn c = false := by
      rw [h.head?_eq (hpre.not_append_digits n)]
      exact hnumber
    have hvalue : offsetOfJson? (.string (some s)) = offsetOfJson? (.number (.ofNat n)) :=
      offsetOfText?_of_spells hs
    rw [← ih]
    exact Document.ofText_congr hpre (hlit.stands post') ((Json.settles_digits n).stands hhead)
      (fun _ => rfl) (fun _ => rfl) hvalue

/-- **Offsets may be written as numbers or as texts.** A text of a document keeps its meaning when
    any of the numbers that are positions and lengths are written as strings, with blanks, a plus
    sign and leading zeros; and with a string for a position or a length that holds no offset it is
    unreadable. -/
theorem offsets_as_text :
    (∀ text text' : String, Respelled [] text.toList text'.toList →
      Document.ofText text' = Document.ofText text) ∧
    ∀ (text : String) (pre lit post : List Char) (s : Option String),
      text.toList = pre ++ (lit ++ post) → OffsetFollows pre → Reads lit [.string s] →
        (∀ t ∈ s, ¬ IsOffsetText t) → Document.ofText text = .error .unreadable := by
  refine ⟨fun text text' h => ?_, fun text pre lit post s htext hpre hlit hs => ?_⟩
  · have hdocument := h.ofText_eq
    rwa [List.nil_append, List.nil_append, String.ofList_toList, String.ofList_toList]
      at hdocument
  · obtain ⟨path, hplace, hrole⟩ := Option.map_eq_some_iff.1 hpre
    have hoffset : offsetOfJson? (.string s) = none := by
      show s.bind offsetOfText? = none
      rw [Option.bind_eq_none_iff]
      intro t ht
      exact Option.not_isSome_iff_eq_none.1 fun hsome => hs t ht ((isOffsetText_iff t).2 hsome)
    have hstring : Json.Token.IsValue (.string s) (.string s) := fun _ => rfl
    have hrel := Json.parse?_place hplace htext htext (hlit.stands post) (hlit.stands post)
      hstring hstring
    unfold Document.ofText
    generalize Json.parse? text = j at hrel
    cases hrel with
    | none => rfl
    | some hdiffer =>
      obtain ⟨p, hpath, rfl, -⟩ := hdiffer
      rw [← hpath] at hrole
      obtain ⟨g, hg⟩ : ∃ g, ∀ u, Document.decode? Json.maxLevels (p.fill u) =
        (offsetOfJson? u).bind g := Document.through_decode? _ hrole
      rw [Option.bind_some, hg, hoffset]
      rfl

theorem Respelled.append {pre cs cs' : List Char} (xs : List Char)
    (h : Respelled (pre ++ xs) cs cs') : Respelled pre (xs ++ cs) (xs ++ cs') := by
  induction xs generalizing pre with
  | nil => rwa [List.append_nil] at h
  | cons x xs ih =>
    rw [List.append_cons] at h
    exact .keep x (ih h)

/-- Before the length of the second tree in `lengthText`. -/
def lengthFront : List Char :=
  "[\"A.java\",[\"x\",[\"m\",\"\",0,1]],[\"x\",\x7b\"length\":".toList

/-- After the length of the second tree in `lengthText`. -/
def lengthBack : List Char := ",\"type\":\"m\",\"pos\":0\x7d]]".toList

/-- A document with two trees of one node each, the second of which is as long as the given
    characters say. -/
def lengthText (length : List Char) : String :=
  String.ofList (lengthFront ++ (length ++ lengthBack))

theorem offsets_as_text_lengthText :
    Document.ofText (lengthText ['1']) = .ok ⟨"A.java", ⟨"x", .node (.ofName "m") "" 0 1 []⟩,
        ⟨"x", .node (.ofName "m") "" 0 1 []⟩, [], []⟩ ∧
      Document.ofText (lengthText (Json.quote (some "\t +0001 "))) =
        Document.ofText (lengthText ['1']) ∧
      Document.ofText (lengthText (Json.quote (some "-1"))) = .error .unreadable := by
  have hfront : OffsetFollows lengthFront := by decide +kernel
  have hspells : SpellsOffset "\t +0001 " 1 :=
    ⟨['\t', ' '], ['+'], [' '], 3, .inr rfl, List.all_eq_true.1 (by decide),
      List.all_eq_true.1 (by decide), by decide⟩
  have hcomma : ∀ c ∈ lengthBack.head?, Json.Lexer.goesOn c = false := by
    intro c hc
    cases hc
    rfl
  have hoffset : Respelled ([] ++ lengthFront) (Nat.toDigits 10 1 ++ lengthBack)
      (Json.quote (some "\t +0001 ") ++ lengthBack) := by
    rw [List.nil_append]
    exact .offset hfront hcomma (Json.reads_quote _) hspells (.same lengthBack)
  have hrespelled : Respelled [] (lengthText ['1']).toList
      (lengthText (Json.quote (some "\t +0001 "))).toList := by
    rw [lengthText, lengthText, String.toList_ofList, String.toList_ofList]
    exact hoffset.append lengthFront
  have hrefused : ¬ IsOffsetText "-1" := by decide +kernel
  refine ⟨by decide +kernel, offsets_as_text.1 _ _ hrespelled, ?_⟩
  refine offsets_as_text.2 _ lengthFront (Json.quote (some "-1")) _ (some "-1")
    String.toList_ofList hfront (Json.reads_quote "-1") fun t ht => ?_
  rwa [← Option.some.inj ht]

end Recast
