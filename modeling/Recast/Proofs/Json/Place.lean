import Mathlib.Tactic.SplitIfs
import Recast.Proofs.Json.RoundTrip

/-!
# One place in a text

Two texts that differ in one word are read in step: where that word is a value, the two results
differ in that value and nowhere else, and either both texts can be read or neither can.

* `Place`: a value with one part left out, `Place.fill` puts the part in, and `Place.path` is the way
  to it;
* `StackApart`, `Builder.Apart`: stacks and states of the machine that differ in one part;
* `Builder.Apart.step`, `Builder.Apart.run`: **the machine keeps to that**, word by word;
* `Lexer.words_after`: what was read before a piece of text does not change how it is read;
* `nextValue?`: the way to the value that comes next in a text;
* `parse?_place`: **what two texts that differ in one value are read as.**
-/

namespace Recast.Json

open Lexer (after)

/-! ## 1. Places -/

/-- A step into a value: to an item by its number, or to a field by its name. -/
inductive Step where
  | item (index : Nat)
  | field (key : Option String)
deriving DecidableEq

/-- What stands around a part of an array or of an object. -/
inductive Around where
  | items (before after : List Json)
  | fields (before : List (Option String × Json)) (key : Option String)
      (after : List (Option String × Json))

namespace Around

/-- The step to the part. -/
def step : Around → Step
  | .items before _ => .item before.length
  | .fields _ key _ => .field key

/-- Puts the part in. -/
def fill : Around → Json → Json
  | .items before after, v => .array (before ++ v :: after)
  | .fields before key after, v => .object (before ++ (key, v) :: after)

end Around

/-- A value with one part left out: what stands around that, from the outside in. -/
abbrev Place := List Around

namespace Place

/-- Puts the part in. -/
def fill : Place → Json → Json
  | [], v => v
  | a :: p, v => a.fill (fill p v)

/-- The way from the whole to the part. -/
def path (p : Place) : List Step := p.map Around.step

end Place

/-- The step from an open array or object to what is being read of it. -/
def Frame.step : Frame → Step
  | .array items => .item items.length
  | .object _ key => .field key

/-- The way to what is being read. -/
def pathOf (stack : List Frame) : List Step := (stack.map Frame.step).reverse

theorem pathOf_cons (f : Frame) (stack : List Frame) :
    pathOf (f :: stack) = pathOf stack ++ [f.step] := by
  rw [pathOf, List.map_cons, List.reverse_cons]
  rfl

/-! ## 2. States that differ in one part -/

/-- What is done in step stays in step. -/
theorem rel_bind {α β γ δ : Type} {r : α → β → Prop} {s : γ → δ → Prop} {x : Option α}
    {y : Option β} {f : α → Option γ} {g : β → Option δ} (h : Option.Rel r x y)
    (hfg : ∀ a b, r a b → Option.Rel s (f a) (g b)) : Option.Rel s (x.bind f) (y.bind g) := by
  cases h with
  | none => exact .none
  | some h => exact hfg _ _ h

/-- Stacks that differ in one part, which is `v` in the one and `v'` in the other; `path` is the way
    to it. -/
inductive StackApart (v v' : Json) (path : List Step) : List Frame → List Frame → Prop where
  | item (later earlier : List Json) {p : Place} {stack : List Frame}
      (h : pathOf stack ++ .item earlier.length :: p.path = path) :
      StackApart v v' path (.array (later ++ p.fill v :: earlier) :: stack)
        (.array (later ++ p.fill v' :: earlier) :: stack)
  | field (later earlier : List (Option String × Json)) {k key : Option String} {p : Place}
      {stack : List Frame} (h : pathOf stack ++ .field k :: p.path = path) :
      StackApart v v' path (.object (later ++ (k, p.fill v) :: earlier) key :: stack)
        (.object (later ++ (k, p.fill v') :: earlier) key :: stack)
  | deeper (f : Frame) {stack stack' : List Frame} (h : StackApart v v' path stack stack') :
      StackApart v v' path (f :: stack) (f :: stack')

/-- States of the machine that differ in one part. -/
inductive Builder.Apart (v v' : Json) (path : List Step) : Builder → Builder → Prop where
  | here {p : Place} {stack : List Frame} (h : pathOf stack ++ p.path = path) :
      Apart v v' path (.settled (p.fill v) stack) (.settled (p.fill v') stack)
  | settled (w : Json) {stack stack' : List Frame} (h : StackApart v v' path stack stack') :
      Apart v v' path (.settled w stack) (.settled w stack')
  | value {stack stack' : List Frame} (h : StackApart v v' path stack stack') :
      Apart v v' path (.value stack) (.value stack')
  | firstItem {stack stack' : List Frame} (h : StackApart v v' path stack stack') :
      Apart v v' path (.firstItem stack) (.firstItem stack')
  | firstKey {stack stack' : List Frame} (h : StackApart v v' path stack stack') :
      Apart v v' path (.firstKey stack) (.firstKey stack')
  | key {fields fields' : List (Option String × Json)} {stack stack' : List Frame}
      (h : StackApart v v' path (.object fields none :: stack) (.object fields' none :: stack')) :
      Apart v v' path (.key fields stack) (.key fields' stack')
  | colon {fields fields' : List (Option String × Json)} {k : Option String}
      {stack stack' : List Frame}
      (h : StackApart v v' path (.object fields k :: stack) (.object fields' k :: stack')) :
      Apart v v' path (.colon fields k stack) (.colon fields' k stack')

section Apart

variable {v v' : Json} {path : List Step} {stack stack' : List Frame} {items items' : List Json}
  {fields fields' : List (Option String × Json)} {k : Option String}

namespace StackApart

/-- On top of either stack the same is open. -/
theorem frames (h : StackApart v v' path stack stack') :
    (∃ items items' rest rest', stack = .array items :: rest ∧ stack' = .array items' :: rest') ∨
      ∃ fields fields' k rest rest', stack = .object fields k :: rest ∧
        stack' = .object fields' k :: rest' := by
  cases h with
  | item later earlier h => exact .inl ⟨_, _, _, _, rfl, rfl⟩
  | field later earlier h => exact .inr ⟨_, _, _, _, _, rfl, rfl⟩
  | deeper f h =>
    cases f with
    | array items => exact .inl ⟨_, _, _, _, rfl, rfl⟩
    | object fields k => exact .inr ⟨_, _, _, _, _, rfl, rfl⟩

theorem push_item (h : StackApart v v' path (.array items :: stack) (.array items' :: stack'))
    (w : Json) : StackApart v v' path (.array (w :: items) :: stack)
      (.array (w :: items') :: stack') := by
  cases h with
  | item later earlier h => exact .item (w :: later) earlier h
  | deeper _ h => exact .deeper _ h

theorem push_field
    (h : StackApart v v' path (.object fields k :: stack) (.object fields' k :: stack'))
    (w : Json) (key : Option String) :
    StackApart v v' path (.object ((k, w) :: fields) key :: stack)
      (.object ((k, w) :: fields') key :: stack') := by
  cases h with
  | field later earlier h => exact .field ((k, w) :: later) earlier h
  | deeper _ h => exact .deeper _ h

/-- The name of the field that is being read does not matter yet. -/
theorem rekey (h : StackApart v v' path (.object fields k :: stack) (.object fields' k :: stack'))
    (key : Option String) :
    StackApart v v' path (.object fields key :: stack) (.object fields' key :: stack') := by
  cases h with
  | field later earlier h => exact .field later earlier h
  | deeper _ h => exact .deeper _ h

theorem close_array (h : StackApart v v' path (.array items :: stack) (.array items' :: stack'))
    (w : Json) : Builder.Apart v v' path (.settled (.array (w :: items).reverse) stack)
      (.settled (.array (w :: items').reverse) stack') := by
  cases h with
  | @item later earlier p _ h =>
    have hfill (u : Json) : Json.array (w :: (later ++ p.fill u :: earlier)).reverse =
        Place.fill (.items earlier.reverse (later.reverse ++ [w]) :: p) u := by
      simp [Place.fill, Around.fill]
    rw [hfill, hfill]
    refine .here (Eq.trans ?_ h)
    rw [Place.path, List.map_cons, Around.step, List.length_reverse]
    rfl
  | deeper _ h => exact .settled _ h

theorem close_object
    (h : StackApart v v' path (.object fields k :: stack) (.object fields' k :: stack'))
    (w : Json) : Builder.Apart v v' path (.settled (.object ((k, w) :: fields).reverse) stack)
      (.settled (.object ((k, w) :: fields').reverse) stack') := by
  cases h with
  | @field later earlier k' _ p _ h =>
    have hfill (u : Json) : Json.object ((k, w) :: (later ++ (k', p.fill u) :: earlier)).reverse =
        Place.fill (.fields earlier.reverse k' (later.reverse ++ [(k, w)]) :: p) u := by
      simp [Place.fill, Around.fill]
    rw [hfill, hfill]
    exact .here h
  | deeper _ h => exact .settled _ h

end StackApart

namespace Builder

theorem Apart.open? (h : StackApart v v' path stack stack') (t : Token) :
    Option.Rel (Apart v v' path) (Builder.open? stack t) (Builder.open? stack' t) := by
  cases t with
  | openObject => exact .some (.firstKey h)
  | openArray => exact .some (.firstItem h)
  | null | bool | number | string => exact .some (.settled _ h)
  | closeObject | closeArray | comma | colon => exact .none

/-- After a value that is the same in both, the difference stays where it is in the stack, or what
    it is in becomes a value. -/
theorem Apart.close? (h : StackApart v v' path stack stack') (w : Json) (t : Token) :
    Option.Rel (Apart v v' path) (Builder.close? w stack t) (Builder.close? w stack' t) := by
  rcases h.frames with ⟨items, items', rest, rest', rfl, rfl⟩ |
    ⟨fields, fields', k, rest, rest', rfl, rfl⟩
  · cases t with
    | comma => exact .some (.value (h.push_item w))
    | closeArray => exact .some (h.close_array w)
    | _ => exact .none
  · cases t with
    | comma => exact .some (.key (h.push_field w none))
    | closeObject => exact .some (h.close_object w)
    | _ => exact .none

/-- After the value that differs, it becomes a part of what is open. -/
theorem Apart.close?_here {p : Place} (h : pathOf stack ++ p.path = path) (t : Token) :
    Option.Rel (Apart v v' path) (Builder.close? (p.fill v) stack t)
      (Builder.close? (p.fill v') stack t) := by
  cases stack with
  | nil => exact .none
  | cons f stack =>
    rw [pathOf_cons, List.append_assoc, List.singleton_append] at h
    cases f with
    | array items =>
      cases t with
      | comma => exact .some (.value (.item [] items h))
      | closeArray =>
        have hfill (u : Json) : Json.array (p.fill u :: items).reverse =
            Place.fill (.items items.reverse [] :: p) u := by
          rw [List.reverse_cons]
          rfl
        show Option.Rel _ (some (Builder.settled (.array _) stack))
          (some (Builder.settled (.array _) stack))
        rw [hfill, hfill]
        refine .some (.here (Eq.trans ?_ h))
        rw [Place.path, List.map_cons, Around.step, List.length_reverse]
        rfl
      | _ => exact .none
    | object fields k =>
      cases t with
      | comma => exact .some (.key (.field [] fields h))
      | closeObject =>
        have hfill (u : Json) : Json.object ((k, p.fill u) :: fields).reverse =
            Place.fill (.fields fields.reverse k [] :: p) u := by
          rw [List.reverse_cons]
          rfl
        show Option.Rel _ (some (Builder.settled (.object _) stack))
          (some (Builder.settled (.object _) stack))
        rw [hfill, hfill]
        exact .some (.here h)
      | _ => exact .none

/-- **One word keeps the difference.** -/
theorem Apart.step {b b' : Builder} (h : Apart v v' path b b') (t : Token) :
    Option.Rel (Apart v v' path) (b.step t) (b'.step t) := by
  cases h with
  | here h => exact close?_here h t
  | settled w h => exact close? h w t
  | value h => exact open? h t
  | firstItem h =>
    have hfirst := Apart.open? (.deeper (.array []) h) t
    cases t with
    | closeArray => exact .some (.settled _ h)
    | _ => exact hfirst
  | firstKey h =>
    cases t with
    | closeObject => exact .some (.settled _ h)
    | string k => exact .some (.colon (.deeper (.object [] k) h))
    | _ => exact .none
  | key h =>
    cases t with
    | string k => exact .some (.colon (h.rekey k))
    | _ => exact .none
  | colon h =>
    cases t with
    | colon => exact .some (.value h)
    | _ => exact .none

theorem run_cons (b : Builder) (t : Token) (ts : List Token) :
    b.run (t :: ts) = (b.step t).bind fun b => b.run ts := by
  rw [run]
  cases b.step t <;> rfl

/-- **So do many.** -/
theorem Apart.run {b b' : Builder} (h : Apart v v' path b b') (ts : List Token) :
    Option.Rel (Apart v v' path) (b.run ts) (b'.run ts) := by
  induction ts generalizing b b' with
  | nil => exact .some h
  | cons t ts ih =>
    rw [run_cons, run_cons]
    exact rel_bind (h.step t) fun _ _ h => ih h

end Builder

/-- Two values that differ in one part. -/
def DifferAt (v v' : Json) (path : List Step) (j j' : Json) : Prop :=
  ∃ p : Place, p.path = path ∧ j = p.fill v ∧ j' = p.fill v'

theorem Builder.Apart.finish? {b b' : Builder} (h : Apart v v' path b b') :
    Option.Rel (DifferAt v v' path) b.finish? b'.finish? := by
  cases h with
  | @here p stack h =>
    cases stack with
    | nil => exact .some ⟨p, h, rfl, rfl⟩
    | cons f stack => exact .none
  | settled w h =>
    rcases h.frames with ⟨_, _, _, _, rfl, rfl⟩ | ⟨_, _, _, _, _, rfl, rfl⟩
    · exact .none
    · exact .none
  | value | firstItem | firstKey | key | colon => exact .none

end Apart

/-! ## 3. Words in the middle of a text -/

namespace Lexer

/-- The machine with further words found before its own. -/
def under (ts : List Token) (l : Lexer) : Lexer := ⟨l.found ++ ts.reverse, l.mode⟩

variable (ts : List Token) (l : Lexer)

theorem idleStep_under (c : Char) : (l.under ts).idleStep c = (l.idleStep c).map (under ts) := by
  simp only [idleStep, apply_ite (Option.map (under ts)), Option.map_map]
  rfl

/-- **What was found before plays no part in reading a character.** -/
theorem step_under (c : Char) : (l.under ts).step c = (l.step c).map (under ts) := by
  obtain ⟨found, mode⟩ := l
  cases mode with
  | idle => exact idleStep_under ts _ c
  | text t =>
    show (if c = '"' then _ else if c = '\\' then _ else if c.toNat < 0x20 then _ else _) =
      Option.map _ (if c = '"' then _ else if c = '\\' then _ else if c.toNat < 0x20 then _ else _)
    split_ifs <;> rfl
  | escape t =>
    show (if c = 'u' then _ else Option.map _ _) = Option.map _ (if c = 'u' then _ else Option.map _ _)
    split_ifs
    · rfl
    · rw [Option.map_map]
      rfl
  | code t left unit =>
    show Option.map _ _ = Option.map _ (Option.map _ _)
    rw [Option.map_map]
    cases left <;> rfl
  | numeral n =>
    simp only [step, under]
    cases n.push? c with
    | some m => rfl
    | none =>
      cases n.finish? with
      | none => rfl
      | some m => exact idleStep_under ts (emit ⟨found, .numeral n⟩ (.number m)) c
  | word rest token =>
    rcases rest with _ | ⟨e, _ | ⟨e', rest⟩⟩
    · rfl
    · show (if c = e then _ else _) = Option.map _ (if c = e then _ else _)
      split_ifs <;> rfl
    · show (if c = e then _ else _) = Option.map _ (if c = e then _ else _)
      split_ifs <;> rfl

theorem run_under (cs : List Char) : (l.under ts).run cs = (l.run cs).map (under ts) := by
  induction cs generalizing l with
  | nil => rfl
  | cons c cs ih =>
    rw [run, run, step_under]
    cases l.step c with
    | none => rfl
    | some l => exact ih l

theorem finish?_under : (l.under ts).finish? = l.finish?.map (ts ++ ·) := by
  obtain ⟨found, mode⟩ := l
  cases mode with
  | idle => simp [finish?, under]
  | numeral n =>
    unfold finish? under
    rw [Option.map_map]
    refine congrFun (congrArg Option.map (funext fun n => ?_)) n.finish?
    simp
  | text | escape | code | word => rfl

/-- The words of what follows come after the words that were read. -/
theorem words_after (cs : List Char) :
    ((after ts).run cs).bind finish? = (tokens? cs).map (ts ++ ·) := by
  rw [show after ts = init.under ts from rfl, run_under, tokens?]
  cases init.run cs with
  | none => rfl
  | some l => exact finish?_under ts l

end Lexer

/-- Before `post`, a piece of text is the given words. -/
def Stands (xs post : List Char) (us : List Token) : Prop :=
  ∀ ts, ((after ts).run (xs ++ post)).bind Lexer.finish? =
    ((after (ts ++ us)).run post).bind Lexer.finish?

theorem Reads.stands {xs : List Char} {us : List Token} (h : Reads xs us) (post : List Char) :
    Stands xs post us := by
  intro ts
  rw [Lexer.run_append_of_eq (h ts)]

theorem Settles.stands {xs post : List Char} {us : List Token} (h : Settles xs us)
    (hpost : ∀ c ∈ post.head?, Lexer.goesOn c = false) : Stands xs post us := by
  intro ts
  obtain ⟨l, hrun, hrests⟩ := h ts
  rw [Lexer.run_append_of_eq hrun]
  cases post with
  | nil => exact hrests.finish.trans (Lexer.rests_after _).finish.symm
  | cons c cs => rw [Lexer.run, Lexer.run, hrests.step c (hpost c rfl)]

/-! ## 4. Texts that differ in one value -/

/-- The way to the value that comes next in a text; `none` in the middle of a word, and where no
    value may come. -/
def nextValue? (pre : List Char) : Option (List Step) :=
  match Lexer.init.run pre with
  | some ⟨found, .idle⟩ =>
    match Builder.init.run found.reverse with
    | some (.value stack) => some (pathOf stack)
    | _ => none
  | _ => none

theorem exists_stack_of_nextValue? {pre : List Char} {path : List Step}
    (h : nextValue? pre = some path) : ∃ ts stack, Lexer.init.run pre = some (after ts) ∧
      Builder.init.run ts = some (.value stack) ∧ pathOf stack = path := by
  unfold nextValue? at h
  split at h
  · rename_i found hrun
    split at h
    · rename_i stack hstack
      rw [← found.reverse_reverse] at hrun
      exact ⟨found.reverse, stack, hrun, hstack, Option.some.inj h⟩
    · cases h
  · cases h

/-- A word that is a value of its own. -/
def Token.IsValue (t : Token) (v : Json) : Prop :=
  ∀ stack, Builder.open? stack t = some (.settled v stack)

theorem parse?_of_stands {text : String} {pre xs post : List Char} {ts : List Token} {t : Token}
    {v : Json} {stack : List Frame} (htext : text.toList = pre ++ (xs ++ post))
    (hpre : Lexer.init.run pre = some (after ts)) (hts : Builder.init.run ts = some (.value stack))
    (hxs : Stands xs post [t]) (ht : t.IsValue v) :
    parse? text = (tokens? post).bind fun us =>
      ((Builder.settled v stack).run us).bind Builder.finish? := by
  have htokens : tokens? text.toList = (tokens? post).map (ts ++ [t] ++ ·) := by
    rw [htext, tokens?, Lexer.run_append_of_eq hpre, hxs ts, Lexer.words_after]
  rw [parse?, htokens, Option.bind_map]
  refine congrArg (Option.bind _) (funext fun us => ?_)
  have hopen : (Builder.value stack).step t = some (.settled v stack) := ht stack
  rw [Function.comp_apply, ofTokens?, List.append_assoc, Builder.run_append_of_eq hts,
    List.singleton_append, Builder.run_cons, hopen, Option.bind_some]

/-- **Two texts that differ in one value are read as values that differ in that place**, or both
    cannot be read. -/
theorem parse?_place {text text' : String} {pre xs xs' post : List Char} {path : List Step}
    {t t' : Token} {v v' : Json} (hpre : nextValue? pre = some path)
    (htext : text.toList = pre ++ (xs ++ post)) (htext' : text'.toList = pre ++ (xs' ++ post))
    (hxs : Stands xs post [t]) (hxs' : Stands xs' post [t']) (ht : t.IsValue v)
    (ht' : t'.IsValue v') :
    Option.Rel (DifferAt v v' path) (parse? text) (parse? text') := by
  obtain ⟨ts, stack, hrun, hstack, hpath⟩ := exists_stack_of_nextValue? hpre
  have hstart : Builder.Apart v v' path (.settled v stack) (.settled v' stack) :=
    .here (p := []) ((List.append_nil _).trans hpath)
  rw [parse?_of_stands htext hrun hstack hxs ht, parse?_of_stands htext' hrun hstack hxs' ht']
  cases tokens? post with
  | none => exact .none
  | some us =>
    rw [Option.bind_some, Option.bind_some]
    exact rel_bind (hstart.run us) fun _ _ h => h.finish?

end Recast.Json
