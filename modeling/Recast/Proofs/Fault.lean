import Mathlib.Data.List.Induction
import Recast.Fault

/-!
# Computations that stop at a fault

What `gather` does to a whole list follows from what its function does to each element:

* `exists_gather`: it succeeds when every element does;
* `mem_gather`, `pairwise_gather`: what it keeps is what the elements give, in their order;
* `gather_map`, `gather_perm`: it follows the elements through a renaming and a rearrangement;
* `gather_append`: it goes through one list after the other;
* `gather_filter`, `gather_sublist`: elements that give nothing do not count, and fewer elements
  give no more;
* `gather_andThen`, `countP_gather`: what is found is looked at in a second pass, or counted, as if
  that was done on the way;
* `fits_or_first`, `settled`: when elements are checked from the left, everything fits or there is a
  first one that does not, and that decides how the check ends.
-/

namespace Recast

variable {α β γ δ : Type}

/-- Peels the first step off a computation that succeeds. -/
theorem bind_eq_ok {ε : Type} {x : Except ε α} {f : α → Except ε β} {b : β} :
    x >>= f = .ok b ↔ ∃ a, x = .ok a ∧ f a = .ok b := by
  cases x with
  | error e =>
    constructor
    · intro h
      cases h
    · rintro ⟨a, ha, -⟩
      cases ha
  | ok a =>
    constructor
    · intro h
      exact ⟨a, rfl, h⟩
    · rintro ⟨a', ha, h⟩
      cases ha
      exact h

/-- A computation without an answer stops at its first step or after it. -/
theorem bind_eq_error {ε : Type} {x : Except ε α} {f : α → Except ε β} {e : ε} :
    x >>= f = .error e ↔ x = .error e ∨ ∃ a, x = .ok a ∧ f a = .error e := by
  cases x with
  | error e' =>
    constructor
    · intro h
      cases h
      exact .inl rfl
    · rintro (h | ⟨a, ha, -⟩)
      · cases h
        rfl
      · cases ha
  | ok a =>
    constructor
    · intro h
      exact .inr ⟨a, rfl, h⟩
    · rintro (h | ⟨a', ha, h⟩)
      · cases h
      · cases ha
        exact h

theorem map_eq_ok {ε : Type} {x : Except ε α} {f : α → β} {b : β} :
    x.map f = .ok b ↔ ∃ a, x = .ok a ∧ f a = b := by
  cases x with
  | error e =>
    constructor
    · intro h
      cases h
    · rintro ⟨a, ha, -⟩
      cases ha
  | ok a => simp [Except.map]

theorem mapError_eq_ok {ε ε' : Type} {x : Except ε α} {f : ε → ε'} {a : α} :
    x.mapError f = .ok a ↔ x = .ok a := by
  cases x with
  | error e =>
    constructor
    · intro h
      cases h
    · intro h
      cases h
  | ok b =>
    constructor
    · intro h
      cases h
      rfl
    · intro h
      cases h
      rfl

theorem exists_of_isOk {ε : Type} {x : Except ε α} (h : x.isOk = true) : ∃ a, x = .ok a := by
  cases x with
  | error e => cases h
  | ok a => exact ⟨a, rfl⟩

theorem eq_ok_of_toOption {ε : Type} {x : Except ε α} {a : α} (h : x.toOption = some a) :
    x = .ok a := by
  cases x with
  | error e => cases h
  | ok b =>
    cases h
    rfl

theorem attempt_eq_some {o : Option (Except Fault α)} {a : α} :
    attempt o = .ok (some a) ↔ o = some (.ok a) := by
  cases o with
  | none => simp [attempt]
  | some x => cases x <;> simp [attempt, Except.map]

/-! ## 1. Success -/

theorem gather_cons_none {f : α → Except Fault (Option β)} {a : α} {as : List α}
    (h : f a = .ok none) : gather f (a :: as) = gather f as := by
  rw [gather, h]

theorem gather_cons_some {f : α → Except Fault (Option β)} {a : α} {b : β} {as : List α}
    (h : f a = .ok (some b)) : gather f (a :: as) = (gather f as).map (b :: ·) := by
  rw [gather, h]

/-- Every element gives an answer when the whole list does. -/
theorem gather_eq_ok_cons {f : α → Except Fault (Option β)} {a : α} {as : List α} {bs : List β}
    (h : gather f (a :: as) = .ok bs) :
    (f a = .ok none ∧ gather f as = .ok bs) ∨
      ∃ b cs, f a = .ok (some b) ∧ gather f as = .ok cs ∧ bs = b :: cs := by
  cases hf : f a with
  | error e =>
    rw [gather, hf] at h
    cases h
  | ok o =>
    cases o with
    | none =>
      rw [gather_cons_none hf] at h
      exact .inl ⟨rfl, h⟩
    | some b =>
      rw [gather_cons_some hf, map_eq_ok] at h
      obtain ⟨cs, hcs, rfl⟩ := h
      exact .inr ⟨b, cs, rfl, hcs, rfl⟩

/-- **A list is gathered without a fault when each of its elements is.** -/
theorem exists_gather {f : α → Except Fault (Option β)} {as : List α}
    (h : ∀ a ∈ as, ∃ o, f a = .ok o) : ∃ bs, gather f as = .ok bs := by
  induction as with
  | nil => exact ⟨[], rfl⟩
  | cons a as ih =>
    obtain ⟨bs, hbs⟩ := ih fun a' ha' => h a' (List.mem_cons_of_mem _ ha')
    obtain ⟨o, ho⟩ := h a List.mem_cons_self
    cases o with
    | none => exact ⟨bs, by rw [gather_cons_none ho, hbs]⟩
    | some b => exact ⟨b :: bs, by rw [gather_cons_some ho, hbs]; rfl⟩

/-- **What is gathered is what the elements give.** -/
theorem mem_gather {f : α → Except Fault (Option β)} {as : List α} {bs : List β}
    (h : gather f as = .ok bs) {b : β} : b ∈ bs ↔ ∃ a ∈ as, f a = .ok (some b) := by
  induction as generalizing bs with
  | nil =>
    cases h
    simp
  | cons a as ih =>
    rcases gather_eq_ok_cons h with ⟨hnone, hbs⟩ | ⟨b', cs, hsome, hcs, rfl⟩
    · rw [ih hbs]
      simp [hnone]
    · rw [List.mem_cons, ih hcs]
      simp [hsome, eq_comm]

/-- Findings stand in the order of the elements they come from. -/
theorem pairwise_gather {f : α → Except Fault (Option β)} {R : α → α → Prop} {S : β → β → Prop}
    (hS : ∀ a a' b b', R a a' → f a = .ok (some b) → f a' = .ok (some b') → S b b') {as : List α}
    (has : as.Pairwise R) {bs : List β} (h : gather f as = .ok bs) : bs.Pairwise S := by
  induction has generalizing bs with
  | nil =>
    cases h
    exact .nil
  | @cons a as ha _ ih =>
    rcases gather_eq_ok_cons h with ⟨-, hbs⟩ | ⟨b, cs, hsome, hcs, rfl⟩
    · exact ih hbs
    · refine List.pairwise_cons.2 ⟨fun b' hb' => ?_, ih hcs⟩
      obtain ⟨a', ha', hsome'⟩ := (mem_gather hcs).1 hb'
      exact hS a a' b b' (ha a' ha') hsome hsome'

theorem gather_eq_nil {f : α → Except Fault (Option β)} {as : List α}
    (h : ∀ a ∈ as, f a = .ok none) : gather f as = .ok [] := by
  induction as with
  | nil => rfl
  | cons a as ih =>
    obtain ⟨ha, has⟩ := List.forall_mem_cons.1 h
    rw [gather_cons_none ha, ih has]

/-! ## 2. Renaming and rearranging -/

/-- Gathering from renamed elements gives renamed findings. -/
theorem gather_map {f : α → Except Fault (Option β)} {g : γ → Except Fault (Option δ)}
    {p : α → γ} {q : β → δ} {as : List α} (h : ∀ a ∈ as, g (p a) = (f a).map (Option.map q)) :
    gather g (as.map p) = (gather f as).map (List.map q) := by
  induction as with
  | nil => rfl
  | cons a as ih =>
    have ih' := ih fun a' ha' => h a' (List.mem_cons_of_mem _ ha')
    have ha := h a List.mem_cons_self
    rw [List.map_cons]
    cases hf : f a with
    | error e =>
      rw [hf] at ha
      rw [gather, gather, hf, ha]
      rfl
    | ok o =>
      rw [hf] at ha
      cases o with
      | none => rw [gather_cons_none hf, gather_cons_none ha, ih']
      | some b =>
        rw [gather_cons_some hf, gather_cons_some (b := q b) ha, ih']
        cases gather f as <;> rfl

/-- Elements that are renamed without a trace give the same findings. -/
theorem gather_map_same {f : α → Except Fault (Option β)} {g : γ → Except Fault (Option β)}
    {p : α → γ} {as : List α} (h : ∀ a ∈ as, g (p a) = f a) :
    gather g (as.map p) = gather f as := by
  induction as with
  | nil => rfl
  | cons a as ih =>
    rw [List.map_cons, gather, gather, h a List.mem_cons_self,
      ih fun a' ha' => h a' (List.mem_cons_of_mem _ ha')]

theorem gather_congr {f g : α → Except Fault (Option β)} {as : List α} (h : ∀ a ∈ as, f a = g a) :
    gather f as = gather g as := by
  have hsame := gather_map_same (p := id) h
  rwa [List.map_id] at hsame

/-- What two lists give together is what they give one after the other. -/
theorem gather_append {f : α → Except Fault (Option β)} {as as' : List α} {bs : List β}
    (h : gather f (as ++ as') = .ok bs) :
    ∃ cs cs', gather f as = .ok cs ∧ gather f as' = .ok cs' ∧ bs = cs ++ cs' := by
  induction as generalizing bs with
  | nil => exact ⟨[], bs, rfl, h, rfl⟩
  | cons a as ih =>
    rcases gather_eq_ok_cons h with ⟨hnone, hbs⟩ | ⟨b, ds, hsome, hds, rfl⟩
    · obtain ⟨cs, cs', hcs, hcs', rfl⟩ := ih hbs
      exact ⟨cs, cs', by rw [gather_cons_none hnone, hcs], hcs', rfl⟩
    · obtain ⟨cs, cs', hcs, hcs', rfl⟩ := ih hds
      exact ⟨b :: cs, cs', by rw [gather_cons_some hsome, hcs]; rfl, hcs', rfl⟩

/-- Gathering from rearranged elements gives rearranged findings. -/
theorem gather_perm {f : α → Except Fault (Option β)} {as as' : List α} (hp : as.Perm as')
    {bs : List β} (h : gather f as = .ok bs) : ∃ bs', gather f as' = .ok bs' ∧ bs.Perm bs' := by
  induction hp generalizing bs with
  | nil => exact ⟨bs, h, .refl _⟩
  | cons a _ ih =>
    rcases gather_eq_ok_cons h with ⟨hnone, hbs⟩ | ⟨b, cs, hsome, hcs, rfl⟩
    · obtain ⟨bs', hbs', hperm⟩ := ih hbs
      exact ⟨bs', by rw [gather_cons_none hnone, hbs'], hperm⟩
    · obtain ⟨cs', hcs', hperm⟩ := ih hcs
      exact ⟨b :: cs', by rw [gather_cons_some hsome, hcs']; rfl, hperm.cons b⟩
  | swap a a' as =>
    rcases gather_eq_ok_cons h with ⟨h₁, hrest⟩ | ⟨b, cs, h₁, hrest, rfl⟩ <;>
      rcases gather_eq_ok_cons hrest with ⟨h₂, hds⟩ | ⟨b', ds, h₂, hds, rfl⟩
    · exact ⟨_, by rw [gather_cons_none h₂, gather_cons_none h₁, hds], .refl _⟩
    · exact ⟨_, by rw [gather_cons_some h₂, gather_cons_none h₁, hds]; rfl, .refl _⟩
    · exact ⟨_, by rw [gather_cons_none h₂, gather_cons_some h₁, hds]; rfl, .refl _⟩
    · exact ⟨b' :: b :: ds, by rw [gather_cons_some h₂, gather_cons_some h₁, hds]; rfl, .swap _ _ _⟩
  | trans _ _ ih₁ ih₂ =>
    obtain ⟨bs₁, h₁, p₁⟩ := ih₁ h
    obtain ⟨bs₂, h₂, p₂⟩ := ih₂ h₁
    exact ⟨bs₂, h₂, p₁.trans p₂⟩

/-! ## 3. Leaving elements out -/

/-- Elements that give nothing may be left out. -/
theorem gather_filter {f : α → Except Fault (Option β)} {p : α → Bool}
    (h : ∀ a, p a = false → f a = .ok none) (as : List α) :
    gather f (as.filter p) = gather f as := by
  induction as with
  | nil => rfl
  | cons a as ih =>
    cases hp : p a with
    | true => rw [List.filter_cons_of_pos hp, gather, gather, ih]
    | false => rw [List.filter_cons_of_neg (by simp [hp]), ih, gather_cons_none (h a hp)]

/-- Fewer elements give no fault that more do not, and what they give is part of it. -/
theorem gather_sublist {f : α → Except Fault (Option β)} {as as' : List α} (hs : as.Sublist as')
    {bs' : List β} (h : gather f as' = .ok bs') : ∃ bs, gather f as = .ok bs ∧ bs.Sublist bs' := by
  induction hs generalizing bs' with
  | slnil => exact ⟨bs', h, .refl _⟩
  | cons a _ ih =>
    rcases gather_eq_ok_cons h with ⟨-, hrest⟩ | ⟨b, cs, -, hrest, rfl⟩
    · exact ih hrest
    · obtain ⟨bs, hbs, hsub⟩ := ih hrest
      exact ⟨bs, hbs, hsub.cons b⟩
  | cons_cons a _ ih =>
    rcases gather_eq_ok_cons h with ⟨hnone, hrest⟩ | ⟨b, cs, hsome, hrest, rfl⟩
    · obtain ⟨bs, hbs, hsub⟩ := ih hrest
      exact ⟨bs, by rw [gather_cons_none hnone, hbs], hsub⟩
    · obtain ⟨bs, hbs, hsub⟩ := ih hrest
      exact ⟨b :: bs, by rw [gather_cons_some hsome, hbs]; rfl, hsub.cons_cons b⟩

/-! ## 4. Two passes -/

/-- What `g` says of that which `f` finds. -/
def andThen (f : α → Except Fault (Option β)) (g : β → Except Fault (Option γ)) (a : α) :
    Except Fault (Option γ) :=
  match f a with
  | .error e => .error e
  | .ok none => .ok none
  | .ok (some b) => g b

/-- A second pass over the findings is one pass over the elements. -/
theorem gather_andThen {f : α → Except Fault (Option β)} (g : β → Except Fault (Option γ))
    {as : List α} {bs : List β} (h : gather f as = .ok bs) :
    gather (andThen f g) as = gather g bs := by
  induction as generalizing bs with
  | nil =>
    cases h
    rfl
  | cons a as ih =>
    rcases gather_eq_ok_cons h with ⟨hnone, hbs⟩ | ⟨b, cs, hsome, hcs, rfl⟩
    · have ha : andThen f g a = .ok none := by rw [andThen, hnone]
      rw [gather_cons_none ha, ih hbs]
    · have ha : andThen f g a = g b := by rw [andThen, hsome]
      rw [gather, gather, ha, ih hcs]

/-- Whether `f` finds something with a property. -/
def finds (f : α → Except Fault (Option β)) (p : β → Bool) (a : α) : Bool :=
  match f a with
  | .ok (some b) => p b
  | _ => false

/-- Findings are counted by the elements they come from. -/
theorem countP_gather {f : α → Except Fault (Option β)} (p : β → Bool) {as : List α} {bs : List β}
    (h : gather f as = .ok bs) : bs.countP p = as.countP (finds f p) := by
  induction as generalizing bs with
  | nil =>
    cases h
    rfl
  | cons a as ih =>
    rcases gather_eq_ok_cons h with ⟨hnone, hbs⟩ | ⟨b, cs, hsome, hcs, rfl⟩
    · have ha : finds f p a = false := by rw [finds, hnone]
      rw [List.countP_cons, ha, ih hbs]
      rfl
    · have ha : finds f p a = p b := by rw [finds, hsome]
      rw [List.countP_cons, List.countP_cons, ha, ih hcs]

/-! ## 5. First mistakes -/

/-- Read from the left, a list fits or there is a first element with which it no longer does. -/
theorem fits_or_first (fits : List α → Prop) (hnil : fits []) (l : List α) :
    fits l ∨ ∃ done x todo, l = done ++ x :: todo ∧ fits done ∧ ¬ fits (done ++ [x]) := by
  induction l using List.reverseRecOn with
  | nil => exact .inl hnil
  | append_singleton l a ih =>
    rcases ih with hl | ⟨done, x, todo, rfl, hdone, hx⟩
    · by_cases ha : fits (l ++ [a])
      · exact .inl ha
      · exact .inr ⟨l, a, [], rfl, hl, ha⟩
    · refine .inr ⟨done, x, todo ++ [a], ?_, hdone, hx⟩
      rw [List.append_assoc, List.cons_append]

/-- The same for a property of single elements. -/
theorem forall_or_first (p : α → Prop) (l : List α) :
    (∀ x ∈ l, p x) ∨ ∃ done x todo, l = done ++ x :: todo ∧ (∀ y ∈ done, p y) ∧ ¬ p x := by
  have hnil : ∀ x ∈ ([] : List α), p x := fun x hx => absurd hx List.not_mem_nil
  rcases fits_or_first (fun l => ∀ x ∈ l, p x) hnil l with h | ⟨done, x, todo, hl, hdone, hx⟩
  · exact .inl h
  · refine .inr ⟨done, x, todo, hl, hdone, fun hpx => hx fun y hy => ?_⟩
    rcases List.mem_append.1 hy with hy | hy
    · exact hdone y hy
    · rw [List.mem_singleton.1 hy]
      exact hpx

/-- A computation is settled once it is known what makes it succeed, what makes it fail, and that
    there is nothing else. -/
theorem settled {ε : Type} {x : Except ε α} {valid : Prop} {first : ε → Prop}
    (hvalid : valid → ∃ a, x = .ok a) (hfirst : ∀ e, first e → x = .error e)
    (hcases : valid ∨ ∃ e, first e) :
    ((∃ a, x = .ok a) ↔ valid) ∧ ∀ e, x = .error e ↔ first e := by
  rcases hcases with hv | ⟨e', he'⟩
  · obtain ⟨a, ha⟩ := hvalid hv
    refine ⟨⟨fun _ => hv, hvalid⟩, fun e => ⟨fun he => ?_, hfirst e⟩⟩
    rw [ha] at he
    cases he
  · have hx := hfirst e' he'
    refine ⟨⟨?_, hvalid⟩, fun e => ⟨fun he => ?_, hfirst e⟩⟩
    · rintro ⟨a, ha⟩
      rw [hx] at ha
      cases ha
    · rw [hx] at he
      cases he
      exact he'

end Recast
