import Mathlib.Data.List.Sort

/-!
# Lists with a key

Files are kept in the order of their paths, records in that of their descriptions, and the pairs of
a correspondence differ on either side. In each of these lists the elements differ in a key.

* `eq_of_key_eq`: the key tells the elements apart;
* `find?_key_eq_some_iff`: a lookup by key finds the one element that has it;
* `eq_of_mem_iff_of_sorted`: lists in the order of a key are equal when they have the same members;
* `eq_of_perm_of_increasing`: so are permutations of each other in the order of a number;
* `mergeSort_key_eq`: sorting by a key gives the arrangement in which the keys increase.
-/

namespace Recast

variable {α κ : Type} {key : α → κ} {as : List α}

theorem eq_of_key_eq (h : as.Pairwise fun a b => key a ≠ key b) {a b : α} (ha : a ∈ as)
    (hb : b ∈ as) (he : key a = key b) : a = b :=
  List.inj_on_of_nodup_map (List.pairwise_map.2 h) ha hb he

/-- **A lookup by key finds the one element that has it.** -/
theorem find?_key_eq_some_iff [BEq κ] [LawfulBEq κ] (h : as.Pairwise fun a b => key a ≠ key b)
    {k : κ} {a : α} : as.find? (fun b => key b == k) = some a ↔ a ∈ as ∧ key a = k := by
  constructor
  · intro hfind
    exact ⟨List.mem_of_find?_eq_some hfind, by simpa using List.find?_some hfind⟩
  · rintro ⟨ha, hk⟩
    cases hfind : as.find? (fun b => key b == k) with
    | none => exact absurd (beq_iff_eq.2 hk) (List.find?_eq_none.1 hfind a ha)
    | some b =>
      have hb : key b = k := by simpa using List.find?_some hfind
      rw [eq_of_key_eq h (List.mem_of_find?_eq_some hfind) ha (hb.trans hk.symm)]

/-- **Lists in the order of a key are equal when they have the same members.** -/
theorem eq_of_mem_iff_of_sorted {key : α → String} {as bs : List α}
    (ha : as.Pairwise fun a b => key a < key b) (hb : bs.Pairwise fun a b => key a < key b)
    (h : ∀ a, a ∈ as ↔ a ∈ bs) : as = bs := by
  have : Std.Irrefl fun a b : α => key a < key b := ⟨fun _ => String.lt_irrefl _⟩
  have : Std.Antisymm fun a b : α => key a < key b :=
    ⟨fun _ _ hab hba => absurd (String.lt_trans hab hba) (String.lt_irrefl _)⟩
  exact ha.eq_of_mem_iff hb h

/-- Lists in which a number increases are equal when one permutes the other. -/
theorem eq_of_perm_of_increasing {key : α → Nat} {as bs : List α}
    (ha : as.Pairwise fun a b => key a < key b) (hb : bs.Pairwise fun a b => key a < key b)
    (h : as.Perm bs) : as = bs :=
  h.eq_of_pairwise (fun _ _ _ _ hlt hgt => absurd hlt (Nat.lt_asymm hgt)) ha hb

/-- **Sorting by a key gives the one arrangement in which the keys increase.** -/
theorem mergeSort_key_eq {key : α → Nat} {as bs : List α} (hp : as.Perm bs)
    (hb : bs.Pairwise fun a b => key a < key b) :
    (as.mergeSort fun a b => key a ≤ key b) = bs := by
  have hperm : (as.mergeSort fun a b => key a ≤ key b).Perm bs := (List.mergeSort_perm _ _).trans hp
  have hsorted : (as.mergeSort fun a b => key a ≤ key b).Pairwise
      fun a b => decide (key a ≤ key b) = true := by
    refine List.pairwise_mergeSort (fun a b c hab hbc => ?_) (fun a b => ?_) _
    · exact decide_eq_true (Nat.le_trans (of_decide_eq_true hab) (of_decide_eq_true hbc))
    · rw [← Bool.decide_or]
      exact decide_eq_true (Nat.le_total (key a) (key b))
  have hle : bs.Pairwise fun a b => decide (key a ≤ key b) = true :=
    hb.imp fun hlt => decide_eq_true (Nat.le_of_lt hlt)
  have hne : bs.Pairwise fun a b => key a ≠ key b := hb.imp fun hlt => Nat.ne_of_lt hlt
  refine List.Perm.eq_of_pairwise (fun a b ha hb hab hba => ?_) hsorted hle hperm
  have hkey : key a = key b :=
    Nat.le_antisymm (of_decide_eq_true hab) (of_decide_eq_true hba)
  exact eq_of_key_eq hne (hperm.subset ha) hb hkey

end Recast
