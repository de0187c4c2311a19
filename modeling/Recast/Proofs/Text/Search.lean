import Recast.Text.Search

/-!
# Searches find what is there

A search for a run of characters finds an occurrence when there is one, and the first of them; what
is taken off the ends of a run stood there.

* `offsetFrom?_eq_some`, `offsetOf?_eq_some`: what is found is an occurrence;
* `exists_offsetFrom?`: **something is found when there is an occurrence, and no later than it**;
* `isSome_offsetOf?_iff`: a search finds what occurs;
* `trim_isInfix`, `dropFront?_eq_some`, `dropBack?_eq_some`: the ends of a run.
-/

namespace Recast.Text

/-! ## 1. Occurrences -/

/-- The first occurrence is one. -/
theorem offsetFrom?_eq_some {needle cs : List Char} {n k : Nat}
    (h : offsetFrom? needle n cs = some k) :
    ∃ before after, cs = before ++ (needle ++ after) ∧ k = n + bytes before := by
  induction cs generalizing n with
  | nil =>
    obtain ⟨hneedle, hk⟩ := Option.ite_none_right_eq_some.1 h
    rw [List.isEmpty_iff] at hneedle
    exact ⟨[], [], by rw [hneedle]; rfl, (Option.some.inj hk).symm⟩
  | cons c cs ih =>
    rw [offsetFrom?] at h
    split at h
    · rename_i hlead
      obtain ⟨after, hafter⟩ := List.isPrefixOf_iff_prefix.1 hlead
      exact ⟨[], after, hafter.symm, (Option.some.inj h).symm⟩
    · obtain ⟨before, after, hcs, hk⟩ := ih h
      refine ⟨c :: before, after, by rw [hcs]; rfl, ?_⟩
      rw [hk, bytes_cons, Nat.add_assoc]

theorem offsetOf?_eq_some {needle cs : List Char} {k : Nat} (h : offsetOf? needle cs = some k) :
    ∃ before after, cs = before ++ (needle ++ after) ∧ k = bytes before := by
  obtain ⟨before, after, hcs, hk⟩ := offsetFrom?_eq_some h
  exact ⟨before, after, hcs, by rw [hk, Nat.zero_add]⟩

/-- **The first occurrence** of a text is no later than any other, and what comes after the other
    still comes after it. -/
theorem exists_offsetFrom? {needle cs before after : List Char} (n : Nat)
    (h : cs = before ++ (needle ++ after)) :
    ∃ front back, offsetFrom? needle n cs = some (n + bytes front) ∧
      cs = front ++ (needle ++ back) ∧ after <:+ back := by
  induction before generalizing cs n with
  | nil =>
    refine ⟨[], after, ?_, h, List.suffix_rfl⟩
    have hlead : needle.isPrefixOf cs = true :=
      List.isPrefixOf_iff_prefix.2 ⟨after, by rw [h, List.nil_append]⟩
    cases cs with
    | nil =>
      have hneedle : needle = [] := List.prefix_nil.1 (List.isPrefixOf_iff_prefix.1 hlead)
      rw [offsetFrom?, hneedle]
      rfl
    | cons c cs =>
      rw [offsetFrom?, if_pos hlead]
      rfl
  | cons c before ih =>
    subst h
    rw [List.cons_append, offsetFrom?]
    split
    · rename_i hlead
      obtain ⟨back, hback⟩ := List.isPrefixOf_iff_prefix.1 hlead
      refine ⟨[], back, rfl, hback.symm, ?_⟩
      have hafter : after <:+ needle ++ back := by
        rw [hback]
        exact ⟨c :: (before ++ needle), by simp⟩
      refine List.suffix_of_suffix_length_le hafter (List.suffix_append needle back) ?_
      have hlength := congrArg List.length hback
      simp only [List.length_append, List.length_cons] at hlength
      omega
    · obtain ⟨front, back, hfind, hcs, hafter⟩ := ih (n + c.utf8Size) rfl
      refine ⟨c :: front, back, ?_, by rw [hcs]; rfl, hafter⟩
      rw [hfind, bytes_cons, Nat.add_assoc]

theorem isSome_offsetOf?_iff {needle cs : List Char} :
    (offsetOf? needle cs).isSome = true ↔ needle <:+: cs := by
  rw [Option.isSome_iff_exists]
  constructor
  · rintro ⟨k, hk⟩
    obtain ⟨before, after, rfl, -⟩ := offsetOf?_eq_some hk
    exact ⟨before, after, List.append_assoc ..⟩
  · rintro ⟨before, after, rfl⟩
    obtain ⟨front, -, hfind, -⟩ := exists_offsetFrom? 0 (List.append_assoc before needle after)
    exact ⟨_, hfind⟩

/-! ## 2. Ends -/

theorem trimEnd_isPrefix (cs : List Char) : trimEnd cs <+: cs := by
  have h := List.dropWhile_suffix isBlank (l := cs.reverse)
  rwa [← List.reverse_prefix, List.reverse_reverse] at h

theorem trim_isInfix (cs : List Char) : trim cs <:+: cs :=
  (trimEnd_isPrefix _).isInfix.trans (List.dropWhile_suffix _).isInfix

theorem dropFront?_eq_some {pre cs rest : List Char} (h : dropFront? pre cs = some rest) :
    cs = pre ++ rest := by
  obtain ⟨hpre, h⟩ := Option.ite_none_right_eq_some.1 h
  obtain ⟨tail, rfl⟩ := List.isPrefixOf_iff_prefix.1 hpre
  rw [← Option.some.inj h, List.drop_left]

theorem dropBack?_eq_some {post cs rest : List Char} (h : dropBack? post cs = some rest) :
    cs = rest ++ post := by
  obtain ⟨hpost, h⟩ := Option.ite_none_right_eq_some.1 h
  obtain ⟨front, rfl⟩ := List.isSuffixOf_iff_suffix.1 hpost
  rw [← Option.some.inj h, List.length_append, Nat.add_sub_cancel, List.take_left]

end Recast.Text
