import Recast.Proofs.Detect.Singly

/-!
# The second update

A single update does not make the rename of an attribute or of a variable: another one with the same
key has to be in the script. A key is one text in which the words ` from ` and ` to ` stand before
the labels, and a label that holds these words as well can give two rewrites one key. Between labels
without a space that cannot happen, whatever the labels of the others are.

* `relabelKey_inj`: a key tells its labels when these have no space;
* `Diff.relabels`: an update that may be a rename, from one label to another;
* `Diff.countP_hasRenameKey_le`: what has the key of such labels has the labels;
* `rename_seconded`: **behind a renamed attribute or variable stand two updates from its old label
  to its new one.**
-/

namespace Recast

/-! ## 1. Keys -/

theorem toList_relabelKey (name old new : String) :
    (relabelKey name old new).toList =
      name.toList ++ (" from ".toList ++ (old.toList ++ ' ' :: ("to ".toList ++ new.toList))) := by
  simp [relabelKey, toString]

/-- What stands before the first space. -/
theorem takeWhile_ne_space {cs rest : List Char} (h : ' ' ∉ cs) :
    (cs ++ ' ' :: rest).takeWhile (· ≠ ' ') = cs := by
  have hall : ∀ c ∈ cs, decide (c ≠ ' ') = true := by
    intro c hc
    exact decide_eq_true fun he => h (he ▸ hc)
  rw [List.takeWhile_append_of_pos hall]
  exact List.append_nil cs

/-- **A key tells its labels when these have no space.** The labels on the other side may be any:
    the key has two spaces after its first words, so that they have none. -/
theorem relabelKey_inj {name old new old' new' : String} (hold : ' ' ∉ old.toList)
    (hnew : ' ' ∉ new.toList) (h : relabelKey name old new = relabelKey name old' new') :
    old = old' ∧ new = new' := by
  have hlist := congrArg String.toList h
  rw [toList_relabelKey, toList_relabelKey, List.append_cancel_left_eq,
    List.append_cancel_left_eq] at hlist
  have hcount : 2 = old'.toList.count ' ' + (new'.toList.count ' ' + 1 + 1) := by
    have hcount := congrArg (List.count ' ') hlist
    simpa [List.count_eq_zero.2 hold, List.count_eq_zero.2 hnew] using hcount
  have hold' : ' ' ∉ old'.toList := List.count_eq_zero.1 (by omega)
  have hfirst : old.toList = old'.toList := by
    have htaken := congrArg (List.takeWhile (· ≠ ' ')) hlist
    rwa [takeWhile_ne_space hold, takeWhile_ne_space hold'] at htaken
  rw [hfirst, List.append_cancel_left_eq, List.cons_inj_right, List.append_cancel_left_eq] at hlist
  exact ⟨String.toList_inj.1 hfirst, String.toList_inj.1 hlist⟩

-- with a space in a label, two rewrites have one key
example : relabelKey "update-node" "a to b" "c" = relabelKey "update-node" "a" "b to c" := by decide

/-! ## 2. Updates -/

namespace Diff

/-- Whether an edit is an update that may be a rename, of a node with the label `old` to the label
    `new`. -/
def relabels (d : Diff) (old new : String) : Edit → Bool
  | .update n label => label == new &&
      (d.before.find? n).any fun i => d.mayRename i && d.before.label i == old
  | _ => false

variable {d : Diff}

/-- An update with the key of two labels without a space is one from the first to the second. -/
theorem relabels_of_hasRenameKey {old new : String} (hold : ' ' ∉ old.toList)
    (hnew : ' ' ∉ new.toList) {e : Edit}
    (h : d.hasRenameKey (relabelKey "update-node" old new) e = true) :
    d.relabels old new e = true := by
  cases e with
  | insert n => cases h
  | delete n => cases h
  | move n => cases h
  | update n label =>
    unfold hasRenameKey at h
    obtain ⟨i, hi, h⟩ := Option.any_eq_true .. |>.1 h
    rw [Bool.and_eq_true, beq_iff_eq] at h
    obtain ⟨hmay, hkey⟩ := h
    obtain ⟨rfl, rfl⟩ := relabelKey_inj hold hnew hkey.symm
    simp [relabels, hi, hmay]

theorem countP_hasRenameKey_le {old new : String} (hold : ' ' ∉ old.toList)
    (hnew : ' ' ∉ new.toList) :
    d.script.countP (d.hasRenameKey (relabelKey "update-node" old new)) ≤
      d.script.countP (d.relabels old new) :=
  List.countP_mono_left fun _ _ h => relabels_of_hasRenameKey hold hnew h

end Diff

/-- **Two updates stand behind a renamed attribute or variable.** Where the answer to an update is
    such a rename, and neither the old label of the node nor the new one has a space, at least two
    updates of the script that may be renames are from that very label to that very label, whatever
    keys the others have. -/
theorem rename_seconded (d : Diff) (hd : d.InRange) (path : String) :
    ∃ rs, d.renames path = .ok rs ∧
      (∀ r, r ∈ rs ↔ ∃ e ∈ d.script, d.renameOf path e = .ok (some r)) ∧
      ∀ (i : d.before.Id) (new : String) (r : Refactoring),
        d.renameOf path (.update i.val new) = .ok (some r) →
        r.kind = .renameAttribute ∨ r.kind = .renameVariable →
        ' ' ∉ (d.before.label i).toList → ' ' ∉ new.toList →
        2 ≤ d.script.countP (d.relabels (d.before.label i) new) := by
  obtain ⟨rs, hrs⟩ := Diff.renames_total hd path
  refine ⟨rs, hrs, fun r => Diff.mem_renames_iff hrs, fun i new r hanswer hkind hold hnew => ?_⟩
  rw [Diff.renameOf_update] at hanswer
  split at hanswer
  · obtain ⟨_, _, _, -, -, -, hrename⟩ := Diff.classifyRename_eq_some hanswer
    obtain ⟨kind, -, hgroup, hreport⟩ := Diff.Candidate.rename?_cases hrename
    have hlarge := hgroup (hreport.kind_eq ▸ hkind)
    exact Nat.le_trans hlarge (Diff.countP_hasRenameKey_le hold hnew)
  · cases hanswer

theorem rename_seconded_twoRenames :
    twoRenames.InRange ∧
      (∃ r, twoRenames.renameOf "A.java" (.update 6 "c") = .ok (some r) ∧
        r.kind = .renameAttribute ∧
        r.description = "Rename Attribute a : int to c : int in class A") ∧
      2 ≤ twoRenames.script.countP (twoRenames.relabels "a" "c") := by
  let i : twoRenames.before.Id := ⟨6, by decide +kernel⟩
  have hlabel : twoRenames.before.label i = "a" := by decide +kernel
  have hanswer : ((twoRenames.renameOf "A.java" (.update i.val "c")).toOption.join.map
      fun r => (r.kind, r.description)) =
      some (.renameAttribute, "Rename Attribute a : int to c : int in class A") := by decide +kernel
  obtain ⟨rs, -, -, hseconded⟩ := rename_seconded twoRenames inRange_twoRenames "A.java"
  obtain ⟨r, hr, hsays⟩ := Option.map_eq_some_iff.1 hanswer
  rw [Prod.mk.injEq] at hsays
  obtain ⟨hkind, hdescription⟩ := hsays
  have hok : twoRenames.renameOf "A.java" (.update i.val "c") = .ok (some r) :=
    eq_ok_of_toOption (Option.join_eq_some_iff.1 hr)
  refine ⟨inRange_twoRenames, ⟨r, hok, hkind, hdescription⟩, ?_⟩
  have htwo := hseconded i "c" r hok (.inl hkind) (by rw [hlabel]; decide) (by decide)
  rwa [hlabel] at htwo

end Recast
