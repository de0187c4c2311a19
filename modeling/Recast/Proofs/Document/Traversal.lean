import Recast.Document.Basic
import Recast.Proofs.Tree.Preorder

/-!
# The stack and the table against plain recursion

Loading works off a stack, and writing gives out numbers on the way. Either can be said by recursion
alone: an outline is laid over an arena child after child, and the number of a node is its place in
the order of reading.

* `Outline.addTo`, `Outline.ofTree`: the recursive reading of a load and of a tree;
* `addStacked_cons`: **a stack is worked off by recursion over its outlines**, in the same order and
  with the same first error;
* `NewNumbers.Follow`: a table numbers certain nodes from zero on, and nothing else;
* `WritesInOrder`, `writesInOrder`: **writing a subtree down gives its outline, and numbers its nodes
  as they are read**;
* `TreeDocument.write_eq`, `Document.ofDiff_eq`: so whole trees, and whole differences.
-/

namespace Recast

namespace Outline

/-! ## 1. Loading -/

mutual

/-- Lays an outline over an arena as the last child of `parent`. -/
def addTo (a : Arena) (parent : Nat) : Outline → Except TreeError Arena
  | .node kind label pos length children => do
    let span ← spanAt pos length
    let id := a.size
    addAllTo (← a.push parent kind label span) id children

/-- Lays outlines over an arena, one after the other. -/
def addAllTo (a : Arena) (parent : Nat) : List Outline → Except TreeError Arena
  | [] => .ok a
  | o :: os => do addAllTo (← addTo a parent o) parent os

end

mutual

/-- **An outline on top of a stack is added with all that is below it** before the next is taken. -/
theorem addStacked_cons : (o : Outline) → (a : Arena) → (parent : Nat) →
    (stack : List (Nat × Outline)) →
    addStacked a ((parent, o) :: stack) = addTo a parent o >>= (addStacked · stack)
  | .node kind label pos length children, a, parent, stack => by
    rw [addStacked, addTo, bind_assoc]
    refine bind_congr fun span => ?_
    rw [bind_assoc]
    refine bind_congr fun a' => ?_
    rw [stacked_eq]
    exact addStacked_append children a' a.size stack

theorem addStacked_append : (os : List Outline) → (a : Arena) → (parent : Nat) →
    (stack : List (Nat × Outline)) →
    addStacked a (os.map (fun o => (parent, o)) ++ stack) =
      addAllTo a parent os >>= (addStacked · stack)
  | [], a, parent, stack => by
    rw [addAllTo]
    rfl
  | o :: os, a, parent, stack => by
    rw [List.map_cons, List.cons_append, addStacked_cons o, addAllTo, bind_assoc]
    exact bind_congr fun a' => addStacked_append os a' parent stack

end

theorem addStacked_stacked (a : Arena) (parent : Nat) (os : List Outline) :
    addStacked a (stacked parent os []) = addAllTo a parent os := by
  rw [stacked_eq, addStacked_append]
  have hdone : (fun a' => addStacked a' []) = pure := funext fun a' => addStacked.eq_1 a'
  rw [hdone, bind_pure]

/-! ## 2. Writing -/

/-- The outline of the subtree at a node. -/
def ofTree (t : Tree) (i : t.Id) : Outline :=
  .node (t.kind i) (t.label i) (t.span i).start (t.span i).length
    ((t.children i).attach.map fun ⟨c, _⟩ => ofTree t c)
termination_by t.nodes.size - i.val
decreasing_by
  have := Tree.lt_of_mem_children ‹c ∈ t.children i›
  omega

theorem ofTree_eq (t : Tree) (i : t.Id) :
    ofTree t i = .node (t.kind i) (t.label i) (t.span i).start (t.span i).length
      ((t.children i).map (ofTree t)) := by
  rw [ofTree]
  simp

theorem write_eq (t : Tree) (i : t.Id) :
    write t i = do
      modify fun numbers => numbers.insert i.val numbers.size
      let children ← (t.children i).mapM (write t)
      return .node (t.kind i) (t.label i) (t.span i).start (t.span i).length children := by
  rw [write]
  simp

end Outline

/-- A table numbers these nodes from zero on, in this order, and nothing else. -/
structure NewNumbers.Follow {t : Tree} (numbers : NewNumbers) (nodes : List t.Id) : Prop where
  size : numbers.size = nodes.length
  get : ∀ n, numbers[n]? = nodes.findIdx? (·.val == n)

namespace NewNumbers

variable {t : Tree} {numbers : NewNumbers} {nodes : List t.Id}

theorem follow_nil (t : Tree) : Follow ∅ ([] : List t.Id) where
  size := Std.TreeMap.size_emptyc
  get _ := Std.TreeMap.getElem?_emptyc

/-- **One step**: a node that has no number yet gets the next one. -/
theorem Follow.insert (h : Follow numbers nodes) {i : t.Id} (hi : i ∉ nodes) :
    Follow (numbers.insert i.val numbers.size) (nodes ++ [i]) := by
  have hnone : numbers[i.val]? = none := by
    rw [h.get, List.findIdx?_eq_none_iff]
    intro j hj
    rw [beq_eq_false_iff_ne]
    intro hval
    exact hi (Fin.ext hval ▸ hj)
  refine ⟨?_, fun n => ?_⟩
  · rw [Std.TreeMap.size_insert, if_neg, h.size, List.length_append, List.length_singleton]
    rw [Std.TreeMap.contains_eq_isSome_getElem?, hnone]
    exact Bool.false_ne_true
  · rw [Std.TreeMap.getElem?_insert, List.findIdx?_append, ← h.get, h.size]
    by_cases hn : i.val = n
    · subst hn
      rw [hnone]
      simp
    · have hcmp : ¬ compare i.val n = .eq := by
        rw [Nat.compare_eq_eq]
        exact hn
      rw [if_neg hcmp]
      simp [hn]

/-- Where a table says what the new number of a node is. -/
theorem Follow.getElem? (h : Follow numbers t.preorder) (n : Nat) :
    numbers[n]? = (t.find? n).map t.rank := by
  rw [h.get]
  cases hn : t.find? n with
  | none =>
    rw [Option.map_none, List.findIdx?_eq_none_iff]
    intro i _
    rw [beq_eq_false_iff_ne]
    intro hi
    rw [Tree.find?_eq_some_iff.2 hi] at hn
    cases hn
  | some i =>
    obtain rfl := Tree.find?_eq_some_iff.1 hn
    obtain ⟨hlt, hget⟩ := List.getElem?_eq_some_iff.1 (t.getElem?_rank i)
    rw [Option.map_some, List.findIdx?_eq_some_iff_getElem]
    refine ⟨hlt, by rw [hget, beq_self_eq_true], fun k hk heq => ?_⟩
    have hsame : t.preorder[k] = t.preorder[t.rank i] := by
      rw [hget]
      exact Fin.ext (beq_iff_eq.1 heq)
    have := (t.nodup_preorder.getElem_inj_iff).1 hsame
    omega

end NewNumbers

namespace Outline

variable {t : Tree}

/-- Writing a subtree down gives its outline, and numbers its nodes as they are read. -/
def WritesInOrder (t : Tree) (i : t.Id) : Prop :=
  ∀ (numbers : NewNumbers) (pre : List t.Id), NewNumbers.Follow numbers pre →
    (pre ++ t.preorderFrom i).Nodup →
    ∃ numbers', (write t i).run numbers = (ofTree t i, numbers') ∧
      NewNumbers.Follow numbers' (pre ++ t.preorderFrom i)

/-- Siblings are written one after the other. -/
theorem mapM_write {cs : List t.Id} {numbers : NewNumbers} {pre : List t.Id}
    (h : ∀ c ∈ cs, WritesInOrder t c) (hnumbers : NewNumbers.Follow numbers pre)
    (hnodup : (pre ++ (cs.map t.preorderFrom).flatten).Nodup) :
    ∃ numbers', (cs.mapM (write t)).run numbers = (cs.map (ofTree t), numbers') ∧
      NewNumbers.Follow numbers' (pre ++ (cs.map t.preorderFrom).flatten) := by
  induction cs generalizing numbers pre with
  | nil => exact ⟨numbers, rfl, by simpa using hnumbers⟩
  | cons c cs ih =>
    obtain ⟨hc, hcs⟩ := List.forall_mem_cons.1 h
    rw [List.map_cons, List.flatten_cons, ← List.append_assoc] at hnodup
    obtain ⟨numbers₁, hrun₁, hnumbers₁⟩ := hc numbers pre hnumbers
      (hnodup.sublist (List.sublist_append_left _ _))
    obtain ⟨numbers₂, hrun₂, hnumbers₂⟩ := ih hcs hnumbers₁ hnodup
    refine ⟨numbers₂, ?_, ?_⟩
    · rw [List.mapM_cons, StateT.run_bind, hrun₁]
      show (cs.mapM (write t) >>= fun os => pure (ofTree t c :: os)).run numbers₁ = _
      rw [StateT.run_bind, hrun₂]
      rfl
    · rwa [List.map_cons, List.flatten_cons, ← List.append_assoc]

/-- **Every subtree is written in order.** -/
theorem writesInOrder (i : t.Id) : WritesInOrder t i := by
  -- the node gets its number first, then its children from left to right
  fun_induction Tree.preorderFrom t i with
  | case1 i ih =>
    intro numbers pre h hnodup
    rw [Tree.preorderFrom_eq, List.append_cons] at hnodup ⊢
    have hi : i ∉ pre := fun hmem =>
      (List.nodup_append.1 (List.nodup_append.1 hnodup).1).2.2 i hmem i (List.mem_singleton_self i)
        rfl
    obtain ⟨numbers', hrun, hnumbers'⟩ := mapM_write ih (h.insert hi) hnodup
    refine ⟨numbers', ?_, hnumbers'⟩
    rw [write_eq, ofTree_eq]
    show ((t.children i).mapM (write t) >>= fun children =>
      pure (Outline.node (t.kind i) (t.label i) (t.span i).start (t.span i).length children)).run
        (numbers.insert i.val numbers.size) = _
    rw [StateT.run_bind, hrun]
    rfl

end Outline

namespace TreeDocument

/-- **Writing a tree down** gives the outline of its root and the places of its nodes. -/
theorem write_eq (t : Tree) :
    ∃ numbers, write t = (⟨t.text, Outline.ofTree t t.root⟩, numbers) ∧
      NewNumbers.Follow numbers t.preorder := by
  obtain ⟨numbers, hrun, hnumbers⟩ :=
    Outline.writesInOrder t.root ∅ [] (NewNumbers.follow_nil t) t.nodup_preorder
  refine ⟨numbers, ?_, hnumbers⟩
  unfold write
  rw [hrun]

theorem ofTree_eq (t : Tree) : ofTree t = ⟨t.text, Outline.ofTree t t.root⟩ := by
  obtain ⟨numbers, hwrite, -⟩ := write_eq t
  rw [ofTree, hwrite]

/-- The numbers in the document of a tree are the places of its nodes, and there are no others. -/
theorem getElem?_write (t : Tree) (n : Nat) : (write t).2[n]? = (t.find? n).map t.rank := by
  obtain ⟨numbers, hwrite, hnumbers⟩ := write_eq t
  rw [hwrite]
  exact hnumbers.getElem? n

theorem size_write (t : Tree) : (write t).2.size = t.nodes.size := by
  obtain ⟨numbers, hwrite, hnumbers⟩ := write_eq t
  rw [hwrite, ← t.length_preorder]
  exact hnumbers.size

theorem getD_write (t : Tree) (n : Nat) : (write t).2.getD n n = t.rankOf n := by
  rw [Std.TreeMap.getD_eq_getD_getElem?, getElem?_write, Tree.rankOf]
  cases t.find? n <;> rfl

end TreeDocument

/-- **Writing a difference down** puts the place of a node wherever its number stood. -/
theorem Document.ofDiff_eq (path : String) (d : Diff) :
    ofDiff path d =
      { path, before := .ofTree d.before, after := .ofTree d.after
        mapping := d.mapping.pairs.map fun p => (d.before.rankOf p.1, d.after.rankOf p.2)
        script := d.script.map (Edit.renumber d.before.rankOf d.after.rankOf) } := by
  have hsrc := funext (TreeDocument.getD_write d.before)
  have hdst := funext (TreeDocument.getD_write d.after)
  rw [← hsrc, ← hdst]
  rfl

end Recast
