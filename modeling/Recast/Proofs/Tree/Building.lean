import Recast.Proofs.Document.Reload
import Recast.Proofs.Document.Rebuild

/-!
# Trees as they are built

A tree is built by calls that each append one node, and some of them may name a parent that is not
there yet. This file follows a whole list of calls, and then says what the tree looks like that
comes out in the end.

* `Arena.call`, `Arena.calls`: one call with its answer, and a list of calls;
* `calls_accepted`: calls that fail leave no trace;
* `entries_calls`: the others append one node each, in order;
* `isChain_ancestors`, `getLast_ancestors`, `contains_of_mem_ancestors`: the way up from a node
  follows the parents, ends at the root, and never leaves the span of the node;
* `built_tree`: **a list of calls makes a tree exactly when the spans are nested, and then the links
  of the tree are coherent.**
-/

namespace Recast

/-! ## 1. Calls -/

namespace Arena

/-- A call: the node to append and the number of the parent it is to hang on. -/
structure Push where
  parent : Nat
  kind : Kind
  label : String
  span : Span

/-- What an arena stores of a node that was appended. -/
def Push.entry (x : Push) : Entry := ⟨x.kind, x.label, x.span, some x.parent⟩

/-- The arena after a call, and its answer: the number of the new node, or an error. -/
def call (a : Arena) (x : Push) : Arena × Except TreeError Nat :=
  match a.push x.parent x.kind x.label x.span with
  | .ok a' => (a', .ok a.size)
  | .error e => (a, .error e)

/-- The arena after some calls, whatever they answered. -/
def calls (a : Arena) : List Push → Arena
  | [] => a
  | x :: xs => (a.call x).1.calls xs

/-- The calls that name a parent that is there, `size` nodes being there before the first. -/
def accepted (size : Nat) : List Push → List Push
  | [] => []
  | x :: xs => if x.parent < size then x :: accepted (size + 1) xs else accepted size xs

/-- A call that names a node of the arena appends one more. -/
theorem call_of_lt {a : Arena} {x : Push} (h : x.parent < a.size) :
    (a.call x).2 = .ok a.size ∧ (a.call x).1.text = a.text ∧
      (a.call x).1.entries = a.entries ++ [x.entry] := by
  obtain ⟨a', hpush, htext, hentries⟩ := push_eq h x.kind x.label x.span
  unfold call
  rw [hpush]
  exact ⟨rfl, htext, hentries⟩

/-- Any other call is refused, and the arena stays as it is. -/
theorem call_of_le {a : Arena} {x : Push} (h : a.size ≤ x.parent) :
    a.call x = (a, .error (.unknownNode x.parent)) := by
  have hpush : a.push x.parent x.kind x.label x.span = .error (.unknownNode x.parent) :=
    dif_neg (Nat.not_lt.2 h)
  unfold call
  rw [hpush]

theorem size_call_of_lt {a : Arena} {x : Push} (h : x.parent < a.size) :
    (a.call x).1.size = a.size + 1 := by
  have hentries := (call_of_lt h).2.2
  have hlength := congrArg List.length hentries
  rwa [length_entries, List.length_append, length_entries] at hlength

/-- **Calls that fail leave no trace.** -/
theorem calls_accepted (a : Arena) (xs : List Push) :
    a.calls (accepted a.size xs) = a.calls xs := by
  induction xs generalizing a with
  | nil => rfl
  | cons x xs ih =>
    rw [accepted]
    split
    · rename_i h
      rw [← size_call_of_lt h]
      exact ih (a.call x).1
    · rename_i h
      rw [calls, call_of_le (Nat.le_of_not_lt h)]
      exact ih a

theorem text_calls (a : Arena) (xs : List Push) : (a.calls xs).text = a.text := by
  induction xs generalizing a with
  | nil => rfl
  | cons x xs ih =>
    have hcall : (a.call x).1.text = a.text := by
      by_cases h : x.parent < a.size
      · exact (call_of_lt h).2.1
      · rw [call_of_le (Nat.le_of_not_lt h)]
    exact (ih (a.call x).1).trans hcall

/-- **The other calls append one node each, in order.** -/
theorem entries_calls (a : Arena) (xs : List Push) :
    (a.calls xs).entries = a.entries ++ (accepted a.size xs).map Push.entry := by
  induction xs generalizing a with
  | nil => exact (List.append_nil _).symm
  | cons x xs ih =>
    rw [calls, accepted]
    split
    · rename_i h
      rw [ih, (call_of_lt h).2.2, size_call_of_lt h, List.map_cons, List.append_assoc]
      rfl
    · rename_i h
      rw [call_of_le (Nat.le_of_not_lt h)]
      exact ih a

/-- An arena makes a tree exactly when its spans are nested. -/
theorem exists_finish_iff {a : Arena} : (∃ t, a.finish = .ok t) ↔ a.Nested := by
  constructor
  · rintro ⟨t, ht⟩
    rw [← toArena_of_finish ht]
    exact t.nested
  · intro h
    obtain ⟨t, ht, -⟩ := exists_finish (violation?_eq_none h)
    exact ⟨t, ht⟩

end Arena

/-! ## 2. Links -/

namespace Tree

variable {t : Tree}

/-- A node is listed once among the children of its parent, and nowhere else. -/
theorem count_children (p c : t.Id) :
    (t.children p).count c = if t.parent c = some p then 1 else 0 := by
  have hnodup : (t.children p).Nodup :=
    (t.sorted_children p).imp fun hab he => Nat.ne_of_lt hab (congrArg Fin.val he)
  rw [hnodup.count]
  exact if_congr mem_children_iff rfl rfl

/-- The way up goes from parent to parent. -/
theorem isChain_ancestors (t : Tree) (i : t.Id) :
    (i :: t.ancestors i).IsChain fun a b => t.parent a = some b := by
  fun_induction ancestors t i with
  | case1 i h => exact .singleton i
  | case2 i p h ih => exact .cons_cons h ih

theorem lt_of_mem_ancestors {i a : t.Id} (h : a ∈ t.ancestors i) : a.val < i.val := by
  fun_induction ancestors t i with
  | case1 i hp => exact absurd h List.not_mem_nil
  | case2 i p hp ih =>
    have hlt := parent_lt hp
    rcases List.mem_cons.1 h with rfl | h
    · exact hlt
    · exact Nat.lt_trans (ih h) hlt

theorem pairwise_ancestors (t : Tree) (i : t.Id) :
    (i :: t.ancestors i).Pairwise fun a b => b.val < a.val := by
  fun_induction ancestors t i with
  | case1 i hp => exact List.pairwise_singleton _ i
  | case2 i p hp ih =>
    refine List.pairwise_cons.2 ⟨fun a ha => ?_, ih⟩
    have hlt := parent_lt hp
    rcases List.mem_cons.1 ha with rfl | ha
    · exact hlt
    · exact Nat.lt_trans (lt_of_mem_ancestors ha) hlt

/-- The way up ends at the root. -/
theorem getLast_ancestors (t : Tree) (i : t.Id) :
    (i :: t.ancestors i).getLast (List.cons_ne_nil _ _) = t.root := by
  fun_induction ancestors t i with
  | case1 i hp => exact parent_eq_none_iff.1 hp
  | case2 i p hp ih => rwa [List.getLast_cons (List.cons_ne_nil _ _)]

theorem contains_parent {i p : t.Id} (h : t.parent i = some p) :
    (t.span p).contains (t.span i) = true :=
  (t.nested (t.getElem?_nodes i)).2 (parent_eq_some_iff.1 h) (t.getElem?_nodes p)

/-- The span of a node lies inside that of everything above it: each step up only widens it. -/
theorem contains_of_mem_ancestors {i a : t.Id} (h : a ∈ t.ancestors i) :
    (t.span a).contains (t.span i) = true := by
  fun_induction ancestors t i with
  | case1 i hp => exact absurd h List.not_mem_nil
  | case2 i p hp ih =>
    have hwide := contains_parent hp
    rcases List.mem_cons.1 h with rfl | h
    · exact hwide
    · exact Span.contains_trans (ih h) hwide

/-- How the nodes of a tree hang together. -/
structure Coherent (t : Tree) : Prop where
  /-- Node 0 is the only one without a parent. -/
  root : ∀ i, t.parent i = none ↔ i.val = 0
  /-- Every parent has a smaller number. -/
  parent : ∀ i p, t.parent i = some p → p.val < i.val
  /-- A node is listed once among the children of its parent, and nowhere else. -/
  children : ∀ p c, (t.children p).count c = if t.parent c = some p then 1 else 0
  /-- Children are listed in strictly increasing order. -/
  increasing : ∀ p, (t.children p).Pairwise fun a b => a.val < b.val
  /-- The way up goes from parent to parent, through smaller and smaller numbers, to the root. -/
  climbs : ∀ i, (i :: t.ancestors i).IsChain fun a b => t.parent a = some b
  descends : ∀ i, (i :: t.ancestors i).Pairwise fun a b => b.val < a.val
  ends : ∀ i, (i :: t.ancestors i).getLast (List.cons_ne_nil _ _) = t.root
  /-- The span of a node lies inside that of each node above it. -/
  inside : ∀ i, ∀ a ∈ t.ancestors i, (t.span a).contains (t.span i) = true
  /-- The span of a node ends within the text. -/
  within : ∀ i, (t.span i).stop ≤ Text.length t.text

theorem coherent (t : Tree) : t.Coherent where
  root _ := parent_eq_none_iff.trans Fin.ext_iff
  parent _ _ := parent_lt
  children := count_children
  increasing := t.sorted_children
  climbs := t.isChain_ancestors
  descends := t.pairwise_ancestors
  ends := t.getLast_ancestors
  inside _ _ := contains_of_mem_ancestors
  within i := (t.nested (t.getElem?_nodes i)).1

end Tree

/-! ## 3. Whole runs -/

/-- **What building guarantees.** A call is refused exactly when it names a parent that is not
    there, and then the arena stays as it is, so that a list of calls gives the root and the nodes
    of the accepted calls, in order. It makes a tree exactly when every span ends within the text
    and lies inside that of its parent, and then the links of the tree are coherent. -/
theorem built_tree (text : String) (kind : Kind) (label : String) (span : Span)
    (xs : List Arena.Push) :
    (∀ (b : Arena) (x : Arena.Push),
      (b.call x).2 = (if x.parent < b.size then .ok b.size else .error (.unknownNode x.parent)) ∧
      ∀ e, (b.call x).2 = .error e → (b.call x).1 = b) ∧
    let start := Arena.root text kind label span
    let a := start.calls xs
    start.calls (Arena.accepted 1 xs) = a ∧ a.text = text ∧
      a.entries = ⟨kind, label, span, none⟩ :: (Arena.accepted 1 xs).map Arena.Push.entry ∧
      ((∃ t, a.finish = .ok t) ↔ a.Nested) ∧
      ∀ t, a.finish = .ok t → t.toArena = a ∧ t.Coherent := by
  refine ⟨fun b x => ?_, ?_⟩
  · by_cases h : x.parent < b.size
    · rw [if_pos h, (Arena.call_of_lt h).1]
      exact ⟨rfl, fun e he => by cases he⟩
    · rw [if_neg h, Arena.call_of_le (Nat.le_of_not_lt h)]
      exact ⟨rfl, fun _ _ => rfl⟩
  · intro start a
    refine ⟨start.calls_accepted xs, start.text_calls xs, start.entries_calls xs,
      Arena.exists_finish_iff, fun t ht => ?_⟩
    exact ⟨Arena.toArena_of_finish ht, t.coherent⟩

/-- A call that names a parent that is not there. -/
def strayCall : Arena.Push := ⟨7, .simpleName, "X", .ofLength 6 1⟩

/-- Two declarations, the name in the first added last, and a stray call between them. -/
def declarationCalls : List Arena.Push :=
  [⟨0, .typeDeclaration, "", .ofLength 0 8⟩, strayCall, ⟨0, .typeDeclaration, "", .ofLength 8 8⟩,
    ⟨2, .simpleName, "B", .ofLength 14 1⟩, ⟨1, .simpleName, "A", .ofLength 6 1⟩]

theorem built_declarations :
    let start := Arena.root "class A;class B;" .compilationUnit "" (.ofLength 0 16)
    (start.call strayCall).2 = .error (.unknownNode 7) ∧ (start.call strayCall).1 = start ∧
      ∃ t, (start.calls declarationCalls).finish = .ok t ∧ t.nodes.size = 5 ∧ t.Coherent := by
  intro start
  obtain ⟨hcall, -, -, hentries, -, hcoherent⟩ :=
    built_tree "class A;class B;" .compilationUnit "" (.ofLength 0 16) declarationCalls
  have hrefused : (start.call strayCall).2 = .error (.unknownNode 7) := rfl
  refine ⟨hrefused, (hcall start strayCall).2 _ hrefused, ?_⟩
  obtain ⟨t, ht⟩ := exists_of_isOk (x := (start.calls declarationCalls).finish) (by decide +kernel)
  obtain ⟨harena, hlinks⟩ := hcoherent t ht
  refine ⟨t, ht, ?_, hlinks⟩
  rw [← t.length_entries, harena, hentries]
  rfl

end Recast
