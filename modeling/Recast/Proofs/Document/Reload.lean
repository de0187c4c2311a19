import Mathlib.Data.List.Sort
import Recast.Proofs.Document.Traversal
import Recast.Proofs.Fault
import Recast.Proofs.Tree.Renumbering

/-!
# Writing a tree down and loading it again

Loading lays the nodes of an outline over an arena one after the other, in the order in which the
outline is read. The arena of a tree that was written down therefore grows along `Tree.preorder`,
and in the end the number of each node is its place there.

* `Arena.Holds`: an arena holds certain nodes of a tree, parents numbered by their places;
* `Tree.Lays`: a way to extend arenas adds certain nodes to what an arena holds;
* `lays_addTo`: adding the outline of a subtree adds the nodes of the subtree;
* `load_ofTree`: **a tree that was written down loads again, numbered by the places of its nodes.**
-/

namespace Recast

/-! ## 1. Entries -/

/-- What an arena stores of a node, apart from the list of its children. -/
structure Arena.Entry where
  kind : Kind
  label : String
  span : Span
  parent : Option Nat

/-- The entry of a node. -/
def Node.entry (n : Node) : Arena.Entry := ⟨n.kind, n.label, n.span, n.parent⟩

namespace Arena

/-- The entries of an arena, in the order of the numbers. -/
def entries (a : Arena) : List Arena.Entry := a.nodes.toList.map Node.entry

theorem length_entries (a : Arena) : a.entries.length = a.nodes.size := by
  rw [entries, List.length_map, Array.length_toList]

theorem getElem?_entries (a : Arena) (i : Nat) : a.entries[i]? = a.nodes[i]?.map Node.entry := by
  rw [entries, List.getElem?_map, Array.getElem?_toList]

/-- One more node is one more entry; the new child of its parent is no part of an entry. -/
theorem push_eq {a : Arena} {parent : Nat} (h : parent < a.nodes.size) (kind : Kind)
    (label : String) (span : Span) :
    ∃ a', a.push parent kind label span = .ok a' ∧ a'.text = a.text ∧
      a'.entries = a.entries ++ [⟨kind, label, span, some parent⟩] := by
  unfold push
  rw [dif_pos h]
  refine ⟨_, rfl, rfl, List.ext_getElem? fun i => ?_⟩
  rw [getElem?_entries, getElem?_appendChild, List.getElem?_append, length_entries,
    getElem?_entries]
  by_cases hi : i = a.nodes.size
  · rw [if_pos hi, if_neg (by omega), hi, Nat.sub_self]
    rfl
  · rw [if_neg hi]
    by_cases hlt : i < a.nodes.size
    · rw [if_pos hlt]
      by_cases hp : i = parent
      · rw [if_pos hp, Option.map_map]
        rfl
      · rw [if_neg hp]
    · have hp : i ≠ parent := by omega
      rw [if_neg hlt, if_neg hp, Array.getElem?_eq_none (by omega), List.getElem?_eq_none]
      · rfl
      · rw [List.length_singleton]
        omega

end Arena

namespace Tree

/-- The entry of a node whose parent is numbered by its place. -/
def entry (t : Tree) (i : t.Id) : Arena.Entry :=
  ⟨t.kind i, t.label i, t.span i, (t.parent i).map t.rank⟩

/-- Every offset of a tree fits the thirty-two bits in which offsets are written. -/
def Addressable (t : Tree) : Prop := ∀ i, (t.span i).stop ≤ Text.maxOffset

theorem Addressable.spanAt {t : Tree} (ht : t.Addressable) (i : t.Id) :
    Outline.spanAt (t.span i).start (t.span i).length = .ok (t.span i) := by
  have hstop : (t.span i).start + (t.span i).length = (t.span i).stop :=
    Nat.add_sub_cancel' (t.span i).start_le_stop
  unfold Outline.spanAt
  rw [if_pos (by rw [hstop]; exact ht i), Span.ofLength_start_length]

end Tree

/-! ## 2. Growing along the order of reading -/

/-- An arena holds these nodes of a tree, in this order. -/
structure Arena.Holds (a : Arena) (t : Tree) (nodes : List t.Id) : Prop where
  text : a.text = t.text
  entries : a.entries = nodes.map t.entry

variable {t : Tree}

theorem Arena.Holds.size {a : Arena} {nodes : List t.Id} (h : a.Holds t nodes) :
    a.nodes.size = nodes.length := by
  rw [← a.length_entries, h.entries, List.length_map]

/-- `f` adds these nodes, which are read next, to an arena that holds all before them and `p` with
    them. -/
def Tree.Lays (t : Tree) (p : t.Id) (f : Arena → Except TreeError Arena) (nodes : List t.Id) :
    Prop :=
  ∀ (a : Arena) (pre post : List t.Id), a.Holds t pre → p ∈ pre →
    t.preorder = pre ++ nodes ++ post → ∃ a', f a = .ok a' ∧ a'.Holds t (pre ++ nodes)

/-- **One step**: a node is pushed when it is read. -/
theorem lays_push {i p : t.Id} (hp : t.parent i = some p) :
    t.Lays p (fun a => a.push (t.rank p) (t.kind i) (t.label i) (t.span i)) [i] := by
  intro a pre post ha hmem hpre
  have hlt : t.rank p < a.nodes.size := by
    rw [ha.size, Tree.rank, hpre, List.append_assoc, List.idxOf_append_of_mem hmem]
    exact List.idxOf_lt_length_of_mem hmem
  obtain ⟨a', h, htext, hentries⟩ := Arena.push_eq hlt (t.kind i) (t.label i) (t.span i)
  refine ⟨a', h, htext.trans ha.text, ?_⟩
  rw [hentries, ha.entries, List.map_append, List.map_singleton, Tree.entry, hp]
  rfl

/-- Adding some nodes and then some more is adding all of them. -/
theorem Tree.Lays.bind {p q : t.Id} {f g : Arena → Except TreeError Arena} {xs ys : List t.Id}
    (hf : t.Lays p f xs) (hg : t.Lays q g ys) (hq : q = p ∨ q ∈ xs) :
    t.Lays p (fun a => f a >>= g) (xs ++ ys) := by
  intro a pre post ha hmem hpre
  have hmem' : q ∈ pre ++ xs := by
    rcases hq with rfl | hq
    · exact List.mem_append_left _ hmem
    · exact List.mem_append_right _ hq
  rw [← List.append_assoc] at hpre ⊢
  obtain ⟨a₁, h₁, ha₁⟩ := hf a pre (ys ++ post) ha hmem (by rw [hpre, List.append_assoc])
  obtain ⟨a₂, h₂, ha₂⟩ := hg a₁ (pre ++ xs) post ha₁ hmem' hpre
  exact ⟨a₂, bind_eq_ok.2 ⟨a₁, h₁, h₂⟩, ha₂⟩

theorem lays_addAllTo {p : t.Id} {cs : List t.Id}
    (h : ∀ c ∈ cs, t.Lays p (fun a => Outline.addTo a (t.rank p) (Outline.ofTree t c))
      (t.preorderFrom c)) :
    t.Lays p (fun a => Outline.addAllTo a (t.rank p) (cs.map (Outline.ofTree t)))
      (cs.map t.preorderFrom).flatten := by
  induction cs with
  | nil =>
    intro a pre post ha _ _
    simp only [List.map_nil, List.flatten_nil, List.append_nil, Outline.addAllTo]
    exact ⟨a, rfl, ha⟩
  | cons c cs ih =>
    obtain ⟨hc, hcs⟩ := List.forall_mem_cons.1 h
    simp only [List.map_cons, List.flatten_cons, Outline.addAllTo]
    exact hc.bind (ih hcs) (.inl rfl)

/-- **Adding the outline of a subtree adds the nodes of the subtree.** -/
theorem lays_addTo (ht : t.Addressable) {i p : t.Id} (hp : t.parent i = some p) :
    t.Lays p (fun a => Outline.addTo a (t.rank p) (Outline.ofTree t i)) (t.preorderFrom i) := by
  -- first the node itself, then its children from left to right
  fun_induction Tree.preorderFrom t i generalizing p with
  | case1 i ih =>
    have hall : t.Lays i
        (fun a => Outline.addAllTo a (t.rank i) ((t.children i).map (Outline.ofTree t)))
        ((t.children i).map t.preorderFrom).flatten :=
      lays_addAllTo fun c hc => ih c hc (Tree.mem_children_iff.1 hc)
    have hboth := (lays_push hp).bind hall (.inr List.mem_cons_self)
    rw [← Tree.preorderFrom, Tree.preorderFrom_eq]
    intro a pre post ha hmem hpre
    -- the number the node gets is its place
    have hid : a.size = t.rank i := by
      rw [Tree.rank_eq_length (by rw [hpre, List.append_assoc]; rfl), ← ha.size]
      rfl
    obtain ⟨a', h, ha'⟩ := hboth a pre post ha hmem hpre
    refine ⟨a', ?_, ha'⟩
    dsimp only
    rw [Outline.ofTree_eq, Outline.addTo, ht.spanAt, hid]
    exact h

/-! ## 3. Finishing -/

namespace Arena

/-- A nested arena has no wrong span. -/
theorem violation?_eq_none {a : Arena} (h : a.Nested) : a.violation? = none := by
  unfold violation?
  rw [List.findSome?_eq_none_iff]
  rintro ⟨n, i⟩ hmem
  rw [List.mem_zipIdx_iff_getElem?, Array.getElem?_toList] at hmem
  obtain ⟨hlen, hparent⟩ := h hmem
  show a.spanError? _ i n = none
  unfold spanError?
  rw [if_neg (Nat.not_lt.2 hlen)]
  split
  · rfl
  · rename_i p hp
    split
    · rfl
    · rename_i m hm
      rw [if_pos (hparent hp hm)]

/-- An arena without a wrong span makes a tree. -/
theorem exists_finish {a : Arena} (h : a.violation? = none) :
    ∃ t, a.finish = .ok t ∧ t.toArena = a := by
  unfold finish
  split
  · exact ⟨_, rfl, rfl⟩
  · rename_i e he
    rw [h] at he
    cases he

theorem finish_eq_error {a : Arena} {e : TreeError} (h : a.violation? = some e) :
    a.finish = .error e := by
  unfold finish
  split
  · rename_i hnone
    rw [h] at hnone
    cases hnone
  · rename_i e' he'
    rw [h] at he'
    cases he'
    rfl

namespace Holds

variable {a : Arena}

/-- What stands at a number is what is read at that place. -/
theorem entry_of_getElem? (h : a.Holds t t.preorder) {i : Nat} {n : Node}
    (hn : a.nodes[i]? = some n) : ∃ x, t.rank x = i ∧ n.entry = t.entry x := by
  have hentry : a.entries[i]? = some n.entry := by
    rw [getElem?_entries, hn]
    rfl
  rw [h.entries, List.getElem?_map, Option.map_eq_some_iff] at hentry
  obtain ⟨x, hx, he⟩ := hentry
  obtain ⟨hi, hget⟩ := List.getElem?_eq_some_iff.1 hx
  refine ⟨x, ?_, he.symm⟩
  rw [← hget]
  exact t.nodup_preorder.idxOf_getElem i hi

/-- The spans of a tree are nested however its nodes are numbered. -/
theorem nested (h : a.Holds t t.preorder) : a.Nested := by
  intro i n hn
  obtain ⟨x, hx, he⟩ := h.entry_of_getElem? hn
  have hspan : n.span = t.span x := congrArg Arena.Entry.span he
  obtain ⟨hlen, hparent⟩ := t.nested (t.getElem?_nodes x)
  refine ⟨?_, fun {p m} hp hm => ?_⟩
  · rw [hspan, h.text]
    exact hlen
  · obtain ⟨y, hy, he'⟩ := h.entry_of_getElem? hm
    have hspan' : m.span = t.span y := congrArg Arena.Entry.span he'
    have hpx : (t.parent x).map t.rank = some p := (congrArg Arena.Entry.parent he).symm.trans hp
    obtain ⟨q, hq, hqp⟩ := Option.map_eq_some_iff.1 hpx
    obtain rfl : q = y := Tree.rank_injective (hqp.trans hy.symm)
    rw [hspan, hspan']
    exact hparent (Tree.parent_eq_some_iff.1 hq) (t.getElem?_nodes q)

end Holds

end Arena

/-! ## 4. The loaded tree -/

namespace Tree

variable {t' : Tree}

theorem size_of_holds (h : t'.Holds t t.preorder) : t'.nodes.size = t.nodes.size := by
  rw [h.size, length_preorder]

/-- The node at the place of a node. -/
def placed (h : t'.Holds t t.preorder) (i : t.Id) : t'.Id :=
  ⟨t.rank i, size_of_holds h ▸ t.rank_lt i⟩

theorem entry_placed (h : t'.Holds t t.preorder) (i : t.Id) :
    (t'.node (placed h i)).entry = t.entry i := by
  obtain ⟨x, hx, he⟩ := h.entry_of_getElem? (t'.getElem?_nodes (placed h i))
  rwa [rank_injective hx] at he

theorem placed_surjective (h : t'.Holds t t.preorder) (j : t'.Id) : ∃ i, placed h i = j := by
  obtain ⟨x, hx, -⟩ := h.entry_of_getElem? (t'.getElem?_nodes j)
  exact ⟨x, Fin.ext hx⟩

theorem placed_injective (h : t'.Holds t t.preorder) {i j : t.Id} (hij : placed h i = placed h j) :
    i = j :=
  rank_injective (congrArg Fin.val hij)

theorem parent_placed (h : t'.Holds t t.preorder) (i : t.Id) :
    t'.parent (placed h i) = (t.parent i).map (placed h) := by
  have he : (t'.node (placed h i)).parent = (t.parent i).map t.rank :=
    congrArg Arena.Entry.parent (entry_placed h i)
  cases hp : t.parent i with
  | none =>
    rw [hp] at he
    cases hp' : t'.parent (placed h i) with
    | none => rfl
    | some q =>
      rw [parent_eq_some_iff.1 hp'] at he
      cases he
  | some p =>
    rw [hp] at he
    exact parent_eq_some_iff.2 he

/-- Children keep their order: both lists are sorted by the new numbers. -/
theorem children_placed (h : t'.Holds t t.preorder) (i : t.Id) :
    t'.children (placed h i) = (t.children i).map (placed h) := by
  refine List.Pairwise.eq_of_mem_iff (r := (· < ·)) (t'.sorted_children _) ?_ fun j => ?_
  · rw [List.pairwise_map]
    exact t.rank_children i
  · obtain ⟨c, rfl⟩ := placed_surjective h j
    rw [mem_children_iff, parent_placed, List.mem_map, Option.map_eq_some_iff]
    constructor
    · rintro ⟨p, hp, hpi⟩
      rw [placed_injective h hpi] at hp
      exact ⟨c, mem_children_iff.2 hp, rfl⟩
    · rintro ⟨c', hc', hcc⟩
      rw [placed_injective h hcc] at hc'
      exact ⟨i, mem_children_iff.1 hc', rfl⟩

/-- A tree that holds the nodes of another as they are read is that tree renumbered. -/
def Renumbering.ofHolds (h : t'.Holds t t.preorder) : t.Renumbering t' where
  num := placed h
  injective := placed_injective h
  text := h.text
  kind i := congrArg Arena.Entry.kind (entry_placed h i)
  label i := congrArg Arena.Entry.label (entry_placed h i)
  span i := congrArg Arena.Entry.span (entry_placed h i)
  parent := parent_placed h
  children := children_placed h

end Tree

theorem holds_root (t : Tree) :
    (Arena.root t.text (t.kind t.root) (t.label t.root) (t.span t.root)).Holds t [t.root] := by
  refine ⟨rfl, ?_⟩
  rw [List.map_singleton, Tree.entry, Tree.parent_eq_none_iff.2 rfl]
  rfl

/-- **A tree that was written down loads again**: the same nodes, each numbered by its place in the
    order of reading. -/
theorem load_ofTree (ht : t.Addressable) :
    ∃ (t' : Tree) (r : t.Renumbering t'), (TreeDocument.ofTree t).load = .ok t' ∧
      t'.nodes.size = t.nodes.size ∧ ∀ i, (r.num i).val = t.rank i := by
  have hpre : t.preorder = [t.root] ++ ((t.children t.root).map t.preorderFrom).flatten ++ [] := by
    rw [List.append_nil, Tree.preorder_eq, Tree.preorderFrom_eq]
    rfl
  obtain ⟨a, hload, ha⟩ := lays_addAllTo
    (fun c hc => lays_addTo ht (Tree.mem_children_iff.1 hc)) _ _ _ (holds_root t)
    List.mem_cons_self hpre
  rw [← List.append_nil ([t.root] ++ _), ← hpre] at ha
  obtain ⟨t', hfinish, rfl⟩ := Arena.exists_finish (Arena.violation?_eq_none ha.nested)
  refine ⟨t', .ofHolds ha, ?_, Tree.size_of_holds ha, fun i => rfl⟩
  rw [t.rank_root] at hload
  rw [TreeDocument.ofTree_eq, Outline.ofTree_eq]
  unfold TreeDocument.load
  dsimp only
  rw [ht.spanAt]
  refine bind_eq_ok.2 ⟨_, rfl, bind_eq_ok.2 ⟨_, ?_, hfinish⟩⟩
  rw [Outline.addStacked_stacked]
  exact hload

end Recast
