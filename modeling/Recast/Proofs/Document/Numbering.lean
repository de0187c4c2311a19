import Mathlib.Data.List.FinRange
import Recast.Proofs.Detect.RoundTrip
import Recast.Proofs.Document.Rebuild

/-!
# Numbers in the order of reading

Writing a tree down numbers its nodes anew, whatever the order in which they were added. This file
says what the new numbers are, without walking the tree, and that loading gives out the same.

* `siblingNumbers`: the numbers of siblings, each leaving room for what is below the one before;
* `Tree.NumbersAsRead`: a root with the number 0, and children numbered right after their parent;
* `exists_preorder_eq`: what is below a node is read in one go;
* `numbersAsRead_iff`: **the places are the only numbers of this kind**;
* `getElem?_write_iff`: so they are what the table holds that goes with the document of a tree;
* `Tree.StandsAt`: a node of a tree is what an outline has at a place;
* `document_numbering`: **a tree comes back renumbered by its table, and a document comes back as
  it was, its nodes numbered as they stand in it.**
-/

namespace Recast

/-! ## 1. Siblings -/

/-- The numbers of siblings when a tree is numbered as it is read: the first has the number `start`,
    and each of the others comes after everything below the one before. -/
def siblingNumbers (start : Nat) : List Nat → List Nat
  | [] => []
  | size :: sizes => start :: siblingNumbers (start + size) sizes

theorem Outline.map_number_heads (parent start : Nat) (os : List Outline) :
    (heads parent start os).map (·.number) = siblingNumbers start (os.map size) := by
  induction os generalizing start with
  | nil => rfl
  | cons o os ih =>
    rw [heads, List.map_cons, ih, List.map_cons, siblingNumbers]

namespace Tree

variable {t : Tree}

/-- Numbers for the nodes of a tree that follow the order of reading. -/
structure NumbersAsRead (t : Tree) (num : t.Id → Nat) : Prop where
  root : num t.root = 0
  children : ∀ i, (t.children i).map num =
    siblingNumbers (num i + 1) ((t.children i).map t.weight)

/-! ## 2. Places -/

theorem length_preorderFrom (t : Tree) (i : t.Id) : (t.preorderFrom i).length = t.weight i := by
  fun_induction preorderFrom t i with
  | case1 i ih =>
    have hall : ∀ cs : List t.Id, (∀ c ∈ cs, c ∈ t.children i) →
        (cs.map t.preorderFrom).flatten.length = Term.sizes (cs.map t.term) := by
      intro cs hcs
      induction cs with
      | nil => rfl
      | cons c cs ihs =>
        have hc : (t.preorderFrom c).length = (t.term c).size := ih c (hcs c List.mem_cons_self)
        have hrest := ihs fun d hd => hcs d (List.mem_cons_of_mem _ hd)
        rw [List.map_cons, List.flatten_cons, List.length_append, hc, hrest, List.map_cons,
          Term.sizes]
    rw [← preorderFrom, preorderFrom_eq, List.length_cons, hall _ fun _ hc => hc, weight_eq,
      Nat.add_comm]

/-- **What is below a node is read in one go.** -/
theorem exists_preorder_eq (t : Tree) (i : t.Id) :
    ∃ pre post, t.preorder = pre ++ t.preorderFrom i ++ post := by
  -- from the root down: a node is read among the children of its parent
  induction hn : i.val using Nat.strongRecOn generalizing i with
  | ind n ih =>
    cases hp : t.parent i with
    | none =>
      refine ⟨[], [], ?_⟩
      rw [parent_eq_none_iff.1 hp, preorder_eq, List.nil_append, List.append_nil]
    | some p =>
      obtain ⟨pre, post, hpre⟩ := ih p.val (hn ▸ parent_lt hp) p rfl
      obtain ⟨left, right, hsplit⟩ := List.append_of_mem (mem_children_iff.2 hp)
      refine ⟨pre ++ p :: (left.map t.preorderFrom).flatten,
        (right.map t.preorderFrom).flatten ++ post, ?_⟩
      rw [hpre, preorderFrom_eq t p, hsplit]
      simp

/-- Subtrees that are read one after the other start where the sizes of those before say. -/
theorem map_rank_eq {pre post : List t.Id} {cs : List t.Id}
    (h : t.preorder = pre ++ (cs.map t.preorderFrom).flatten ++ post) :
    cs.map t.rank = siblingNumbers pre.length (cs.map t.weight) := by
  induction cs generalizing pre with
  | nil => rfl
  | cons c cs ih =>
    have hrest : t.preorder =
        (pre ++ t.preorderFrom c) ++ (cs.map t.preorderFrom).flatten ++ post := by
      rw [h]
      simp
    have hfirst : t.preorder = pre ++ c :: (((t.children c).map t.preorderFrom).flatten ++
        (cs.map t.preorderFrom).flatten ++ post) := by
      rw [hrest, preorderFrom_eq t c]
      simp
    have htail := ih hrest
    rw [List.length_append, length_preorderFrom] at htail
    rw [List.map_cons, List.map_cons, siblingNumbers, rank_eq_length hfirst, htail]

theorem numbersAsRead_rank (t : Tree) : t.NumbersAsRead t.rank where
  root := t.rank_root
  children i := by
    obtain ⟨pre, post, hpre⟩ := t.exists_preorder_eq i
    rw [preorderFrom_eq] at hpre
    have hself : t.preorder =
        pre ++ i :: (((t.children i).map t.preorderFrom).flatten ++ post) := by
      rw [hpre]
      simp
    have hbelow : t.preorder =
        (pre ++ [i]) ++ ((t.children i).map t.preorderFrom).flatten ++ post := by
      rw [hpre]
      simp
    rw [map_rank_eq hbelow, rank_eq_length hself, List.length_append, List.length_singleton]

/-- **The places are the only numbers that follow the order of reading.** -/
theorem numbersAsRead_iff {num : t.Id → Nat} : t.NumbersAsRead num ↔ num = t.rank := by
  constructor
  · intro h
    funext i
    -- the number of the parent decides those of all its children
    induction hn : i.val using Nat.strongRecOn generalizing i with
    | ind n ih =>
      cases hp : t.parent i with
      | none => rw [parent_eq_none_iff.1 hp, h.root, t.rank_root]
      | some p =>
        have hparent : num p = t.rank p := ih p.val (hn ▸ parent_lt hp) p rfl
        have hchildren : (t.children p).map num = (t.children p).map t.rank := by
          rw [h.children, t.numbersAsRead_rank.children, hparent]
        exact List.map_inj_left.1 hchildren i (mem_children_iff.2 hp)
  · intro h
    rw [h]
    exact t.numbersAsRead_rank

theorem rank_getElem {k : Nat} (hk : k < t.preorder.length) : t.rank t.preorder[k] = k :=
  t.nodup_preorder.idxOf_getElem k hk

/-- Every number below the size is the place of one node. -/
theorem existsUnique_rank_eq {k : Nat} (hk : k < t.nodes.size) : ∃! i, t.rank i = k := by
  have hk' : k < t.preorder.length := by rwa [length_preorder]
  have hrank : t.rank t.preorder[k] = k := rank_getElem hk'
  exact ⟨t.preorder[k], hrank, fun j hj => rank_injective (hj.trans hrank.symm)⟩

/-! ## 3. The table -/

/-- Every node has its place in the table. -/
theorem getElem?_write (t : Tree) (i : t.Id) :
    (TreeDocument.write t).2[i.val]? = some (t.rank i) := by
  rw [TreeDocument.getElem?_write, find?_eq_some_iff.2 rfl, Option.map_some]

/-- **The list of the new numbers gives every node, in order, its place.** -/
theorem numbering_eq (t : Tree) : t.numbering = t.ids.map fun i => (i, t.rank i) := by
  unfold numbering
  dsimp only
  rw [← List.filterMap_eq_map]
  refine List.filterMap_congr fun i _ => ?_
  rw [getElem?_write]
  rfl

/-- **The table holds the only numbers that follow the order of reading.** -/
theorem getElem?_write_iff {num : t.Id → Nat} :
    (∀ i, (TreeDocument.write t).2[i.val]? = some (num i)) ↔ t.NumbersAsRead num := by
  simp only [numbersAsRead_iff, getElem?_write, Option.some_inj, funext_iff, eq_comm]

theorem existsUnique_getElem?_write {k : Nat} (hk : k < t.nodes.size) :
    ∃! i : t.Id, (TreeDocument.write t).2[i.val]? = some k := by
  simp only [getElem?_write, Option.some_inj]
  exact existsUnique_rank_eq hk

/-! ## 4. Loaded trees -/

/-- A node is what stands at a place of an outline: the same kind and label, the span from its
    position over its length, the same parent, and its children at the numbers that their sizes
    say. -/
structure StandsAt (t : Tree) (k : t.Id) (x : Outline.Place) : Prop where
  number : x.number = k.val
  kind : t.kind k = x.node.kind
  label : t.label k = x.node.label
  start : (t.span k).start = x.node.pos
  stop : (t.span k).stop = x.node.pos + x.node.length
  parent : (t.parent k).map Fin.val = x.parent
  children : (t.children k).map Fin.val =
    siblingNumbers (k.val + 1) (x.node.children.map Outline.size)

end Tree

theorem Arena.LaidOut.standsAt {t : Tree} {d : TreeDocument} (h : t.LaidOut d) {x : Outline.Place}
    (hx : x ∈ d.places) {k : t.Id} (hk : k.val = x.number) : t.StandsAt k x := by
  have hentry := h.entry hx hk
  have hspan : t.span k = x.node.span := congrArg Arena.Entry.span hentry
  refine ⟨hk.symm, congrArg Arena.Entry.kind hentry, congrArg Arena.Entry.label hentry,
    ?_, ?_, ?_, ?_⟩
  · rw [hspan]
    rfl
  · rw [hspan]
    rfl
  · cases hp : t.parent k with
    | some p => exact ((h.parent_eq_some_iff hx hk).1 hp).symm
    | none =>
      -- only the root has no parent, and its place names none
      have hnode : (t.node k).parent = x.parent := congrArg Arena.Entry.parent hentry
      have hroot : k.val = 0 := congrArg Fin.val (Tree.parent_eq_none_iff.1 hp)
      rw [← hnode, (t.linked.parent_eq_none_iff (t.getElem?_nodes k)).2 hroot]
      rfl
  · rw [h.children hx hk, Outline.Place.below, Outline.map_number_heads, hk]

/-- Every node of a loaded tree is the one that is read at its number. -/
theorem TreeDocument.exists_standsAt {d : TreeDocument} {t : Tree} (h : d.load = .ok t)
    (k : t.Id) : ∃ x, d.places[k.val]? = some x ∧ d.root.nodes[k.val]? = some x.node ∧
      t.StandsAt k x := by
  obtain ⟨-, hlaid⟩ := laidOut_of_load h
  obtain ⟨x, hx, hk⟩ := hlaid.exists_place k
  have hplace : d.places[k.val]? = some x := by
    rw [hk]
    exact Outline.getElem?_places hx
  refine ⟨x, hplace, ?_, hlaid.standsAt hx hk⟩
  rw [← Outline.map_node_places none 0 d.root, List.getElem?_map]
  exact congrArg (Option.map (·.node)) hplace

/-! ## 5. Both ways -/

/-- **Numbers in documents are places in the order of reading.** The table that goes with the
    document of a tree, and the list that is made of it, is a bijection from its nodes onto the
    numbers below its size, the only one that follows the order of reading, and the document loads
    as the tree renumbered by it. A document that loads gives a tree whose nodes stand where they
    are read, and both come back: the document as it was, with the table that changes nothing. -/
theorem document_numbering :
    (∀ t : Tree,
      let document := (TreeDocument.write t).1
      let numbers := (TreeDocument.write t).2
      numbers.size = t.nodes.size ∧
      (∀ i : t.Id, numbers[i.val]? = some (t.rank i) ∧ t.rank i < t.nodes.size) ∧
      t.numbering = t.ids.map (fun i => (i, t.rank i)) ∧
      (∀ k < t.nodes.size, ∃! i : t.Id, numbers[i.val]? = some k) ∧
      (∀ num : t.Id → Nat, (∀ i, numbers[i.val]? = some (num i)) ↔ t.NumbersAsRead num) ∧
      (t.Addressable → ∃ (t' : Tree) (r : t.Renumbering t'), document.load = .ok t' ∧
        t'.nodes.size = t.nodes.size ∧ ∀ i, numbers[i.val]? = some (r.num i).val)) ∧
    ∀ (d : TreeDocument) (t : Tree), d.load = .ok t →
      t.text = d.text ∧ t.nodes.size = d.root.nodes.length ∧
      (∀ k : t.Id, ∃ x, d.places[k.val]? = some x ∧ d.root.nodes[k.val]? = some x.node ∧
        t.StandsAt k x) ∧
      (TreeDocument.write t).1 = d ∧
      ∀ i : t.Id, (TreeDocument.write t).2[i.val]? = some i.val := by
  refine ⟨fun t => ?_, fun d t h => ?_⟩
  · refine ⟨TreeDocument.size_write t, fun i => ⟨t.getElem?_write i, t.rank_lt i⟩, t.numbering_eq,
      fun k hk => Tree.existsUnique_getElem?_write hk, fun num => Tree.getElem?_write_iff,
      fun ht => ?_⟩
    obtain ⟨t', r, hload, hsize, hnum⟩ := load_ofTree ht
    refine ⟨t', r, hload, hsize, fun i => ?_⟩
    rw [hnum]
    exact t.getElem?_write i
  · obtain ⟨-, hlaid⟩ := TreeDocument.laidOut_of_load h
    have hsize : t.nodes.size = d.root.nodes.length := by
      rw [hlaid.size, ← Outline.length_places none 0, ← Outline.map_node_places none 0,
        List.length_map]
    refine ⟨hlaid.text, hsize, TreeDocument.exists_standsAt h, TreeDocument.ofTree_of_load h,
      fun i => ?_⟩
    rw [t.getElem?_write, TreeDocument.rank_of_load h]

/-- What is below the first field was added last, so that the tree is not numbered as it is
    read. -/
theorem document_numbering_changedMembers :
    let t := changedMembers.before
    t.Addressable ∧ (∃ i : t.Id, i.val = 4 ∧ (TreeDocument.write t).2[i.val]? = some 9) ∧
      ∃ (t' : Tree) (r : t.Renumbering t'), (TreeDocument.write t).1.load = .ok t' ∧
        (∀ i, (TreeDocument.write t).2[i.val]? = some (r.num i).val) ∧
        (TreeDocument.write t').1 = (TreeDocument.write t).1 ∧
        ∀ i : t'.Id, (TreeDocument.write t').2[i.val]? = some i.val := by
  intro t
  have ht : t.Addressable := by
    unfold Tree.Addressable
    decide +kernel
  have hfour : ∃ i : t.Id, i.val = 4 ∧ (TreeDocument.write t).2[i.val]? = some 9 :=
    ⟨⟨4, by decide +kernel⟩, rfl, by decide +kernel⟩
  obtain ⟨htree, hdocument⟩ := document_numbering
  obtain ⟨-, -, -, -, -, hwritten⟩ := htree t
  obtain ⟨t', r, hload, -, hnum⟩ := hwritten ht
  obtain ⟨-, -, -, hback, htable⟩ := hdocument _ t' hload
  exact ⟨ht, hfour, t', r, hload, hnum, hback, htable⟩

end Recast
