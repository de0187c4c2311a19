import Recast.Proofs.Detect.Total
import Recast.Proofs.Document.Layout

/-!
# Loading a document and writing it down again

A loaded tree is numbered as its document is read, so that writing it down gives the document back,
node for node and number for number. Only the order of the pairs is lost: a correspondence keeps
them sorted.

* `TreeDocument.laidOut_of_load`: a loaded tree holds the nodes of its document at their places;
* `ofTree_of_load`: the document of a loaded tree is the one it was loaded from;
* `rank_of_load`: the number of a node is its place in the order of reading;
* `pairs_of_loadPairs`: the pairs that were loaded are those of the document, sorted;
* `ofDiff_of_load`, `load_perm`: a loaded document comes back with its pairs sorted, and loads the
  same whatever their order;
* `rebuild_document`: **so it comes back as it was exactly when its pairs were sorted**, and nothing
  that is detected depends on their order.
-/

namespace Recast

open Outline (Place)

/-! ## 1. Trees at their places -/

theorem Arena.toArena_of_finish {a : Arena} {t : Tree} (h : a.finish = .ok t) : t.toArena = a := by
  unfold finish at h
  split at h
  · cases h
    rfl
  · cases h

/-- A document that loads has no span that overflows, and its tree is laid out. -/
theorem TreeDocument.laidOut_of_load {d : TreeDocument} {t : Tree} (h : d.load = .ok t) :
    (∀ x ∈ d.root.nodes, x.overflows = false) ∧ t.LaidOut d := by
  cases hfind : d.root.nodes.find? Outline.overflows with
  | some x =>
    rw [load_eq_overflow hfind] at h
    cases h
  | none =>
    have hfit : ∀ x ∈ d.root.nodes, x.overflows = false := fun x hx =>
      Bool.eq_false_iff.2 (List.find?_eq_none.1 hfind x hx)
    obtain ⟨a, hlaid, hload⟩ := load_eq_finish hfit
    rw [hload] at h
    obtain rfl : t.toArena = a := Arena.toArena_of_finish h
    exact ⟨hfit, hlaid⟩

namespace Arena.LaidOut

variable {t : Tree} {d : TreeDocument}

theorem size (h : t.LaidOut d) : t.nodes.size = d.root.size := by
  rw [← t.length_entries, h.entries, List.length_map, TreeDocument.places, Outline.length_places]

/-- There is a node at every place. -/
theorem exists_node {a : Arena} (h : a.LaidOut d) {x : Place} (hx : x ∈ d.places) :
    ∃ n, a.nodes[x.number]? = some n ∧ n.entry = x.entry := by
  have hentry : a.entries[x.number]? = some x.entry := by
    rw [h.entries, List.getElem?_map, TreeDocument.places, Outline.getElem?_places hx]
    rfl
  rw [getElem?_entries] at hentry
  exact Option.map_eq_some_iff.1 hentry

/-- What stands at a place. -/
theorem entry (h : t.LaidOut d) {x : Place} (hx : x ∈ d.places) {i : t.Id}
    (hi : i.val = x.number) : (t.node i).entry = x.entry := by
  obtain ⟨n, hn, hentry⟩ := h.exists_node hx
  rw [← hi, t.getElem?_nodes] at hn
  rw [Option.some.inj hn, hentry]

/-- Every node has a place. -/
theorem exists_place (h : t.LaidOut d) (i : t.Id) : ∃ x ∈ d.places, i.val = x.number := by
  have hmem : i.val ∈ d.places.map (·.number) := by
    rw [TreeDocument.places, Outline.map_number_places, List.mem_range'_1, ← h.size]
    have := i.isLt
    omega
  obtain ⟨x, hx, hnumber⟩ := List.mem_map.1 hmem
  exact ⟨x, hx, hnumber.symm⟩

theorem number_lt (h : t.LaidOut d) {x : Place} (hx : x ∈ d.places) : x.number < t.nodes.size := by
  have hmem : x.number ∈ d.places.map (·.number) := List.mem_map.2 ⟨x, hx, rfl⟩
  rw [TreeDocument.places, Outline.map_number_places, List.mem_range'_1, ← h.size] at hmem
  omega

theorem parent_eq_some_iff (h : t.LaidOut d) {x : Place} (hx : x ∈ d.places) {i p : t.Id}
    (hi : i.val = x.number) : t.parent i = some p ↔ x.parent = some p.val := by
  have hparent : (t.node i).parent = x.parent := congrArg Arena.Entry.parent (h.entry hx hi)
  rw [Tree.parent_eq_some_iff, hparent]

/-- The children of a node stand at the places of its children, in order. -/
theorem children (h : t.LaidOut d) {y : Place} (hy : y ∈ d.places) {i : t.Id}
    (hi : i.val = y.number) : (t.children i).map Fin.val = y.below.map (·.number) := by
  refine List.Pairwise.eq_of_mem_iff (r := (· < ·)) ?_ ?_ fun n => ?_
  · rw [List.pairwise_map]
    exact t.sorted_children i
  · rw [List.pairwise_map]
    exact Outline.sorted_heads _ _ _
  · rw [List.mem_map, List.mem_map]
    constructor
    · rintro ⟨c, hc, rfl⟩
      obtain ⟨x, hx, hnumber⟩ := h.exists_place c
      have hparent := (h.parent_eq_some_iff hx hnumber).1 (Tree.mem_children_iff.1 hc)
      rw [hi] at hparent
      exact ⟨x, Outline.mem_below hx hy hparent, hnumber.symm⟩
    · rintro ⟨x, hx, rfl⟩
      have hmem : x ∈ d.places := Outline.mem_places_of_below none 0 d.root hy hx
      have hparent : x.parent = some i.val := by
        rw [hi]
        exact Outline.parent_of_mem_heads hx
      refine ⟨⟨x.number, h.number_lt hmem⟩, ?_, rfl⟩
      exact Tree.mem_children_iff.2 ((h.parent_eq_some_iff hmem rfl).2 hparent)

end Arena.LaidOut

/-! ## 2. Writing a loaded tree down -/

/-- Nodes and places with the same numbers give the same list. -/
theorem map_eq_of_numbers {t : Tree} {f : t.Id → Outline} {cs : List t.Id} {xs : List Place}
    (h : cs.map Fin.val = xs.map (·.number))
    (hf : ∀ c ∈ cs, ∀ x ∈ xs, c.val = x.number → f c = x.node) : cs.map f = xs.map (·.node) := by
  induction cs generalizing xs with
  | nil =>
    cases xs with
    | nil => rfl
    | cons x xs => cases h
  | cons c cs ih =>
    cases xs with
    | nil => cases h
    | cons x xs =>
      rw [List.map_cons, List.map_cons, List.cons.injEq] at h
      have hhead := hf c List.mem_cons_self x List.mem_cons_self h.1
      have htail := ih h.2 fun c' hc' x' hx' =>
        hf c' (List.mem_cons_of_mem _ hc') x' (List.mem_cons_of_mem _ hx')
      rw [List.map_cons, List.map_cons, hhead, htail]

/-- **The outline of a node is what stands at its place.** -/
theorem Arena.LaidOut.ofTree {t : Tree} {d : TreeDocument} (h : t.LaidOut d) (i : t.Id) :
    ∀ x ∈ d.places, i.val = x.number → Outline.ofTree t i = x.node := by
  -- from the last node back, as children come after their parent
  induction hn : t.nodes.size - i.val using Nat.strongRecOn generalizing i with
  | ind n ih =>
    intro x hx hi
    have hentry := h.entry hx hi
    have hkind : t.kind i = x.node.kind := congrArg Arena.Entry.kind hentry
    have hlabel : t.label i = x.node.label := congrArg Arena.Entry.label hentry
    have hspan : t.span i = x.node.span := congrArg Arena.Entry.span hentry
    have hchildren : (t.children i).map (Outline.ofTree t) = x.node.children := by
      rw [map_eq_of_numbers (h.children hx hi), Place.below, Outline.map_node_heads]
      intro c hc y hy hcy
      have hlt := Tree.lt_of_mem_children hc
      have hc' := c.isLt
      refine ih (t.nodes.size - c.val) (by omega) c rfl y ?_ hcy
      exact Outline.mem_places_of_below none 0 d.root hx hy
    rw [Outline.ofTree_eq, hkind, hlabel, hspan, hchildren, Outline.span, Span.ofLength_length]
    generalize x.node = o
    obtain ⟨kind, label, pos, length, children⟩ := o
    rfl

/-- **The document of a loaded tree is the document it was loaded from.** -/
theorem TreeDocument.ofTree_of_load {d : TreeDocument} {t : Tree} (h : d.load = .ok t) :
    TreeDocument.ofTree t = d := by
  obtain ⟨-, hlaid⟩ := laidOut_of_load h
  have hroot : ⟨0, d.root, none⟩ ∈ d.places := by
    rw [places, Outline.places_eq]
    exact List.mem_cons_self
  have houtline := hlaid.ofTree t.root _ hroot rfl
  rw [ofTree_eq, houtline, hlaid.text]

/-! ## 3. Numbers -/

/-- A renumbering of a tree onto itself that keeps the root moves nothing: it maps the children of
    each node to themselves, in order. -/
theorem Tree.Renumbering.num_eq_self {t : Tree} (r : t.Renumbering t)
    (hroot : r.num t.root = t.root) (i : t.Id) : r.num i = i := by
  -- from the root down, along the parents
  induction hn : i.val using Nat.strongRecOn generalizing i with
  | ind n ih =>
    cases hp : t.parent i with
    | none =>
      rw [Tree.parent_eq_none_iff.1 hp]
      exact hroot
    | some p =>
      have hfixed : r.num p = p := ih p.val (hn ▸ Tree.parent_lt hp) p rfl
      have hchildren : (t.children p).map r.num = (t.children p).map id := by
        rw [← r.children, hfixed, List.map_id]
      exact List.map_inj_left.1 hchildren i (Tree.mem_children_iff.2 hp)

theorem Arena.LaidOut.addressable {t : Tree} {d : TreeDocument} (h : t.LaidOut d)
    (hfit : ∀ x ∈ d.root.nodes, x.overflows = false) : t.Addressable := by
  intro i
  obtain ⟨x, hx, hi⟩ := h.exists_place i
  have hspan : t.span i = x.node.span := congrArg Arena.Entry.span (h.entry hx hi)
  have hnode : x.node ∈ d.root.nodes := by
    rw [← Outline.map_node_places none 0 d.root]
    exact List.mem_map.2 ⟨x, hx, rfl⟩
  rw [hspan]
  exact Nat.le_of_not_lt (of_decide_eq_false (hfit x.node hnode))

/-- **A loaded tree is numbered as it is read.** -/
theorem TreeDocument.rank_of_load {d : TreeDocument} {t : Tree} (h : d.load = .ok t) (i : t.Id) :
    t.rank i = i.val := by
  obtain ⟨hfit, hlaid⟩ := laidOut_of_load h
  obtain ⟨t', r, hload, -, hnum⟩ := load_ofTree (hlaid.addressable hfit)
  -- written down and loaded again it is the same tree, renumbered by the places
  rw [ofTree_of_load h, h] at hload
  cases hload
  have hroot : r.num t.root = t.root := Fin.ext ((hnum t.root).trans t.rank_root)
  rw [← hnum i, r.num_eq_self hroot i]

theorem TreeDocument.rankOf_of_load {d : TreeDocument} {t : Tree} (h : d.load = .ok t) (n : Nat) :
    t.rankOf n = n := by
  unfold Tree.rankOf Tree.find?
  by_cases hn : n < t.nodes.size
  · rw [dif_pos hn]
    exact rank_of_load h ⟨n, hn⟩
  · rw [dif_neg hn]

/-! ## 4. Pairs -/

namespace Document

/-- **The pairs that were loaded are those of the document, sorted.** -/
theorem pairs_of_loadPairs {before after : Tree} {ps : List (Nat × Nat)} {m : Correspondence}
    (h : loadPairs before after .empty ps = .ok m) :
    m.pairs = ps.mergeSort fun p q => p.1 ≤ q.1 := by
  have hperm : m.pairs.Perm ps := Correspondence.perm_of_ofPairs (loadPairs_eq_ok.1 h).2
  exact (mergeSort_key_eq hperm.symm m.sorted).symm

/-- Pairs that load do so in any order, and make the same correspondence. -/
theorem loadPairs_perm {before after : Tree} {ps ps' : List (Nat × Nat)} {m : Correspondence}
    (h : loadPairs before after .empty ps = .ok m) (hp : ps'.Perm ps) :
    loadPairs before after .empty ps' = .ok m := by
  have hperm : m.pairs.Perm ps' := by
    rw [pairs_of_loadPairs h]
    exact (List.mergeSort_perm _ _).trans hp.symm
  have hrange := inRange_of_loadPairs h fun p hp => absurd hp List.not_mem_nil
  have hfst : ps'.Pairwise fun p q => p.1 ≠ q.1 :=
    (m.sorted.imp fun hlt => Nat.ne_of_lt hlt).perm hperm fun h => h.symm
  have hsnd : ps'.Pairwise fun p q => p.2 ≠ q.2 := m.injective.perm hperm fun h => h.symm
  obtain ⟨m', hm', hperm'⟩ := exists_loadPairs_empty
    (fun p hp => hrange p (hperm.symm.subset hp)) hfst hsnd
  rwa [Correspondence.eq_of_perm (hperm'.trans hperm.symm)] at hm'

/-! ## 5. Documents -/

theorem renumber_id (e : Edit) : e.renumber id id = e := by
  cases e <;> rfl

/-- **A loaded document comes back with its pairs sorted.** -/
theorem ofDiff_of_load {doc : Document} {d : Diff} (h : doc.load = .ok d) :
    ofDiff doc.path d = { doc with mapping := doc.mapping.mergeSort fun p q => p.1 ≤ q.1 } := by
  obtain ⟨hbefore, hafter, hpairs, -, hscript⟩ := load_eq_ok.1 h
  have hranksB : d.before.rankOf = id := funext (TreeDocument.rankOf_of_load hbefore)
  have hranksA : d.after.rankOf = id := funext (TreeDocument.rankOf_of_load hafter)
  have hmapping : (ofDiff doc.path d).mapping = doc.mapping.mergeSort fun p q => p.1 ≤ q.1 := by
    rw [ofDiff_eq, hranksB, hranksA, ← pairs_of_loadPairs hpairs]
    exact List.map_id _
  have hedits : d.script.map (Edit.renumber d.before.rankOf d.after.rankOf) = doc.script := by
    rw [hranksB, hranksA, hscript, funext renumber_id]
    exact List.map_id _
  rw [← hmapping, ofDiff_eq, TreeDocument.ofTree_of_load hbefore,
    TreeDocument.ofTree_of_load hafter, hedits]

theorem load_perm {doc : Document} {d : Diff} (h : doc.load = .ok d) {ps : List (Nat × Nat)}
    (hp : ps.Perm doc.mapping) : { doc with mapping := ps }.load = .ok d := by
  obtain ⟨hbefore, hafter, hpairs, hcheck, hscript⟩ := load_eq_ok.1 h
  exact load_eq_ok.2 ⟨hbefore, hafter, loadPairs_perm hpairs hp, hcheck, hscript⟩

theorem ofDiff_eq_self_iff {doc : Document} {d : Diff} (h : doc.load = .ok d) :
    ofDiff doc.path d = doc ↔ doc.mapping.Pairwise fun p q => p.1 < q.1 := by
  obtain ⟨-, -, hpairs, -, -⟩ := load_eq_ok.1 h
  have hsorted := pairs_of_loadPairs hpairs
  rw [ofDiff_of_load h]
  constructor
  · intro heq
    have hmapping : (doc.mapping.mergeSort fun p q => p.1 ≤ q.1) = doc.mapping :=
      congrArg Document.mapping heq
    rw [← hmapping, ← hsorted]
    exact d.mapping.sorted
  · intro hlt
    have hle : doc.mapping.Pairwise fun p q => decide (p.1 ≤ q.1) = true :=
      hlt.imp fun h => decide_eq_true (Nat.le_of_lt h)
    rw [List.mergeSort_of_pairwise hle]

end Document

/-- **A loaded document comes back, written down again, with its pairs sorted by the earlier node
    and nothing else changed**: as it was exactly when its pairs stood in increasing order. Their
    order changes neither what is loaded nor what is detected in it. -/
theorem rebuild_document (doc : Document) (d : Diff) (h : doc.load = .ok d) :
    Document.ofDiff doc.path d =
      { doc with mapping := doc.mapping.mergeSort fun p q => p.1 ≤ q.1 } ∧
    (Document.ofDiff doc.path d = doc ↔ doc.mapping.Pairwise fun p q => p.1 < q.1) ∧
    ∀ ps, ps.Perm doc.mapping → { doc with mapping := ps }.load = .ok d ∧
      ∀ passes, ∃ found, detect doc.path d passes = .ok found ∧
        ∀ d', { doc with mapping := ps }.load = .ok d' → detect doc.path d' passes = .ok found := by
  refine ⟨Document.ofDiff_of_load h, Document.ofDiff_eq_self_iff h, fun ps hp => ?_⟩
  have hload := Document.load_perm h hp
  refine ⟨hload, fun passes => ?_⟩
  obtain ⟨found, hfound⟩ := exists_detect (Document.numbered_of_load h).inRange doc.path passes
  refine ⟨found, hfound, fun d' hd' => ?_⟩
  obtain rfl : d = d' := Except.ok.inj (hload.symm.trans hd')
  exact hfound

/-- The renamed method, its pairs listed from the last node to the first. -/
def reversedPairs : Document := { renamedMethod with mapping := renamedMethod.mapping.reverse }

theorem rebuild_reversedPairs :
    ∃ d, reversedPairs.load = .ok d ∧ Document.ofDiff "A.java" d = renamedMethod ∧
      Document.ofDiff "A.java" d ≠ reversedPairs ∧ renamedMethod.load = .ok d := by
  obtain ⟨d, hd⟩ := exists_of_isOk (x := reversedPairs.load) (by decide +kernel)
  obtain ⟨-, hsame, hperm⟩ := rebuild_document reversedPairs d hd
  have hunsorted : ¬ reversedPairs.mapping.Pairwise fun p q => p.1 < q.1 := by decide +kernel
  have hload := (hperm renamedMethod.mapping (List.reverse_perm _).symm).1
  have hsorted : renamedMethod.mapping.Pairwise fun p q => p.1 < q.1 := by decide +kernel
  have hrebuilt := (rebuild_document renamedMethod d hload).2.1.2 hsorted
  exact ⟨d, hd, hrebuilt, fun he => hunsorted (hsame.1 he), hload⟩

end Recast
