import Recast.Proofs.Document.Reload

/-!
# Where the nodes of an outline go

Loading numbers the nodes of an outline as they are read. This file says which number each of them
gets and which number its parent has, without looking at arenas, and then that loading follows it.

* `Outline.Place`: a node of an outline with its number and that of its parent;
* `Outline.places`: the places of all nodes of an outline, as they are read;
* `Place.below`, `mem_places_of_below`, `eq_or_below_of_mem_places`: the places of the children of a
  node, and that there are no others;
* `addTo_eq_ok`, `addTo_eq_error`: **adding an outline appends its places, unless a span overflows:
  then the first that does is the error**;
* `Arena.LaidOut`: an arena holds the nodes of a document at their places.
-/

namespace Recast

namespace Outline

/-! ## 1. Parts of an outline -/

/-- The kind of the node at the top. -/
def kind : Outline → Kind
  | .node kind _ _ _ _ => kind

/-- The label of the node at the top. -/
def label : Outline → String
  | .node _ label _ _ _ => label

/-- The position of the node at the top. -/
def pos : Outline → Nat
  | .node _ _ pos _ _ => pos

/-- The length of the node at the top. -/
def length : Outline → Nat
  | .node _ _ _ length _ => length

/-- What is directly below the node at the top. -/
def children : Outline → List Outline
  | .node _ _ _ _ children => children

/-- The span of the node at the top. -/
def span (o : Outline) : Span := .ofLength o.pos o.length

/-- Whether the end of the node at the top is no offset any more. -/
def overflows (o : Outline) : Bool := Text.maxOffset < o.pos + o.length

mutual

/-- The nodes of an outline as they are read, each with what is below it. -/
def nodes : Outline → List Outline
  | .node kind label pos length children =>
    .node kind label pos length children :: nodesAll children

/-- The nodes of a list of outlines as they are read. -/
def nodesAll : List Outline → List Outline
  | [] => []
  | o :: os => o.nodes ++ nodesAll os

end

/-! ## 2. Places -/

/-- A node of an outline with its number and the number of its parent. -/
structure Place where
  number : Nat
  node : Outline
  parent : Option Nat

mutual

/-- The places of the nodes of an outline as they are read; the first has the number `start`. -/
def places (parent : Option Nat) (start : Nat) : Outline → List Place
  | .node kind label pos length children =>
    ⟨start, .node kind label pos length children, parent⟩ :: placesAll start (start + 1) children

/-- The places of the nodes of a list of outlines with a common parent. -/
def placesAll (parent start : Nat) : List Outline → List Place
  | [] => []
  | o :: os => o.places (some parent) start ++ placesAll parent (start + o.size) os

end

/-- The places of the outlines of a list themselves, without what is below them. -/
def heads (parent start : Nat) : List Outline → List Place
  | [] => []
  | o :: os => ⟨start, o, some parent⟩ :: heads parent (start + o.size) os

/-- The places of the children of a node. -/
def Place.below (x : Place) : List Place := heads x.number (x.number + 1) x.node.children

theorem places_eq (parent : Option Nat) (start : Nat) (o : Outline) :
    o.places parent start = ⟨start, o, parent⟩ :: placesAll start (start + 1) o.children := by
  obtain ⟨kind, label, pos, length, children⟩ := o
  rw [places, Outline.children]

theorem nodes_eq (o : Outline) : o.nodes = o :: nodesAll o.children := by
  obtain ⟨kind, label, pos, length, children⟩ := o
  rw [nodes, Outline.children]

theorem size_eq (o : Outline) : o.size = sizeAll o.children + 1 := by
  obtain ⟨kind, label, pos, length, children⟩ := o
  rw [size, Outline.children]

mutual

/-- The places are numbered one after the other. -/
theorem map_number_places (parent : Option Nat) (start : Nat) :
    (o : Outline) → (o.places parent start).map (·.number) = List.range' start o.size
  | .node kind label pos length children => by
    rw [places, List.map_cons, map_number_placesAll, size, List.range'_succ]

theorem map_number_placesAll (parent start : Nat) :
    (os : List Outline) →
      (placesAll parent start os).map (·.number) = List.range' start (sizeAll os)
  | [] => by
    rw [placesAll, sizeAll]
    rfl
  | o :: os => by
    rw [placesAll, List.map_append, map_number_places, map_number_placesAll, sizeAll,
      List.range'_append_1]

end

mutual

/-- The places are those of the nodes, in the order of reading. -/
theorem map_node_places (parent : Option Nat) (start : Nat) :
    (o : Outline) → (o.places parent start).map (·.node) = o.nodes
  | .node kind label pos length children => by
    rw [places, List.map_cons, map_node_placesAll, nodes]

theorem map_node_placesAll (parent start : Nat) :
    (os : List Outline) → (placesAll parent start os).map (·.node) = nodesAll os
  | [] => by
    rw [placesAll, nodesAll]
    rfl
  | o :: os => by
    rw [placesAll, List.map_append, map_node_places, map_node_placesAll, nodesAll]

end

theorem length_places (parent : Option Nat) (start : Nat) (o : Outline) :
    (o.places parent start).length = o.size := by
  have h := congrArg List.length (map_number_places parent start o)
  rwa [List.length_map, List.length_range'] at h

/-- The number of a place says where it stands. -/
theorem getElem?_places {o : Outline} {x : Place} (hx : x ∈ o.places none 0) :
    (o.places none 0)[x.number]? = some x := by
  obtain ⟨k, hk⟩ := List.mem_iff_getElem?.1 hx
  have hnumber : (List.range' 0 o.size)[k]? = some x.number := by
    rw [← map_number_places none 0 o, List.getElem?_map, hk]
    rfl
  obtain ⟨hlt, hget⟩ := List.getElem?_eq_some_iff.1 hnumber
  rw [List.getElem_range'] at hget
  have : x.number = k := by omega
  rw [this]
  exact hk

theorem eq_of_number_eq {o : Outline} {x y : Place} (hx : x ∈ o.places none 0)
    (hy : y ∈ o.places none 0) (h : x.number = y.number) : x = y := by
  have hx' := getElem?_places hx
  rw [h, getElem?_places hy] at hx'
  exact (Option.some.inj hx').symm

/-! ## 3. Parents and children -/

theorem map_node_heads (parent start : Nat) (os : List Outline) :
    (heads parent start os).map (·.node) = os := by
  induction os generalizing start with
  | nil => rfl
  | cons o os ih => rw [heads, List.map_cons, ih]

theorem Place.mem_children_iff {y : Place} {o : Outline} :
    o ∈ y.node.children ↔ ∃ x ∈ y.below, x.node = o := by
  rw [← map_node_heads y.number (y.number + 1) y.node.children, List.mem_map]
  rfl

theorem parent_of_mem_heads {parent start : Nat} {os : List Outline} {x : Place}
    (hx : x ∈ heads parent start os) : x.parent = some parent := by
  induction os generalizing start with
  | nil => cases hx
  | cons o os ih =>
    rcases List.mem_cons.1 hx with rfl | hx
    · rfl
    · exact ih hx

theorem start_le_of_mem_heads {parent start : Nat} {os : List Outline} {x : Place}
    (hx : x ∈ heads parent start os) : start ≤ x.number := by
  induction os generalizing start with
  | nil => cases hx
  | cons o os ih =>
    rcases List.mem_cons.1 hx with rfl | hx
    · exact Nat.le_refl _
    · exact Nat.le_trans (Nat.le_add_right _ _) (ih hx)

/-- Siblings are numbered from left to right. -/
theorem sorted_heads (parent start : Nat) (os : List Outline) :
    (heads parent start os).Pairwise fun x y => x.number < y.number := by
  induction os generalizing start with
  | nil => exact .nil
  | cons o os ih =>
    refine List.pairwise_cons.2 ⟨fun y hy => ?_, ih _⟩
    have hstart := start_le_of_mem_heads hy
    have hsize := o.size_eq
    show start < y.number
    omega

theorem heads_subset_placesAll {parent start : Nat} {os : List Outline} {x : Place}
    (hx : x ∈ heads parent start os) : x ∈ placesAll parent start os := by
  induction os generalizing start with
  | nil => cases hx
  | cons o os ih =>
    rw [placesAll, List.mem_append]
    rcases List.mem_cons.1 hx with rfl | hx
    · rw [places_eq]
      exact .inl List.mem_cons_self
    · exact .inr (ih hx)

mutual

/-- The children of a place are places. -/
theorem mem_places_of_below (parent : Option Nat) (start : Nat) : (o : Outline) → {x y : Place} →
    y ∈ o.places parent start → x ∈ y.below → x ∈ o.places parent start
  | .node kind label pos length children, x, y, hy, hx => by
    rw [places, List.mem_cons] at hy ⊢
    rcases hy with rfl | hy
    · exact .inr (heads_subset_placesAll hx)
    · exact .inr (mem_placesAll_of_below start (start + 1) children hy hx)

theorem mem_placesAll_of_below (parent start : Nat) : (os : List Outline) → {x y : Place} →
    y ∈ placesAll parent start os → x ∈ y.below → x ∈ placesAll parent start os
  | [], x, y, hy, hx => by
    rw [placesAll] at hy
    cases hy
  | o :: os, x, y, hy, hx => by
    rw [placesAll, List.mem_append] at hy ⊢
    rcases hy with hy | hy
    · exact .inl (mem_places_of_below (some parent) start o hy hx)
    · exact .inr (mem_placesAll_of_below parent (start + o.size) os hy hx)

end

mutual

/-- Every place is the first one or that of a child. -/
theorem eq_or_below_of_mem_places (parent : Option Nat) (start : Nat) : (o : Outline) →
    {x : Place} → x ∈ o.places parent start →
    x = ⟨start, o, parent⟩ ∨ ∃ y ∈ o.places parent start, x ∈ y.below
  | .node kind label pos length children, x, hx => by
    rw [places, List.mem_cons] at hx
    rcases hx with rfl | hx
    · exact .inl rfl
    · refine .inr ?_
      rw [places]
      rcases head_or_below_of_mem_placesAll start (start + 1) children hx with h | ⟨y, hy, h⟩
      · exact ⟨_, List.mem_cons_self, h⟩
      · exact ⟨y, List.mem_cons_of_mem _ hy, h⟩

theorem head_or_below_of_mem_placesAll (parent start : Nat) : (os : List Outline) → {x : Place} →
    x ∈ placesAll parent start os →
    x ∈ heads parent start os ∨ ∃ y ∈ placesAll parent start os, x ∈ y.below
  | [], x, hx => by
    rw [placesAll] at hx
    cases hx
  | o :: os, x, hx => by
    rw [placesAll, List.mem_append] at hx
    rw [placesAll, heads]
    rcases hx with hx | hx
    · rcases eq_or_below_of_mem_places (some parent) start o hx with rfl | ⟨y, hy, h⟩
      · exact .inl List.mem_cons_self
      · exact .inr ⟨y, List.mem_append_left _ hy, h⟩
    · rcases head_or_below_of_mem_placesAll parent (start + o.size) os hx with h | ⟨y, hy, h⟩
      · exact .inl (List.mem_cons_of_mem _ h)
      · exact .inr ⟨y, List.mem_append_right _ hy, h⟩

end

/-- A place that names another as its parent is one of its children. -/
theorem mem_below {o : Outline} {x y : Place} (hx : x ∈ o.places none 0) (hy : y ∈ o.places none 0)
    (hp : x.parent = some y.number) : x ∈ y.below := by
  rcases eq_or_below_of_mem_places none 0 o hx with rfl | ⟨z, hz, hbelow⟩
  · cases hp
  · have hzp : x.parent = some z.number := parent_of_mem_heads hbelow
    have hnumber : z.number = y.number := Option.some.inj (hzp.symm.trans hp)
    rwa [eq_of_number_eq hz hy hnumber] at hbelow

/-! ## 4. Loading -/

/-- What an arena stores of a place. -/
def Place.entry (x : Place) : Arena.Entry := ⟨x.node.kind, x.node.label, x.node.span, x.parent⟩

end Outline

/-- An arena has grown by these places. -/
structure Arena.Grown (a a' : Arena) (xs : List Outline.Place) : Prop where
  text : a'.text = a.text
  entries : a'.entries = a.entries ++ xs.map Outline.Place.entry

namespace Arena.Grown

theorem nil (a : Arena) : a.Grown a [] := ⟨rfl, (List.append_nil _).symm⟩

theorem trans {a b c : Arena} {xs ys : List Outline.Place} (h₁ : a.Grown b xs)
    (h₂ : b.Grown c ys) : a.Grown c (xs ++ ys) where
  text := h₂.text.trans h₁.text
  entries := by rw [h₂.entries, h₁.entries, List.map_append, List.append_assoc]

theorem size {a a' : Arena} {xs : List Outline.Place} (h : a.Grown a' xs) :
    a'.nodes.size = a.nodes.size + xs.length := by
  rw [← a'.length_entries, h.entries, List.length_append, List.length_map, a.length_entries]

end Arena.Grown

namespace Outline

theorem spanAt_eq_ok {o : Outline} (h : o.overflows = false) :
    spanAt o.pos o.length = .ok o.span := by
  have hle : o.pos + o.length ≤ Text.maxOffset := Nat.le_of_not_lt (of_decide_eq_false h)
  rw [spanAt, if_pos hle]
  rfl

theorem spanAt_eq_error {o : Outline} (h : o.overflows = true) :
    spanAt o.pos o.length = .error (.spanOverflow o.pos o.length) := by
  have hlt : Text.maxOffset < o.pos + o.length := of_decide_eq_true h
  rw [spanAt, if_neg (Nat.not_le.2 hlt)]

theorem addTo_eq (a : Arena) (parent : Nat) (o : Outline) :
    addTo a parent o = spanAt o.pos o.length >>= fun span =>
      a.push parent o.kind o.label span >>= fun a' => addAllTo a' a.size o.children := by
  obtain ⟨kind, label, pos, length, children⟩ := o
  rw [addTo]
  rfl

/-- **One step**: a node is pushed at its place. -/
theorem push_grown {a : Arena} {parent : Nat} (hp : parent < a.nodes.size) (o : Outline) :
    ∃ a', a.push parent o.kind o.label o.span = .ok a' ∧
      a.Grown a' [⟨a.nodes.size, o, some parent⟩] := by
  obtain ⟨a', h, htext, hentries⟩ := Arena.push_eq hp o.kind o.label o.span
  exact ⟨a', h, htext, hentries⟩

mutual

/-- **Adding an outline without overflow appends its places.** -/
theorem addTo_eq_ok : (o : Outline) → {a : Arena} → {parent : Nat} → parent < a.nodes.size →
    (∀ x ∈ o.nodes, x.overflows = false) →
    ∃ a', addTo a parent o = .ok a' ∧ a.Grown a' (o.places (some parent) a.nodes.size)
  | .node kind label pos length children, a, parent, hp, hfit => by
    rw [nodes, List.forall_mem_cons] at hfit
    obtain ⟨a₁, h₁, hgrown₁⟩ := push_grown hp (.node kind label pos length children)
    have hsize : a₁.nodes.size = a.nodes.size + 1 := hgrown₁.size
    have hparent : a.nodes.size < a₁.nodes.size := by omega
    obtain ⟨a₂, h₂, hgrown₂⟩ := addAllTo_eq_ok children hparent hfit.2
    refine ⟨a₂, ?_, ?_⟩
    · rw [addTo_eq, spanAt_eq_ok hfit.1]
      exact bind_eq_ok.2 ⟨_, rfl, bind_eq_ok.2 ⟨a₁, h₁, h₂⟩⟩
    · rw [places, ← hsize]
      exact hgrown₁.trans hgrown₂

theorem addAllTo_eq_ok : (os : List Outline) → {a : Arena} → {parent : Nat} →
    parent < a.nodes.size → (∀ x ∈ nodesAll os, x.overflows = false) →
    ∃ a', addAllTo a parent os = .ok a' ∧ a.Grown a' (placesAll parent a.nodes.size os)
  | [], a, parent, _, _ => by
    rw [addAllTo, placesAll]
    exact ⟨a, rfl, .nil a⟩
  | o :: os, a, parent, hp, hfit => by
    rw [nodesAll, List.forall_mem_append] at hfit
    obtain ⟨a₁, h₁, hgrown₁⟩ := addTo_eq_ok o hp hfit.1
    have hsize : a₁.nodes.size = a.nodes.size + o.size := by
      rw [hgrown₁.size, length_places]
    have hparent : parent < a₁.nodes.size := by omega
    obtain ⟨a₂, h₂, hgrown₂⟩ := addAllTo_eq_ok os hparent hfit.2
    refine ⟨a₂, ?_, ?_⟩
    · rw [addAllTo]
      exact bind_eq_ok.2 ⟨a₁, h₁, h₂⟩
    · rw [placesAll, ← hsize]
      exact hgrown₁.trans hgrown₂

end

mutual

/-- **Adding an outline stops at the first node whose span overflows.** -/
theorem addTo_eq_error : (o : Outline) → {a : Arena} → {parent : Nat} → {x : Outline} →
    parent < a.nodes.size → o.nodes.find? overflows = some x →
    addTo a parent o = .error (.spanOverflow x.pos x.length)
  | .node kind label pos length children, a, parent, x, hp, hx => by
    rw [nodes] at hx
    rw [addTo_eq]
    cases htop : (node kind label pos length children).overflows with
    | true =>
      rw [List.find?_cons_of_pos htop] at hx
      cases hx
      rw [spanAt_eq_error htop]
      rfl
    | false =>
      rw [List.find?_cons_of_neg (by rw [htop]; decide)] at hx
      obtain ⟨a₁, h₁, hgrown₁⟩ := push_grown hp (.node kind label pos length children)
      have hparent : a.nodes.size < a₁.nodes.size := by
        rw [hgrown₁.size]
        exact Nat.lt_succ_self _
      rw [spanAt_eq_ok htop]
      show (a.push parent _ _ _ >>= _) = _
      rw [h₁]
      exact addAllTo_eq_error children hparent hx

theorem addAllTo_eq_error : (os : List Outline) → {a : Arena} → {parent : Nat} → {x : Outline} →
    parent < a.nodes.size → (nodesAll os).find? overflows = some x →
    addAllTo a parent os = .error (.spanOverflow x.pos x.length)
  | [], a, parent, x, _, hx => by
    rw [nodesAll] at hx
    cases hx
  | o :: os, a, parent, x, hp, hx => by
    rw [nodesAll, List.find?_append, Option.or_eq_some_iff] at hx
    rw [addAllTo]
    rcases hx with hx | ⟨hnone, hx⟩
    · rw [addTo_eq_error o hp hx]
      rfl
    · have hfit : ∀ y ∈ o.nodes, y.overflows = false := fun y hy =>
        Bool.eq_false_iff.2 (List.find?_eq_none.1 hnone y hy)
      obtain ⟨a₁, h₁, hgrown₁⟩ := addTo_eq_ok o hp hfit
      rw [h₁]
      exact addAllTo_eq_error os (by rw [hgrown₁.size]; omega) hx

end

end Outline

namespace TreeDocument

/-- The places of the nodes of a document. -/
def places (d : TreeDocument) : List Outline.Place := d.root.places none 0

theorem load_eq (d : TreeDocument) :
    d.load = Outline.spanAt d.root.pos d.root.length >>= fun span =>
      Outline.addAllTo (Arena.root d.text d.root.kind d.root.label span) 0 d.root.children >>=
        Arena.finish := by
  obtain ⟨text, ⟨kind, label, pos, length, children⟩⟩ := d
  simp only [load, Outline.addStacked_stacked]
  rfl

end TreeDocument

/-- An arena holds the nodes of a document at their places. -/
structure Arena.LaidOut (a : Arena) (d : TreeDocument) : Prop where
  text : a.text = d.text
  entries : a.entries = d.places.map Outline.Place.entry

namespace TreeDocument

/-- **A document without overflow is laid out at its places** before the spans are compared. -/
theorem load_eq_finish {d : TreeDocument} (h : ∀ x ∈ d.root.nodes, x.overflows = false) :
    ∃ a : Arena, a.LaidOut d ∧ d.load = a.finish := by
  obtain ⟨text, root⟩ := d
  dsimp only at h
  rw [Outline.nodes_eq, List.forall_mem_cons] at h
  have hroot : 0 < (Arena.root text root.kind root.label root.span).nodes.size := Nat.zero_lt_one
  obtain ⟨a, ha, hgrown⟩ := Outline.addAllTo_eq_ok root.children hroot h.2
  refine ⟨a, ⟨hgrown.text, ?_⟩, ?_⟩
  · rw [hgrown.entries, places, Outline.places_eq]
    rfl
  · rw [load_eq, Outline.spanAt_eq_ok h.1]
    show (Outline.addAllTo _ 0 _ >>= Arena.finish) = _
    rw [ha]
    rfl

/-- **Loading stops at the first node whose span overflows.** -/
theorem load_eq_overflow {d : TreeDocument} {x : Outline}
    (h : d.root.nodes.find? Outline.overflows = some x) :
    d.load = .error (.spanOverflow x.pos x.length) := by
  obtain ⟨text, root⟩ := d
  dsimp only at h
  rw [Outline.nodes_eq] at h
  rw [load_eq]
  cases htop : root.overflows with
  | true =>
    rw [List.find?_cons_of_pos htop] at h
    cases h
    rw [Outline.spanAt_eq_error htop]
    rfl
  | false =>
    rw [List.find?_cons_of_neg (by rw [htop]; decide)] at h
    rw [Outline.spanAt_eq_ok htop]
    show (Outline.addAllTo _ 0 _ >>= Arena.finish) = _
    rw [Outline.addAllTo_eq_error root.children Nat.zero_lt_one h]
    rfl

end TreeDocument

end Recast
