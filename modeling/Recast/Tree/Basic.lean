import Recast.Fault
import Recast.Tree.Arena

/-!
# Syntax trees

A tree is an arena whose spans are nested: this file fixes what can be asked of it.

* A node is named by `t.Id`, a number below the size of the tree, so that an accessor always has an
  answer. `Tree.find?` and `Tree.resolve` turn a loose number into such a name; that is the only
  place where a number can turn out to be wrong.
* `parent`, `children` and `ancestors` follow the links; `mem_children_iff` says that the first two
  agree.
* `sourceText` is the text a node covers, `displayLabel` what stands for it in messages.
-/

namespace Recast

/-! ## 1. Trees and the names of their nodes -/

/-- An arena whose spans are nested in each other and in the text. -/
structure Tree extends Arena where
  nested : toArena.Nested

/-- The tree an arena makes, or its first wrong span. -/
def Arena.finish (a : Arena) : Except TreeError Tree :=
  match h : a.violation? with
  | none => .ok ⟨a, Arena.nested_of_violation? h⟩
  | some e => .error e

namespace Tree

instance : DecidableEq Tree := fun s t =>
  if h : s.text = t.text ∧ s.nodes = t.nodes then
    .isTrue (by
      obtain ⟨⟨_, _, _⟩, _⟩ := s
      obtain ⟨⟨_, _, _⟩, _⟩ := t
      simp_all)
  else .isFalse (fun e => h (e ▸ ⟨rfl, rfl⟩))

/-- The name of a node: a number below the size of its tree. -/
abbrev Id (t : Tree) : Type := Fin t.nodes.size

/-- The node with a given number, if there is one. -/
def find? (t : Tree) (i : Nat) : Option t.Id := if h : i < t.nodes.size then some ⟨i, h⟩ else none

/-- The node with a given number; a number that is not there is a fault. -/
def resolve (t : Tree) (i : Nat) : Except Fault t.Id :=
  if h : i < t.nodes.size then .ok ⟨i, h⟩ else .error (.missingNode t.nodes.size i)

theorem find?_eq_some_iff {t : Tree} {n : Nat} {i : t.Id} : t.find? n = some i ↔ i.val = n := by
  unfold find?
  split
  · rw [Option.some.injEq, Fin.ext_iff, eq_comm]
  · rename_i hn
    constructor
    · intro h
      cases h
    · intro h
      exact absurd (h ▸ i.isLt) hn

theorem resolve_of_lt {t : Tree} {i : Nat} (h : i < t.nodes.size) : t.resolve i = .ok ⟨i, h⟩ := by
  simp [resolve, h]

theorem resolve_eq_ok {t : Tree} {n : Nat} {i : t.Id} : t.resolve n = .ok i ↔ i.val = n := by
  unfold resolve
  split
  · simp [Fin.ext_iff, eq_comm]
  · rename_i hn
    constructor
    · intro h
      cases h
    · rintro rfl
      exact absurd i.isLt hn

theorem resolve_val (t : Tree) (i : t.Id) : t.resolve i.val = .ok i := resolve_of_lt i.isLt

/-- The root. -/
def root (t : Tree) : t.Id := ⟨0, t.linked.nonempty⟩

/-- Every node, in the order of the numbers. -/
def ids (t : Tree) : List t.Id := List.finRange t.nodes.size

theorem mem_ids (t : Tree) (i : t.Id) : i ∈ t.ids := List.mem_finRange i

/-! ## 2. What a node says -/

/-- The record of a node. -/
def node (t : Tree) (i : t.Id) : Node := t.nodes[i]

theorem getElem?_nodes (t : Tree) (i : t.Id) : t.nodes[i.val]? = some (t.node i) := by
  simp [node]

/-- The kind of a node. -/
def kind (t : Tree) (i : t.Id) : Kind := (t.node i).kind

/-- The label of a node. -/
def label (t : Tree) (i : t.Id) : String := (t.node i).label

/-- The span of a node. -/
def span (t : Tree) (i : t.Id) : Span := (t.node i).span

/-- Whether a node is a reference to a type. -/
def isType (t : Tree) (i : t.Id) : Bool := (t.kind i).isType

/-! ## 3. Links -/

theorem parent_val_lt (t : Tree) {i : t.Id} {p : Nat} (h : (t.node i).parent = some p) :
    p < i.val :=
  t.linked.parent_lt (t.getElem?_nodes i) h

/-- The parent of a node; the root has none. -/
def parent (t : Tree) (i : t.Id) : Option t.Id :=
  match h : (t.node i).parent with
  | none => none
  | some p => some ⟨p, Nat.lt_trans (t.parent_val_lt h) i.isLt⟩

theorem parent_eq_some_iff {t : Tree} {i p : t.Id} :
    t.parent i = some p ↔ (t.node i).parent = some p.val := by
  unfold parent
  split <;> simp_all [Fin.ext_iff]

theorem parent_eq_none_iff {t : Tree} {i : t.Id} : t.parent i = none ↔ i = t.root := by
  have h := t.linked.parent_eq_none_iff (t.getElem?_nodes i)
  rw [Fin.ext_iff, root, ← h]
  unfold parent
  split <;> simp_all

/-- A parent comes before its children. -/
theorem parent_lt {t : Tree} {i p : t.Id} (h : t.parent i = some p) : p.val < i.val :=
  t.parent_val_lt (parent_eq_some_iff.1 h)

/-- The children of a node, from left to right. -/
def children (t : Tree) (i : t.Id) : List t.Id :=
  (t.node i).children.toList.pmap (fun c h => ⟨c, h⟩) fun _ hc =>
    t.linked.child_lt (t.getElem?_nodes i) hc

/-- A node is a child of its parent, and of no other node. -/
theorem mem_children_iff {t : Tree} {i c : t.Id} : c ∈ t.children i ↔ t.parent c = some i := by
  have h := t.linked.mem_children_iff (c := c.val) (t.getElem?_nodes i)
  rw [parent_eq_some_iff, children, List.mem_pmap]
  constructor
  · rintro ⟨d, hd, rfl⟩
    obtain ⟨m, hm, hp⟩ := h.1 hd
    rw [t.getElem?_nodes] at hm
    cases hm
    exact hp
  · intro hp
    exact ⟨c.val, h.2 ⟨_, t.getElem?_nodes c, hp⟩, rfl⟩

/-- A child comes after its parent. -/
theorem lt_of_mem_children {t : Tree} {i c : t.Id} (h : c ∈ t.children i) :
    i.val < c.val :=
  parent_lt (mem_children_iff.1 h)

/-- The nodes above a node, nearest first. -/
def ancestors (t : Tree) (i : t.Id) : List t.Id :=
  match _h : t.parent i with
  | none => []
  | some p => p :: t.ancestors p
termination_by i.val
decreasing_by exact parent_lt _h

/-- The first child of a given kind. -/
def childOfKind? (t : Tree) (i : t.Id) (k : Kind) : Option t.Id :=
  (t.children i).find? fun c => t.kind c == k

/-- The first child that is a reference to a type. -/
def typeChild? (t : Tree) (i : t.Id) : Option t.Id := (t.children i).find? t.isType

/-! ## 4. Texts -/

/-- The text a node covers; empty when its span cuts through a character. -/
def sourceText (t : Tree) (i : t.Id) : String :=
  (Text.slice? t.text (t.span i).start (t.span i).stop).getD ""

/-- What stands for a node in signatures and messages: its label, or else the text it covers,
    which is abbreviated for whole files and type declarations. -/
def displayLabel (t : Tree) (i : t.Id) : String :=
  if (t.label i).isEmpty then
    if (t.kind i).isAbbreviated then "..." else t.sourceText i
  else t.label i

end Tree

end Recast
