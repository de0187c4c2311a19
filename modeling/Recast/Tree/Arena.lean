import Recast.Text.Bytes
import Recast.Text.Span
import Recast.Tree.Kind

/-!
# Arenas: trees under construction

An arena is a text together with a list of nodes that refer to each other by number. It starts
with a root and grows by appending a node as the last child of one that is already there.

* `Linked` states how the numbers hang together: node 0 is the root, a parent comes before its
  children, and a node is listed among the children of its parent and nowhere else, in increasing
  order. Every arena carries this as part of its type.
* `Arena.push` appends a node, and refuses a parent that is not there yet.
* `Arena.violation?` is the first node whose span does not fit the text or its parent.
-/

namespace Recast

/-! ## 1. Nodes -/

/-- A node of a tree: what it is, what it says, where it stands, and its neighbours by number. -/
structure Node where
  kind : Kind
  /-- The text a node carries itself, such as an identifier; empty for structural nodes. -/
  label : String
  span : Span
  parent : Option Nat
  children : Array Nat
deriving DecidableEq

/-- Why nodes do not make a tree. -/
inductive TreeError where
  /-- The span of a node ends after the text. -/
  | outsideText (node : Nat) (span : Span) (length : Nat)
  /-- The span of a node leaves the span of its parent. -/
  | outsideParent (parent : Nat) (parentSpan : Span) (child : Nat) (childSpan : Span)
  /-- There is no node with this number. -/
  | unknownNode (node : Nat)
  /-- A position and a length whose sum is not an offset. -/
  | spanOverflow (pos length : Nat)
deriving DecidableEq

/-- The wording of a tree error. -/
def TreeError.message : TreeError → String
  | .outsideText node span length =>
    s!"node #{node} span {span.render} exceeds the text length {length}"
  | .outsideParent parent parentSpan child childSpan =>
    s!"node #{child} span {childSpan.render} escapes its parent #{parent} span {parentSpan.render}"
  | .unknownNode node => s!"node #{node} does not exist"
  | .spanOverflow pos length =>
    s!"span at {pos} with length {length} overflows the offset range"

/-! ## 2. Links -/

/-- How the nodes of an arena refer to each other. -/
structure Linked (nodes : Array Node) : Prop where
  /-- There is a root. -/
  nonempty : 0 < nodes.size
  /-- A parent comes before its children. -/
  parent_lt : ∀ {i : Nat} {n : Node} {p : Nat}, nodes[i]? = some n → n.parent = some p → p < i
  /-- Only node 0 has no parent. -/
  parent_eq_none_iff : ∀ {i : Nat} {n : Node}, nodes[i]? = some n → (n.parent = none ↔ i = 0)
  /-- The children of a node are the nodes that name it as their parent. -/
  mem_children_iff : ∀ {i : Nat} {n : Node} {c : Nat}, nodes[i]? = some n →
    (c ∈ n.children.toList ↔ ∃ m : Node, nodes[c]? = some m ∧ m.parent = some i)
  /-- Children are listed in increasing order. -/
  sorted : ∀ {i : Nat} {n : Node}, nodes[i]? = some n → n.children.toList.Pairwise (· < ·)

namespace Linked

/-- A single node without parent or children. -/
theorem single {n : Node} (hp : n.parent = none) (hc : n.children = #[]) : Linked #[n] where
  nonempty := by simp
  parent_lt {i m p} hi h := by
    cases i <;> simp_all
  parent_eq_none_iff {i m} hi := by
    cases i <;> simp_all
  mem_children_iff {i m c} hi := by
    cases i with
    | zero =>
      obtain rfl : n = m := by simpa using hi
      simp only [hc, List.not_mem_nil, false_iff, not_exists, not_and]
      intro m' hm
      cases c <;> simp_all
    | succ i => simp at hi
  sorted {i m} hi := by
    cases i <;> simp_all

/-- A child has a number that the arena has. -/
theorem child_lt {nodes : Array Node} (h : Linked nodes) {i c : Nat} {n : Node}
    (hi : nodes[i]? = some n) (hc : c ∈ n.children.toList) : c < nodes.size := by
  obtain ⟨m, hm, _⟩ := (h.mem_children_iff hi).1 hc
  exact (Array.getElem?_eq_some_iff.1 hm).1

end Linked

/-- The nodes after one more has been added as the last child of `parent`. -/
def appendChild (nodes : Array Node) (parent : Nat) (kind : Kind) (label : String) (span : Span) :
    Array Node :=
  let id := nodes.size
  (nodes.modify parent fun n => { n with children := n.children.push id }).push
    { kind, label, span, parent := some parent, children := #[] }

@[simp] theorem size_appendChild (nodes : Array Node) (parent : Nat) (kind : Kind) (label : String)
    (span : Span) : (appendChild nodes parent kind label span).size = nodes.size + 1 := by
  simp [appendChild]

/-- What stands where after a node has been added. -/
theorem getElem?_appendChild (nodes : Array Node) (parent : Nat) (kind : Kind) (label : String)
    (span : Span) (i : Nat) :
    (appendChild nodes parent kind label span)[i]? =
      if i = nodes.size then some { kind, label, span, parent := some parent, children := #[] }
      else if i = parent then
        nodes[i]?.map fun n => { n with children := n.children.push nodes.size }
      else nodes[i]? := by
  simp only [appendChild, Array.getElem?_push, Array.size_modify]
  split
  · simp_all
  · simp only [Array.getElem?_modify]
    by_cases h : parent = i
    · simp [h]
    · simp [h, Ne.symm h]

/-- Adding a node keeps the nodes linked. -/
theorem Linked.appendChild {nodes : Array Node} (h : Linked nodes) {parent : Nat}
    (hp : parent < nodes.size) (kind : Kind) (label : String) (span : Span) :
    Linked (appendChild nodes parent kind label span) where
  nonempty := by simp
  parent_lt {i n p} hi hn := by
    rw [getElem?_appendChild] at hi
    split at hi
    · cases hi
      simp_all
    · split at hi
      · obtain ⟨m, hm, rfl⟩ := Option.map_eq_some_iff.1 hi
        exact h.parent_lt hm hn
      · exact h.parent_lt hi hn
  parent_eq_none_iff {i n} hi := by
    have h0 := h.nonempty
    rw [getElem?_appendChild] at hi
    split at hi
    · cases hi
      simp only [reduceCtorEq, false_iff]
      omega
    · split at hi
      · obtain ⟨m, hm, rfl⟩ := Option.map_eq_some_iff.1 hi
        have := h.parent_eq_none_iff hm
        exact this
      · exact h.parent_eq_none_iff hi
  mem_children_iff {i n c} hi := by
    have key : (∃ m, (Recast.appendChild nodes parent kind label span)[c]? = some m ∧
        m.parent = some i) ↔ (c = nodes.size ∧ i = parent) ∨
          ∃ m, nodes[c]? = some m ∧ m.parent = some i := by
      rw [getElem?_appendChild]
      by_cases hc : c = nodes.size
      · subst hc
        simp [eq_comm]
      · by_cases hcp : c = parent
        · subst hcp
          cases hm : nodes[c]? <;> simp [hc]
        · simp [hc, hcp]
    rw [key]
    rw [getElem?_appendChild] at hi
    split at hi
    · rename_i hin
      cases hi
      have : ¬ ∃ m, nodes[c]? = some m ∧ m.parent = some i := by
        rintro ⟨m, hm, hmp⟩
        have h₁ := h.parent_lt hm hmp
        have h₂ := (Array.getElem?_eq_some_iff.1 hm).1
        omega
      simp only [List.not_mem_nil, this, or_false, false_iff, not_and]
      intro _ hi
      omega
    · split at hi
      · rename_i hin
        obtain ⟨m, hm, rfl⟩ := Option.map_eq_some_iff.1 hi
        simp only [Array.toList_push, List.mem_append, List.mem_singleton, h.mem_children_iff hm,
          hin, and_true]
        rw [or_comm]
      · rename_i hin
        rw [h.mem_children_iff hi]
        simp [hin]
  sorted {i n} hi := by
    rw [getElem?_appendChild] at hi
    split at hi
    · cases hi
      simp
    · split at hi
      · obtain ⟨m, hm, rfl⟩ := Option.map_eq_some_iff.1 hi
        simp only [Array.toList_push, List.pairwise_append]
        refine ⟨h.sorted hm, by simp, fun a ha b hb => ?_⟩
        have := h.child_lt hm ha
        simp_all
      · exact h.sorted hi

/-! ## 3. Arenas -/

/-- A text and the nodes laid over it so far. -/
structure Arena where
  text : String
  nodes : Array Node
  linked : Linked nodes

namespace Arena

/-- The number of nodes. -/
def size (a : Arena) : Nat := a.nodes.size

/-- An arena with a root only. -/
def root (text : String) (kind : Kind) (label : String) (span : Span) : Arena where
  text
  nodes := #[{ kind, label, span, parent := none, children := #[] }]
  linked := .single rfl rfl

/-- An arena whose root has no label and covers the whole text. -/
def ofText (text : String) (kind : Kind) : Arena :=
  root text kind "" (Span.ofLength 0 (Text.length text))

/-- Appends a node as the last child of `parent`. Its number is the size before. -/
def push (a : Arena) (parent : Nat) (kind : Kind) (label : String) (span : Span) :
    Except TreeError Arena :=
  if h : parent < a.nodes.size then
    .ok ⟨a.text, appendChild a.nodes parent kind label span, a.linked.appendChild h kind label span⟩
  else .error (.unknownNode parent)

/-- What is wrong with the span of node `i`, if anything: it must end within a text of the given
    length, and lie inside the span of its parent. -/
def spanError? (a : Arena) (length i : Nat) (n : Node) : Option TreeError :=
  if length < n.span.stop then some (.outsideText i n.span length)
  else
    match n.parent with
    | none => none
    | some p =>
      match a.nodes[p]? with
      | none => none
      | some m =>
        if m.span.contains n.span then none else some (.outsideParent p m.span i n.span)

/-- The first wrong span, in the order of the node numbers. -/
def violation? (a : Arena) : Option TreeError :=
  let length := Text.length a.text
  a.nodes.toList.zipIdx.findSome? fun (n, i) => a.spanError? length i n

/-- Every span ends within the text and lies inside the span of its parent. -/
def Nested (a : Arena) : Prop :=
  ∀ {i : Nat} {n : Node}, a.nodes[i]? = some n →
    n.span.stop ≤ Text.length a.text ∧
    ∀ {p : Nat} {m : Node}, n.parent = some p → a.nodes[p]? = some m → m.span.contains n.span = true

/-- An arena without a wrong span is nested. -/
theorem nested_of_violation? {a : Arena} (h : a.violation? = none) : a.Nested := by
  intro i n hi
  have hmem : (n, i) ∈ a.nodes.toList.zipIdx := by
    rw [List.mem_zipIdx_iff_getElem?]
    simpa using hi
  have hn := List.findSome?_eq_none_iff.1 h _ hmem
  simp only [spanError?] at hn
  split at hn
  · simp at hn
  · rename_i hlen
    refine ⟨Nat.le_of_not_lt hlen, fun {p m} hp hm => ?_⟩
    simp only [hp, hm] at hn
    split at hn
    · assumption
    · simp at hn

end Arena

end Recast
