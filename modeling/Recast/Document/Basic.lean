import Std.Data.TreeMap
import Recast.Diff

/-!
# Documents

A document is how a difference is written down: each tree as nested outlines, without node numbers,
and pairs and edits that number the nodes of a tree as they are read, the root being 0.

* `TreeDocument.load` numbers the nodes of an outline and lays them over the text; what is still to
  be numbered waits on a stack. `TreeDocument.write` writes a tree down again and gives out the new
  numbers on the way.
* `Document.load` checks a whole document and stops at the first thing that is wrong: the earlier
  tree, the later tree, the pairs in order, the edits in order. `Document.ofDiff` writes a
  difference down.
-/

namespace Recast

/-! ## 1. Outlines -/

/-- A node with what is below it. -/
inductive Outline where
  | node (kind : Kind) (label : String) (pos length : Nat) (children : List Outline)

namespace Outline

mutual

/-- Whether two outlines are equal. -/
def decEq : (x y : Outline) → Decidable (x = y)
  | .node k l p n cs, .node k' l' p' n' cs' =>
    match decEqAll cs cs' with
    | .isTrue h =>
      if h' : k = k' ∧ l = l' ∧ p = p' ∧ n = n' then
        .isTrue (by obtain ⟨rfl, rfl, rfl, rfl⟩ := h'; rw [h])
      else .isFalse (fun e => h' (by cases e; exact ⟨rfl, rfl, rfl, rfl⟩))
    | .isFalse h => .isFalse (fun e => h (by cases e; rfl))

/-- Whether two lists of outlines are equal. -/
def decEqAll : (xs ys : List Outline) → Decidable (xs = ys)
  | [], [] => .isTrue rfl
  | [], _ :: _ => .isFalse (by simp)
  | _ :: _, [] => .isFalse (by simp)
  | x :: xs, y :: ys =>
    match decEq x y, decEqAll xs ys with
    | .isTrue h, .isTrue h' => .isTrue (by rw [h, h'])
    | .isFalse h, _ => .isFalse (fun e => h (by cases e; rfl))
    | _, .isFalse h => .isFalse (fun e => h (by cases e; rfl))

end

instance : DecidableEq Outline := decEq

/-- The span of `length` bytes at `pos`, unless its end is no offset any more. -/
def spanAt (pos length : Nat) : Except TreeError Span :=
  if pos + length ≤ Text.maxOffset then .ok (Span.ofLength pos length)
  else .error (.spanOverflow pos length)

mutual

/-- The number of nodes of an outline. -/
def size : Outline → Nat
  | .node _ _ _ _ children => sizeAll children + 1

/-- The number of nodes of a list of outlines. -/
def sizeAll : List Outline → Nat
  | [] => 0
  | o :: os => o.size + sizeAll os

end

theorem sizeAll_append (os os' : List Outline) :
    sizeAll (os ++ os') = sizeAll os + sizeAll os' := by
  induction os with
  | nil => rw [List.nil_append, sizeAll, Nat.zero_add]
  | cons o os ih => rw [List.cons_append, sizeAll, sizeAll, ih, Nat.add_assoc]

/-- The children of a node laid on a stack: they are turned round first, so that the first of them,
    laid on last, is the next to be taken. -/
def stacked (parent : Nat) (children : List Outline) (stack : List (Nat × Outline)) :
    List (Nat × Outline) :=
  (children.reverse.map fun o => (parent, o)).reverse ++ stack

/-- Turning round and laying on undo each other: the children come to lie in front as they are. -/
theorem stacked_eq (parent : Nat) (children : List Outline) (stack : List (Nat × Outline)) :
    stacked parent children stack = children.map (fun o => (parent, o)) ++ stack := by
  rw [stacked, List.map_reverse, List.reverse_reverse]

theorem sizeAll_stacked (parent : Nat) (children : List Outline) (stack : List (Nat × Outline)) :
    sizeAll ((stacked parent children stack).map (·.2)) =
      sizeAll children + sizeAll (stack.map (·.2)) := by
  rw [stacked_eq, List.map_append, sizeAll_append, List.map_map]
  exact congrArg (sizeAll · + _) (List.map_id children)

/-- Adds what is on a stack to an arena, each outline below the node with the number beside it. The
    children of a node are laid on the stack as soon as it has a number. -/
def addStacked (a : Arena) : List (Nat × Outline) → Except TreeError Arena
  | [] => .ok a
  | (parent, .node kind label pos length children) :: stack => do
    let span ← spanAt pos length
    let id := a.size
    addStacked (← a.push parent kind label span) (stacked id children stack)
termination_by stack => sizeAll (stack.map (·.2))
decreasing_by
  rw [sizeAll_stacked, List.map_cons, sizeAll, size]
  omega

end Outline

/-! ## 2. Trees written down -/

/-- A text and the outline of the tree over it. -/
structure TreeDocument where
  text : String
  root : Outline
deriving DecidableEq

/-- The tree a document describes. -/
def TreeDocument.load (d : TreeDocument) : Except TreeError Tree :=
  match d.root with
  | .node kind label pos length children => do
    let span ← Outline.spanAt pos length
    let start := Arena.root d.text kind label span
    (← Outline.addStacked start (Outline.stacked 0 children [])).finish

/-- Numbers given out to nodes, under the numbers that the nodes have. -/
abbrev NewNumbers := Std.TreeMap Nat Nat

/-- Writes the subtree at a node down. Every node gets the next number, the count of those given out
    before it, and does so before its children. -/
def Outline.write (t : Tree) (i : t.Id) : StateM NewNumbers Outline := do
  modify fun numbers => numbers.insert i.val numbers.size
  let children ← (t.children i).attach.mapM fun ⟨c, _⟩ => write t c
  return .node (t.kind i) (t.label i) (t.span i).start (t.span i).length children
termination_by t.nodes.size - i.val
decreasing_by
  have := Tree.lt_of_mem_children ‹c ∈ t.children i›
  omega

namespace TreeDocument

/-- Writes a tree down: its document, and the numbers that its nodes have there. -/
def write (t : Tree) : TreeDocument × NewNumbers :=
  let (root, numbers) := (Outline.write t t.root).run ∅
  (⟨t.text, root⟩, numbers)

/-- The document of a tree. -/
def ofTree (t : Tree) : TreeDocument := (write t).1

end TreeDocument

/-- The nodes of a tree, in order, each with the number it has in the document of the tree. -/
def Tree.numbering (t : Tree) : List (t.Id × Nat) :=
  let numbers := (TreeDocument.write t).2
  t.ids.filterMap fun i => numbers[i.val]?.map fun k => (i, k)

/-! ## 3. Differences written down -/

/-- The two trees of a difference. -/
inductive Side where
  | source
  | destination
deriving DecidableEq, Repr

/-- The name of a side in messages. -/
def Side.name : Side → String
  | .source => "source"
  | .destination => "destination"

/-- Why a document is refused. -/
inductive DocumentError where
  /-- The text is not a document. -/
  | unreadable
  | tree (e : TreeError)
  | mapping (e : MappingError)
  /-- A pair or an edit names a node that is not there. -/
  | danglingNode (side : Side) (node : Nat)
deriving DecidableEq

namespace DocumentError

/-- The wording of a document error, without what caused it. -/
def message : DocumentError → String
  | .unreadable => "failed to parse diff document"
  | .tree _ => "invalid tree"
  | .mapping _ => "invalid mapping"
  | .danglingNode side node => s!"the {side.name} tree has no node #{node}"

/-- The wording of what caused a document error, if something did; `words` are what the parser says
    of the text. -/
def cause? (words : String) : DocumentError → Option String
  | .unreadable => some words
  | .tree e => some e.message
  | .mapping e => some e.message
  | .danglingNode _ _ => none

/-- The wording of a document error followed by its cause. -/
def fullMessage (words : String) (e : DocumentError) : String :=
  match e.cause? words with
  | some cause => s!"{e.message}: {cause}"
  | none => e.message

end DocumentError

/-- A difference as it is written down. -/
structure Document where
  path : String
  before : TreeDocument
  after : TreeDocument
  mapping : List (Nat × Nat)
  script : List Edit
deriving DecidableEq

namespace Document

/-- Refuses a number that is not a node of the tree. -/
def checkNode (t : Tree) (side : Side) (i : Nat) : Except DocumentError Unit :=
  if i < t.nodes.size then .ok () else .error (.danglingNode side i)

/-- Adds the pairs of a document to a correspondence, checking each in turn. -/
def loadPairs (before after : Tree) (m : Correspondence) :
    List (Nat × Nat) → Except DocumentError Correspondence
  | [] => .ok m
  | (s, d) :: ps => do
    checkNode before .source s
    checkNode after .destination d
    match m.insert s d with
    | .ok m => loadPairs before after m ps
    | .error e => .error (.mapping e)

/-- Checks the edits of a document in turn. -/
def checkScript (before after : Tree) : List Edit → Except DocumentError Unit
  | [] => .ok ()
  | e :: es => do
    if e.isInsert then checkNode after .destination e.node else checkNode before .source e.node
    checkScript before after es

/-- The difference a document describes; its path is `d.path`. -/
def load (d : Document) : Except DocumentError Diff := do
  let before ← d.before.load.mapError .tree
  let after ← d.after.load.mapError .tree
  let mapping ← loadPairs before after .empty d.mapping
  checkScript before after d.script
  return { before, after, mapping, script := d.script }

/-- The document of a difference. A number that is not that of a node stands for itself. -/
def ofDiff (path : String) (d : Diff) : Document :=
  let (before, source) := TreeDocument.write d.before
  let (after, destination) := TreeDocument.write d.after
  let src := fun i => source.getD i i
  let dst := fun i => destination.getD i i
  { path, before, after
    mapping := d.mapping.pairs.map fun (s, t) => (src s, dst t)
    script := d.script.map (Edit.renumber src dst) }

end Document

end Recast
