import Recast.Signature
import Recast.Tree.Term

/-!
# Trees that differ in their numbers only

A renumbering takes the nodes of one tree to nodes of another that say the same and hang together
the same way. Whatever can be asked of a tree without naming a number has the same answer before and
after; what answers with a node answers with the renumbered one. There is one lemma for each
question, and all of them are tagged for the simplifier.

* `Tree.Renumbering`: the renumbering;
* `ancestors`, `outermostType?`, `enclosingMethod?`: the way up;
* `isomorphic`: comparison of two subtrees, each renumbered on its own;
* `variableSignature?`, `classSignature?`, `methodSignature`, `memberContext?`: signatures;
* `Anchor.renumber`: anchors.
-/

namespace Recast

namespace Tree

theorem ancestors_eq (t : Tree) (i : t.Id) :
    t.ancestors i =
      match t.parent i with
      | none => []
      | some p => p :: t.ancestors p := by
  rw [ancestors]
  split <;> simp_all

theorem outermostType?_eq (t : Tree) (i : t.Id) :
    t.outermostType? i =
      if t.isType i then
        match t.parent i with
        | some p =>
          if t.isType p then t.outermostType? p else if t.isComposite i then some i else none
        | none => if t.isComposite i then some i else none
      else none := by
  rw [outermostType?]
  split
  · split <;> simp_all
  · rfl

end Tree

/-- A way to number the nodes of `s` that makes them nodes of `t`. -/
structure Tree.Renumbering (s t : Tree) where
  num : s.Id → t.Id
  injective : ∀ {i j : s.Id}, num i = num j → i = j
  text : t.text = s.text
  kind : ∀ i, t.kind (num i) = s.kind i
  label : ∀ i, t.label (num i) = s.label i
  span : ∀ i, t.span (num i) = s.span i
  parent : ∀ i, t.parent (num i) = (s.parent i).map num
  children : ∀ i, t.children (num i) = (s.children i).map num

namespace Tree.Renumbering

attribute [simp] kind label span parent children

variable {s t : Tree} (r : Renumbering s t)

/-! ## 1. Nodes -/

@[simp] theorem beq (i j : s.Id) : (r.num i == r.num j) = (i == j) := by
  by_cases h : i = j
  · rw [h, beq_self_eq_true, beq_self_eq_true]
  · rw [beq_false_of_ne h, beq_false_of_ne fun h' => h (r.injective h')]

@[simp] theorem isType (i : s.Id) : t.isType (r.num i) = s.isType i := by
  unfold Tree.isType
  rw [r.kind]

@[simp] theorem sourceText (i : s.Id) : t.sourceText (r.num i) = s.sourceText i := by
  unfold Tree.sourceText
  rw [r.text, r.span]

@[simp] theorem displayLabel (i : s.Id) : t.displayLabel (r.num i) = s.displayLabel i := by
  unfold Tree.displayLabel
  rw [r.label, r.kind, r.sourceText]

@[simp] theorem childOfKind? (i : s.Id) (k : Kind) :
    t.childOfKind? (r.num i) k = (s.childOfKind? i k).map r.num := by
  unfold Tree.childOfKind?
  rw [r.children, List.find?_map]
  simp only [Function.comp_def, r.kind]

@[simp] theorem typeChild? (i : s.Id) :
    t.typeChild? (r.num i) = (s.typeChild? i).map r.num := by
  unfold Tree.typeChild?
  rw [r.children, List.find?_map]
  simp only [Function.comp_def, r.isType]

/-! ## 2. The way up -/

@[simp] theorem ancestors (i : s.Id) : t.ancestors (r.num i) = (s.ancestors i).map r.num := by
  fun_induction Tree.ancestors s i with
  | case1 i hp =>
    rw [ancestors_eq, r.parent, hp]
    rfl
  | case2 i p hp ih =>
    rw [ancestors_eq, r.parent, hp, List.map_cons, ← ih]
    rfl

@[simp] theorem isComposite (i : s.Id) : t.isComposite (r.num i) = s.isComposite i := by
  unfold Tree.isComposite
  rw [r.kind]

@[simp] theorem outermostType? (i : s.Id) :
    t.outermostType? (r.num i) = (s.outermostType? i).map r.num := by
  fun_induction Tree.outermostType? s i with
  | case1 i hi p hp hpt ih =>
    rw [outermostType?_eq]
    simp [hi, hp, hpt, ih]
  | case2 i hi p hp hpt hc =>
    rw [outermostType?_eq]
    simp [hi, hp, hpt, hc]
  | case3 i hi p hp hpt hc =>
    rw [outermostType?_eq]
    simp [hi, hp, hpt, hc]
  | case4 i hi hp hc =>
    rw [outermostType?_eq]
    simp [hi, hp, hc]
  | case5 i hi hp hc =>
    rw [outermostType?_eq]
    simp [hi, hp, hc]
  | case6 i hi =>
    rw [outermostType?_eq]
    simp [hi]

theorem find?_ancestors (i : s.Id) (k : Kind) :
    (t.ancestors (r.num i)).find? (fun a => t.kind a == k) =
      ((s.ancestors i).find? fun a => s.kind a == k).map r.num := by
  rw [r.ancestors, List.find?_map]
  simp only [Function.comp_def, r.kind]

@[simp] theorem enclosingMethod? (i : s.Id) :
    t.enclosingMethod? (r.num i) = (s.enclosingMethod? i).map r.num :=
  r.find?_ancestors i _

@[simp] theorem enclosingType? (i : s.Id) :
    t.enclosingType? (r.num i) = (s.enclosingType? i).map r.num :=
  r.find?_ancestors i _

/-! ## 3. Comparison -/

theorem alike {s' t' : Tree} (q : Renumbering s' t') (a : s.Id) (b : s'.Id) :
    t.alike (r.num a) t' (q.num b) = s.alike a s' b := by
  unfold Tree.alike
  simp

theorem allAlike {s' t' : Tree} (q : Renumbering s' t') (work : List (s.Id × s'.Id)) :
    t.allAlike t' (work.map fun w => (r.num w.1, q.num w.2)) = s.allAlike s' work := by
  fun_induction Tree.allAlike s s' work with
  | case1 => rw [List.map_nil, Tree.allAlike]
  | case2 a b work ih =>
    rw [List.map_cons, Tree.allAlike, r.alike q, r.children, q.children, ← ih, List.map_append,
      List.map_reverse, List.zip_map]
    rfl

/-- Subtrees compare alike however they are numbered. -/
@[simp] theorem isomorphic {s' t' : Tree} (q : Renumbering s' t') (a : s.Id) (b : s'.Id) :
    t.isomorphic (r.num a) t' (q.num b) = s.isomorphic a s' b :=
  r.allAlike q [(a, b)]

/-! ## 4. Signatures -/

@[simp] theorem nameAndType? (name type : Option s.Id) :
    t.nameAndType? (name.map r.num) (type.map r.num) = s.nameAndType? name type := by
  cases name <;> cases type <;> simp [Tree.nameAndType?]

@[simp] theorem variableSignature? (i : s.Id) :
    t.variableSignature? (r.num i) = s.variableSignature? i := by
  unfold Tree.variableSignature?
  rw [r.kind]
  split
  · rw [r.childOfKind?, r.typeChild?, r.nameAndType?]
  · have h : (t.parent (r.num i)).bind t.typeChild? =
        ((s.parent i).bind s.typeChild?).map r.num := by
      rw [r.parent]
      cases s.parent i <;> simp
    rw [h, r.childOfKind?, r.nameAndType?]
  · rfl

@[simp] theorem firstFragmentSignature? (i : s.Id) :
    t.firstFragmentSignature? (r.num i) = s.firstFragmentSignature? i := by
  unfold Tree.firstFragmentSignature?
  rw [r.childOfKind?]
  cases s.childOfKind? i .variableDeclarationFragment <;> simp

theorem isBetween (child : s.Id) (typeFound bodyFound : Bool) (siblings : List s.Id) :
    t.isBetween (r.num child) typeFound bodyFound (siblings.map r.num) =
      s.isBetween child typeFound bodyFound siblings := by
  induction siblings generalizing typeFound bodyFound with
  | nil => rfl
  | cons a as ih => simp only [List.map_cons, Tree.isBetween, r.isType, r.kind, r.beq, ih]

@[simp] theorem isArgument (parent child : s.Id) :
    t.isArgument (r.num parent) (r.num child) = s.isArgument parent child := by
  unfold Tree.isArgument
  rw [r.kind, r.children, r.isBetween]

@[simp] theorem packageName? (i : s.Id) : t.packageName? (r.num i) = s.packageName? i := by
  unfold Tree.packageName?
  rw [r.children, List.map_map]
  simp only [Function.comp_def, r.label]

@[simp] theorem qualifyLevel (level : s.Id) (name : Option String) (children : List s.Id) :
    t.qualifyLevel (r.num level) name (children.map r.num) =
      s.qualifyLevel level name children := by
  induction children generalizing name with
  | nil => rfl
  | cons c cs ih =>
    simp only [List.map_cons, Tree.qualifyLevel, r.kind, r.isArgument, r.label, r.packageName?, ih]

@[simp] theorem classSignature? (i : s.Id) : t.classSignature? (r.num i) = s.classSignature? i := by
  unfold Tree.classSignature?
  rw [r.ancestors, ← List.map_cons, List.foldl_map]
  simp only [r.children, r.qualifyLevel]

theorem see_parameter (parts : Tree.ParameterParts) (i : s.Id) :
    parts.see t (r.num i) = parts.see s i := by
  unfold Tree.ParameterParts.see
  rw [r.kind, r.label, r.isType, r.displayLabel]

@[simp] theorem parameterText (i : s.Id) : t.parameterText (r.num i) = s.parameterText i := by
  unfold Tree.parameterText Tree.parameterParts
  simp only [r.children, List.foldl_map, r.see_parameter, r.kind]

theorem see_method (parts : Tree.MethodParts) (c : s.Id) (next : Option s.Id) :
    parts.see t (r.num c) (next.map r.num) = parts.see s c next := by
  have hnext : (next.map r.num).map t.kind = next.map s.kind := by
    cases next <;> simp
  unfold Tree.MethodParts.see
  simp only [r.kind, r.label, r.isType, r.displayLabel, r.parameterText, hnext]

theorem seeAll_method (parts : Tree.MethodParts) (cs : List s.Id) :
    parts.seeAll t (cs.map r.num) = parts.seeAll s cs := by
  induction cs generalizing parts with
  | nil => rfl
  | cons c cs ih =>
    rw [List.map_cons, Tree.MethodParts.seeAll, Tree.MethodParts.seeAll, List.head?_map,
      r.see_method, ih]

@[simp] theorem methodSignature (i : s.Id) :
    t.methodSignature (r.num i) = s.methodSignature i := by
  unfold Tree.methodSignature
  rw [r.children, r.seeAll_method]

@[simp] theorem memberContext? (i : s.Id) :
    t.memberContext? (r.num i) = s.memberContext? i := by
  unfold Tree.memberContext?
  rw [r.enclosingMethod?, r.enclosingType?]
  cases s.enclosingMethod? i with
  | none => cases s.enclosingType? i <;> simp
  | some m => cases hm : s.parent m <;> simp [hm]

end Tree.Renumbering

/-! ## 5. Anchors -/

namespace Anchor

variable {s t : Tree} (r : Tree.Renumbering s t)

/-- The anchor of the renumbered node. -/
def renumber (a : Anchor s) : Anchor t :=
  ⟨r.num a.node, r.num a.parent, a.grandparent.map r.num⟩

@[simp] theorem of?_renumber (i : s.Id) : of? t (r.num i) = (of? s i).map (renumber r) := by
  unfold of?
  rw [r.parent]
  cases s.parent i with
  | none => rfl
  | some p =>
    rw [Option.map_some, Option.map_some, r.parent]
    rfl

@[simp] theorem grandparentKind?_renumber (a : Anchor s) :
    (a.renumber r).grandparentKind? = a.grandparentKind? := by
  unfold grandparentKind? renumber
  cases a.grandparent <;> simp

theorem toOutermost_renumber (a : Anchor s) :
    (a.renumber r).toOutermost = a.toOutermost.map (renumber r) := by
  have hparent : (a.renumber r).parent = r.num a.parent := rfl
  unfold toOutermost
  rw [hparent, r.outermostType?]
  cases s.outermostType? a.parent with
  | none => rfl
  | some outer => exact of?_renumber r outer

theorem resolveType_renumber (a : Anchor s) :
    (a.renumber r).resolveType = a.resolveType.map (renumber r) := by
  have hnode : (a.renumber r).node = r.num a.node := rfl
  have hparent : (a.renumber r).parent = r.num a.parent := rfl
  unfold resolveType
  rw [hnode, hparent, r.isType, r.kind, r.displayLabel, r.displayLabel]
  split
  · split
    · rw [of?_renumber]
      cases of? s a.parent with
      | none => rfl
      | some b => exact toOutermost_renumber r b
    · exact toOutermost_renumber r a
  · rfl

@[simp] theorem ofType?_renumber (i : s.Id) :
    ofType? t (r.num i) = (ofType? s i).map (renumber r) := by
  unfold ofType?
  rw [of?_renumber]
  cases of? s i with
  | none => rfl
  | some a => exact resolveType_renumber r a

end Anchor

end Recast
