import Recast.Proofs.Detect.Unnamed

/-!
# Renamed attributes and variables

An update counts as the rename of an attribute or of a local variable when its node hangs on a
declaration of one. Nothing is asked about the node itself: the name of the declaration, its
initializer and whatever else hangs on it are the same to the classifier.

* `Tree.declaredName?`: the name that a declaration declares;
* `Candidate.seenFrom`: the same declarations, seen from other nodes that hang on them;
* `rename?_declared`: a report names both declarations, and any other node would have led to it, in
  any group that is large enough;
* `renamed_declaration`: **a renamed attribute or variable is about the declaration that the update
  hangs on**, and `initializer_in_renamedUse` is an input where that is not the
  declaration whose name changed.
-/

namespace Recast

/-! ## 1. Names and signatures -/

namespace Tree

/-- The name that a declaration declares: its first simple name. -/
def declaredName? (t : Tree) (decl : t.Id) : Option t.Id := t.childOfKind? decl .simpleName

variable {t : Tree}

theorem nameAndType?_eq_some {name type : Option t.Id} {s : String}
    (h : t.nameAndType? name type = some s) :
    ∃ n k, name = some n ∧ s = t.label n ++ " : " ++ t.displayLabel k := by
  simp only [nameAndType?, Option.bind_eq_bind, Option.bind_eq_some_iff] at h
  obtain ⟨n, hn, k, -, hs⟩ := h
  cases hs
  exact ⟨n, k, hn, rfl⟩

/-- The signature of a variable begins with its declared name. -/
theorem variableSignature?_eq_some {decl : t.Id} {s : String}
    (h : t.variableSignature? decl = some s) :
    ∃ n k, t.declaredName? decl = some n ∧ s = t.label n ++ " : " ++ t.displayLabel k := by
  unfold variableSignature? at h
  split at h
  · exact nameAndType?_eq_some h
  · exact nameAndType?_eq_some h
  · cases h

/-- Only fragments and declarations of a single variable have the signature of a variable. -/
theorem kind_of_variableSignature? {decl : t.Id} {s : String}
    (h : t.variableSignature? decl = some s) :
    t.kind decl = .variableDeclarationFragment ∨ t.kind decl = .singleVariableDeclaration := by
  unfold variableSignature? at h
  split at h
  · exact .inr ‹_›
  · exact .inl ‹_›
  · cases h

end Tree

/-- The element at a place is a variable with this name. -/
def CodeRange.Declares (range : CodeRange) (name : String) : Prop :=
  ∃ type, range.codeElement = name ++ " : " ++ type

/-- Two records say the same, of whatever nodes. -/
structure Refactoring.SaysAs (r s : Refactoring) : Prop where
  kind : r.kind = s.kind
  description : r.description = s.description
  before : r.before.codeElement = s.before.codeElement
  after : r.after.codeElement = s.after.codeElement

/-! ## 2. Candidates -/

namespace Diff.Candidate

variable {d : Diff}

/-- The same declarations, seen from other nodes that hang on them. -/
def seenFrom (c : Candidate d) (i : d.before.Id) (j : d.after.Id) : Candidate d :=
  ⟨c.path, { c.src with node := i }, { c.dst with node := j }⟩

@[simp] theorem seenFrom_src_parent (c : Candidate d) (i : d.before.Id) (j : d.after.Id) :
    (c.seenFrom i j).src.parent = c.src.parent := rfl

@[simp] theorem seenFrom_dst_parent (c : Candidate d) (i : d.before.Id) (j : d.after.Id) :
    (c.seenFrom i j).dst.parent = c.dst.parent := rfl

@[simp] theorem seenFrom_dst_grandparent (c : Candidate d) (i : d.before.Id) (j : d.after.Id) :
    (c.seenFrom i j).dst.grandparent = c.dst.grandparent := rfl

@[simp] theorem grandparentKind?_seenFrom_src (c : Candidate d) (i : d.before.Id)
    (j : d.after.Id) : (c.seenFrom i j).src.grandparentKind? = c.src.grandparentKind? := rfl

/-- `x` is what `classify` makes of a candidate: a report in which both code elements are signatures
    of the declarations, and which any other node that hangs on them would have led to. -/
def ReportsDeclared (c : Candidate d) (classify : Candidate d → Option (Except Fault Refactoring))
    (kind : RefactoringKind) (x : Except Fault Refactoring) : Prop :=
  ∃ details element oldRole old newRole new,
    d.before.variableSignature? c.src.parent = some old ∧
    d.after.variableSignature? c.dst.parent = some new ∧
    x = c.report kind details element oldRole old newRole new ∧
    ∀ i j, classify (c.seenFrom i j) =
      some ((c.seenFrom i j).report kind details element oldRole old newRole new)

theorem attributeRename?_declared {c : Candidate d} {x : Except Fault Refactoring}
    (h : c.attributeRename? = some x) :
    c.ReportsDeclared attributeRename? .renameAttribute x := by
  simp only [attributeRename?, Option.bind_eq_bind, Option.bind_eq_some_iff] at h
  obtain ⟨old, hold, new, hnew, g, hg, p, hp, owner, howner, hx⟩ := h
  cases hx
  refine ⟨_, _, _, old, _, new, hold, hnew, rfl, fun i j => ?_⟩
  simp only [attributeRename?, seenFrom_src_parent, seenFrom_dst_parent, seenFrom_dst_grandparent,
    hold, hnew, hg, hp, howner, Option.bind_eq_bind, Option.bind_some]
  rfl

theorem variableRename?_declared {c : Candidate d} {element : ElementType}
    {x : Except Fault Refactoring} (h : c.variableRename? element = some x) :
    c.ReportsDeclared (·.variableRename? element) .renameVariable x := by
  simp only [variableRename?, Option.bind_eq_bind, Option.bind_eq_some_iff] at h
  obtain ⟨old, hold, new, hnew, ⟨signature, owner⟩, hcontext, hx⟩ := h
  cases hx
  refine ⟨_, _, _, old, _, new, hold, hnew, rfl, fun i j => ?_⟩
  simp only [variableRename?, seenFrom_src_parent, seenFrom_dst_parent, hold, hnew, hcontext,
    Option.bind_eq_bind, Option.bind_some]
  rfl

/-- A report stays one under a classifier that does the same for these declarations. -/
theorem ReportsDeclared.congr {c : Candidate d}
    {f g : Candidate d → Option (Except Fault Refactoring)} {kind : RefactoringKind}
    {x : Except Fault Refactoring} (h : c.ReportsDeclared f kind x)
    (hfg : ∀ i j, g (c.seenFrom i j) = f (c.seenFrom i j)) : c.ReportsDeclared g kind x := by
  obtain ⟨details, element, oldRole, old, newRole, new, hold, hnew, hx, hany⟩ := h
  refine ⟨details, element, oldRole, old, newRole, new, hold, hnew, hx, fun i j => ?_⟩
  rw [hfg, hany]

/-- **A rename of an attribute or a variable names the declarations of both nodes**, and any other
    node that hangs on them would have led to it, in any group that is large enough. -/
theorem rename?_declared {c : Candidate d} {groupSize size : Nat} {r : Refactoring}
    (h : c.rename? groupSize = some (.ok r)) (hkind : NeedsGroup r.kind) (hsize : 1 < size) :
    c.ReportsDeclared (·.rename? size) r.kind (.ok r) := by
  unfold rename? at h
  split at h
  · have hr := (methodRename?_reports h).kind_eq
    rw [hr] at hkind
    cases hkind <;> contradiction
  · split at h
    · have hr := (parameterRename?_reports h).kind_eq
      rw [hr] at hkind
      cases hkind <;> contradiction
    · cases h
  · rename_i hp hg
    split at h
    · rw [(attributeRename?_reports h).kind_eq]
      refine (attributeRename?_declared h).congr fun i j => ?_
      simp only [rename?, seenFrom_src_parent, grandparentKind?_seenFrom_src, hp, hg, if_pos hsize]
    · cases h
  · rename_i hp hg
    split at h
    · rename_i hn
      obtain ⟨hstatement, -⟩ := Bool.and_eq_true_iff.1 hn
      rw [(variableRename?_reports h).kind_eq]
      refine (variableRename?_declared h).congr fun i j => ?_
      simp only [rename?, seenFrom_src_parent, grandparentKind?_seenFrom_src, hp, hg, hstatement,
        hsize, decide_true, Bool.and_self, if_true]
    · cases h
  · rename_i hp hg
    split at h
    · rw [(variableRename?_reports h).kind_eq]
      refine (variableRename?_declared h).congr fun i j => ?_
      simp only [rename?, seenFrom_src_parent, grandparentKind?_seenFrom_src, hp, hg, if_pos hsize]
    · cases h
  · cases h

theorem ReportsDeclared.records {c : Candidate d}
    {classify : Candidate d → Option (Except Fault Refactoring)} {kind : RefactoringKind}
    {r : Refactoring} (h : c.ReportsDeclared classify kind (.ok r)) :
    (∃ name, d.before.declaredName? c.src.parent = some name ∧
      r.before.Declares (d.before.label name)) ∧
    (∃ name, d.after.declaredName? c.dst.parent = some name ∧
      r.after.Declares (d.after.label name)) ∧
    (d.after.kind c.dst.parent = .variableDeclarationFragment ∨
      d.after.kind c.dst.parent = .singleVariableDeclaration) ∧
    ∀ i j, ∃ s, classify (c.seenFrom i j) = some (.ok s) ∧ s.SaysAs r := by
  obtain ⟨details, element, oldRole, old, newRole, new, hold, hnew, hr, hany⟩ := h
  rw [report_eq] at hr
  cases hr
  have hkind := Tree.kind_of_variableSignature? hnew
  obtain ⟨name, type, hname, rfl⟩ := Tree.variableSignature?_eq_some hold
  obtain ⟨name', type', hname', rfl⟩ := Tree.variableSignature?_eq_some hnew
  refine ⟨⟨name, hname, _, rfl⟩, ⟨name', hname', _, rfl⟩, hkind, fun i j => ?_⟩
  refine ⟨_, (hany i j).trans (congrArg some (report_eq ..)), ?_⟩
  exact ⟨rfl, rfl, rfl, rfl⟩

end Diff.Candidate

/-! ## 3. The classifier -/

namespace Diff

variable {d : Diff} {path : String} {i : d.before.Id} {groupSize : Nat} {r : Refactoring}

/-- `r` is about the declarations `decl` and `decl'` that `i` and its counterpart `j` hang on: a row
    of the table is for them, and either element begins with the name that its declaration
    declares. -/
structure NamesDeclarations (d : Diff) (r : Refactoring) (i : d.before.Id) (j : d.after.Id)
    (decl : d.before.Id) (decl' : d.after.Id) : Prop where
  counterpart : d.mapping.dst? i = some j.val
  parent : d.before.parent i = some decl
  parent' : d.after.parent j = some decl'
  row : Candidate.RenameRow (d.before.kind decl) (d.before.grandparentKind? i)
    (d.after.grandparentKind? j) r.kind
  kind' : d.after.kind decl' = .variableDeclarationFragment ∨
    d.after.kind decl' = .singleVariableDeclaration
  before : ∃ name, d.before.declaredName? decl = some name ∧
    r.before.Declares (d.before.label name)
  after : ∃ name, d.after.declaredName? decl' = some name ∧ r.after.Declares (d.after.label name)

/-- **The classifier's answer names the declarations**, and it gives the same for every other node
    that hangs on them, in any group that is large enough. -/
theorem classifyRename_declared (h : d.classifyRename path i groupSize = .ok (some r))
    (hkind : Candidate.NeedsGroup r.kind) :
    1 < groupSize ∧ ∃ j decl decl', d.NamesDeclarations r i j decl decl' ∧
      ∀ i' j' size, d.before.parent i' = some decl → d.after.parent j' = some decl' →
        d.mapping.dst? i' = some j'.val → 1 < size →
        ∃ s, d.classifyRename path i' size = .ok (some s) ∧ s.SaysAs r := by
  obtain ⟨j, src, dst, hsrc, hj, hdst, hrename⟩ := classifyRename_eq_some h
  obtain ⟨kind, hrow, hgroup, hreport⟩ := Candidate.rename?_cases hrename
  obtain rfl : r.kind = kind := hreport.kind_eq
  have hsize := hgroup hkind
  obtain ⟨hbefore, hafter, hkind', -⟩ :=
    (Candidate.rename?_declared hrename hkind hsize).records
  have hrow' : Candidate.RenameRow (d.before.kind src.parent) (d.before.grandparentKind? i)
      (d.after.grandparentKind? j) r.kind := by
    rw [← Anchor.grandparentKind?_of_of? hsrc, ← Anchor.grandparentKind?_of_of? hdst]
    exact hrow
  obtain ⟨-, hsrcParent, hsrcGrand⟩ := Anchor.of?_eq_some_iff.1 hsrc
  obtain ⟨-, hdstParent, hdstGrand⟩ := Anchor.of?_eq_some_iff.1 hdst
  refine ⟨hsize, j, src.parent, dst.parent,
    ⟨hj, hsrcParent, hdstParent, hrow', hkind', hbefore, hafter⟩, ?_⟩
  intro i' j' size hi' hj' hmap hsize'
  have hsrc' : Anchor.of? d.before i' = some { src with node := i' } :=
    Anchor.of?_eq_some_iff.2 ⟨rfl, hi', hsrcGrand⟩
  have hdst' : Anchor.of? d.after j' = some { dst with node := j' } :=
    Anchor.of?_eq_some_iff.2 ⟨rfl, hj', hdstGrand⟩
  obtain ⟨-, -, -, hany⟩ := (Candidate.rename?_declared hrename hkind hsize').records
  obtain ⟨s, hs, hsays⟩ := hany i' j'
  refine ⟨s, ?_, hsays⟩
  rw [classifyRename_of_anchors path hsrc' hmap hdst' size]
  exact attempt_eq_some.2 hs

end Diff

/-- **A renamed attribute or variable is about the declaration that the update hangs on.** The code
    elements begin with the names that the declarations around the node and around its counterpart
    declare, whether or not these are the two nodes. Every other update of the script whose node
    hangs on the one declaration and has its counterpart on the other, that the pass looks at and
    that shares its key with a second one, is reported in the same words; nothing is said here of
    modifiers and literals. -/
theorem renamed_declaration (path : String) (d : Diff) (hd : d.InRange) :
    ∃ rs, d.renames path = .ok rs ∧
      ∀ (i : d.before.Id) (groupSize : Nat) (r : Refactoring),
        d.classifyRename path i groupSize = .ok (some r) →
        r.kind = .renameAttribute ∨ r.kind = .renameVariable →
        1 < groupSize ∧ ∃ (j : d.after.Id) (decl : d.before.Id) (decl' : d.after.Id),
          d.NamesDeclarations r i j decl decl' ∧
          ∀ (i' : d.before.Id) (j' : d.after.Id) (label : String),
            .update i'.val label ∈ d.script → d.before.parent i' = some decl →
            d.after.parent j' = some decl' → d.mapping.dst? i' = some j'.val →
            d.mayRename i' = true → (d.before.kind i').isModifierOrLiteral = false →
            1 < d.script.countP (d.hasRenameKey
              (relabelKey "update-node" (d.before.label i') label)) →
            ∃ s ∈ rs, s.SaysAs r := by
  obtain ⟨rs, hrs⟩ := Diff.renames_total hd path
  refine ⟨rs, hrs, fun i groupSize r h hkind => ?_⟩
  obtain ⟨hsize, j, decl, decl', hnames, hany⟩ := Diff.classifyRename_declared h hkind
  refine ⟨hsize, j, decl, decl', hnames, ?_⟩
  intro i' j' label hscript hi' hj' hmap hmay _ hsize'
  obtain ⟨s, hs, hsays⟩ := hany i' j' _ hi' hj' hmap hsize'
  refine ⟨s, (Diff.mem_renames_iff hrs).2 ⟨_, hscript, ?_⟩, hsays⟩
  rw [Diff.renameOf_update, if_pos hmay, hs]

/-- Two attributes are renamed, `a` to `c` and `b` to `d`, and with them their uses in the
    initializers of the next: the second declaration changes in both places. -/
def chainedRenames : Diff :=
  let tree (text x y : String) : TreeDocument :=
    ⟨text, .node .compilationUnit "" 0 40 [.node .typeDeclaration "" 0 40
      [.node .simpleName "A" 6 1 [],
        .node .fieldDeclaration "" 10 6 [.node .primitiveType "int" 10 3 [],
          .node .variableDeclarationFragment "" 14 1 [.node .simpleName x 14 1 []]],
        .node .fieldDeclaration "" 17 10 [.node .primitiveType "int" 17 3 [],
          .node .variableDeclarationFragment "" 21 5
            [.node .simpleName y 21 1 [], .node .simpleName x 25 1 []]],
        .node .fieldDeclaration "" 28 10 [.node .primitiveType "int" 28 3 [],
          .node .variableDeclarationFragment "" 32 5
            [.node .simpleName "e" 32 1 [], .node .simpleName y 36 1 []]]]]⟩
  { before := (tree "class A { int a; int b = a; int e = b; }" "a" "b").load.toOption.get
      (by decide +kernel)
    after := (tree "class A { int c; int d = c; int e = d; }" "c" "d").load.toOption.get
      (by decide +kernel)
    mapping := .diagonal 17
    script := [.update 6 "c", .update 10 "d", .update 11 "c", .update 16 "d"] }

namespace chainedRenames

theorem inRange : chainedRenames.InRange :=
  Diff.Numbered.inRange ⟨by decide +kernel, by decide +kernel⟩

/-- The name of the second attribute. -/
def name : chainedRenames.before.Id := ⟨10, by decide +kernel⟩

/-- Its initializer. -/
def initializer : chainedRenames.before.Id := ⟨11, by decide +kernel⟩

/-- What is reported of the second attribute. -/
def renamed : Refactoring :=
  let place (role element : String) : CodeRange :=
    ⟨"A.java", 1, 1, 26, 27, .fieldDeclaration, role, element⟩
  ⟨"Rename Attribute b : int to d : int in class A", .renameAttribute,
    place "original attribute declaration" "b : int",
    place "renamed attribute declaration" "d : int"⟩

theorem classify_initializer :
    chainedRenames.classifyRename "A.java" initializer 2 = .ok (some renamed) :=
  eq_ok_of_toOption (by decide +kernel)

end chainedRenames

theorem renamed_declaration_chainedRenames :
    chainedRenames.InRange ∧ ∃ rs, chainedRenames.renames "A.java" = .ok rs ∧
      chainedRenames.classifyRename "A.java" chainedRenames.initializer 2 =
        .ok (some chainedRenames.renamed) ∧
      ∃ (j : chainedRenames.after.Id) (decl : chainedRenames.before.Id)
        (decl' : chainedRenames.after.Id),
        chainedRenames.NamesDeclarations chainedRenames.renamed chainedRenames.initializer j decl
          decl' ∧
        .update chainedRenames.name.val "d" ∈ chainedRenames.script ∧
        chainedRenames.before.parent chainedRenames.name = some decl ∧
        ∃ s ∈ rs, s.SaysAs chainedRenames.renamed := by
  obtain ⟨rs, hrs, h⟩ := renamed_declaration "A.java" chainedRenames chainedRenames.inRange
  obtain ⟨-, j, decl, decl', hnames, hany⟩ := h chainedRenames.initializer 2 chainedRenames.renamed
    chainedRenames.classify_initializer (.inl rfl)
  have hj : j = ⟨11, by decide +kernel⟩ := by
    have hdst : chainedRenames.mapping.dst? chainedRenames.initializer = some 11 := by
      decide +kernel
    rw [hnames.counterpart] at hdst
    exact Fin.ext (Option.some.inj hdst)
  have hname : chainedRenames.before.parent chainedRenames.name = some decl := by
    rw [← hnames.parent]
    decide +kernel
  have hname' : chainedRenames.after.parent ⟨10, by decide +kernel⟩ = some decl' := by
    rw [← hnames.parent', hj]
    decide +kernel
  exact ⟨chainedRenames.inRange, rs, hrs, chainedRenames.classify_initializer, j, decl, decl',
    hnames, by decide, hname, hany chainedRenames.name ⟨10, by decide +kernel⟩ "d" (by decide) hname
      hname' (by decide +kernel) (by decide +kernel) (by decide +kernel) (by decide +kernel)⟩

/-- An attribute is renamed from `a` to `c`, and with it its use in the initializer of `b`. -/
def renamedUse : Diff :=
  let tree (text name : String) : TreeDocument :=
    ⟨text, .node .compilationUnit "" 0 29 [.node .typeDeclaration "" 0 29
      [.node .simpleName "A" 6 1 [],
        .node .fieldDeclaration "" 10 6 [.node .primitiveType "int" 10 3 [],
          .node .variableDeclarationFragment "" 14 1 [.node .simpleName name 14 1 []]],
        .node .fieldDeclaration "" 17 10 [.node .primitiveType "int" 17 3 [],
          .node .variableDeclarationFragment "" 21 5
            [.node .simpleName "b" 21 1 [], .node .simpleName name 25 1 []]]]]⟩
  { before := (tree "class A { int a; int b = a; }" "a").load.toOption.get (by decide +kernel)
    after := (tree "class A { int c; int b = c; }" "c").load.toOption.get (by decide +kernel)
    mapping := .diagonal 12
    script := [.update 6 "c", .update 11 "c"] }

namespace renamedUse

/-- The place of a one-letter name in the only line of the file. -/
def place (column : Nat) (role element : String) : CodeRange :=
  ⟨"A.java", 1, 1, column, column + 1, .fieldDeclaration, role, element⟩

/-- What is reported of the attribute that is renamed. -/
def renamed : Refactoring :=
  ⟨"Rename Attribute a : int to c : int in class A", .renameAttribute,
    place 15 "original attribute declaration" "a : int",
    place 15 "renamed attribute declaration" "c : int"⟩

/-- What is reported of the attribute that only uses it. -/
def user : Refactoring :=
  ⟨"Rename Attribute b : int to b : int in class A", .renameAttribute,
    place 26 "original attribute declaration" "b : int",
    place 26 "renamed attribute declaration" "b : int"⟩

/-- The initializer of the second attribute. -/
def initializer : renamedUse.before.Id := ⟨11, by decide +kernel⟩

theorem classify_initializer :
    renamedUse.classifyRename "A.java" initializer 2 = .ok (some user) :=
  eq_ok_of_toOption (by decide +kernel)

end renamedUse

theorem initializer_in_renamedUse :
    renamedUse.InRange ∧ renamedUse.renames "A.java" = .ok [renamedUse.renamed, renamedUse.user] ∧
    .update renamedUse.initializer.val "c" ∈ renamedUse.script ∧
    renamedUse.classifyRename "A.java" renamedUse.initializer 2 = .ok (some renamedUse.user) ∧
    renamedUse.user.kind = .renameAttribute ∧
    (∃ decl, renamedUse.before.parent renamedUse.initializer = some decl ∧
      renamedUse.before.declaredName? decl ≠ some renamedUse.initializer) ∧
    ¬ renamedUse.user.before.Declares (renamedUse.before.label renamedUse.initializer) := by
  have hnumbered : renamedUse.Numbered := ⟨by decide +kernel, by decide +kernel⟩
  have hrenames : renamedUse.renames "A.java" = .ok [renamedUse.renamed, renamedUse.user] :=
    eq_ok_of_toOption (by decide +kernel)
  refine ⟨hnumbered.inRange, hrenames, by decide, renamedUse.classify_initializer, rfl, ?_, ?_⟩
  · exact ⟨⟨9, by decide +kernel⟩, by decide +kernel, by decide +kernel⟩
  · -- the element is `b : int`, and the label of the initializer `a`
    rintro ⟨type, h⟩
    have hlabel : renamedUse.before.label renamedUse.initializer = "a" := by decide +kernel
    rw [hlabel] at h
    have hfirst := congrArg (fun s => s.toList.head?) h
    simp [renamedUse.user, renamedUse.place] at hfirst

end Recast
