import Recast.Classify.TypeChange
import Recast.Proofs.Classify.Group
import Recast.Proofs.Correspondence
import Recast.Proofs.Fault
import Recast.Proofs.Tree.Renumbering

/-!
# Classification does not see numbers

Two differences that say the same about differently numbered trees give the same records. The one
thing that depends on numbers is the order of the pairs, and with it the order in which the
candidates of generic types come.

* `Diff.Renumbering`: the same difference of renumbered trees;
* `rename?_renumber`, `typeChange?_renumber`: the tables give the same answers;
* `renames_renumber`: the rename pass gives the same list;
* `typeChanges_renumber`: the type-change pass gives the same list in another order.
-/

namespace Recast

/-! ## 1. Numbers -/

/-- What a renumbering makes of a loose number; one that is not there stands for itself. -/
def Tree.Renumbering.loose {s t : Tree} (r : s.Renumbering t) (n : Nat) : Nat :=
  match s.find? n with
  | some i => (r.num i).val
  | none => n

theorem Tree.Renumbering.loose_val {s t : Tree} (r : s.Renumbering t) (i : s.Id) :
    r.loose i.val = (r.num i).val := by
  unfold loose find?
  rw [dif_pos i.isLt]

theorem Tree.Renumbering.resolve_loose {s t : Tree} (r : s.Renumbering t) {n : Nat}
    (h : n < s.nodes.size) : t.resolve (r.loose n) = .ok (r.num ⟨n, h⟩) := by
  rw [show r.loose n = (r.num ⟨n, h⟩).val from r.loose_val ⟨n, h⟩, resolve_val]

theorem CodeRange.ofNode_renumber {s t : Tree} (r : s.Renumbering t) (path : String) (i : s.Id)
    (elementType : ElementType) (description codeElement : String) :
    CodeRange.ofNode path t (r.num i) elementType description codeElement =
      CodeRange.ofNode path s i elementType description codeElement := by
  unfold CodeRange.ofNode
  rw [r.text, r.span]

/-- The same difference of renumbered trees. -/
structure Diff.Renumbering (d d' : Diff) where
  before : d.before.Renumbering d'.before
  after : d.after.Renumbering d'.after
  mapping : d'.mapping.pairs.Perm (d.mapping.pairs.map fun p => (before.loose p.1, after.loose p.2))
  script : d'.script = d.script.map (Edit.renumber before.loose after.loose)

namespace Diff

variable {d d' : Diff} (r : d.Renumbering d')

/-- The counterpart of a renumbered node is the renumbered counterpart. -/
theorem Renumbering.dst? (hd : d.InRange) (i : d.before.Id) :
    d'.mapping.dst? (r.before.num i) = (d.mapping.dst? i).map r.after.loose := by
  refine Option.ext fun j => ?_
  rw [Correspondence.dst?_eq_some_iff, r.mapping.mem_iff, List.mem_map, Option.map_eq_some_iff]
  constructor
  · rintro ⟨⟨m, n⟩, hp, he⟩
    obtain ⟨hm, hn⟩ := Prod.mk.inj he
    have hlt := (hd.mapping _ hp).1
    rw [show r.before.loose m = _ from r.before.loose_val ⟨m, hlt⟩] at hm
    obtain rfl : ⟨m, hlt⟩ = i := r.before.injective (Fin.ext hm)
    exact ⟨n, Correspondence.dst?_eq_some_iff.2 hp, hn⟩
  · rintro ⟨n, hn, rfl⟩
    refine ⟨(i.val, n), Correspondence.dst?_eq_some_iff.1 hn, ?_⟩
    rw [r.before.loose_val]

/-! ## 2. The tables -/

namespace Candidate

/-- The candidate of the renumbered nodes. -/
def renumber (c : Candidate d) : Candidate d' :=
  ⟨c.path, c.src.renumber r.before, c.dst.renumber r.after⟩

variable (c : Candidate d)

@[simp] theorem renumber_src_node : (c.renumber r).src.node = r.before.num c.src.node := rfl
@[simp] theorem renumber_src_parent : (c.renumber r).src.parent = r.before.num c.src.parent := rfl
@[simp] theorem renumber_dst_node : (c.renumber r).dst.node = r.after.num c.dst.node := rfl
@[simp] theorem renumber_dst_parent : (c.renumber r).dst.parent = r.after.num c.dst.parent := rfl
@[simp] theorem renumber_dst_grandparent :
    (c.renumber r).dst.grandparent = c.dst.grandparent.map r.after.num := rfl

@[simp] theorem grandparentKind?_src_renumber :
    (c.renumber r).src.grandparentKind? = c.src.grandparentKind? :=
  Anchor.grandparentKind?_renumber r.before c.src

@[simp] theorem grandparentKind?_dst_renumber :
    (c.renumber r).dst.grandparentKind? = c.dst.grandparentKind? :=
  Anchor.grandparentKind?_renumber r.after c.dst

@[simp] theorem report_renumber (kind : RefactoringKind) (details : String) (element : ElementType)
    (oldRole oldElement newRole newElement : String) :
    (c.renumber r).report kind details element oldRole oldElement newRole newElement =
      c.report kind details element oldRole oldElement newRole newElement := by
  unfold report
  rw [renumber_src_node, renumber_dst_node, CodeRange.ofNode_renumber, CodeRange.ofNode_renumber]
  rfl

theorem methodRename?_renumber : (c.renumber r).methodRename? = c.methodRename? := by
  unfold methodRename?
  cases h : c.dst.grandparent <;> simp [h]

theorem parameterRename?_renumber : (c.renumber r).parameterRename? = c.parameterRename? := by
  unfold parameterRename?
  cases h : c.dst.grandparent with
  | none => simp [h]
  | some method => cases h' : d.after.parent method <;> simp [h, h']

theorem attributeRename?_renumber : (c.renumber r).attributeRename? = c.attributeRename? := by
  unfold attributeRename?
  cases h : c.dst.grandparent with
  | none => simp [h]
  | some field => cases h' : d.after.parent field <;> simp [h, h']

theorem variableRename?_renumber (element : ElementType) :
    (c.renumber r).variableRename? element = c.variableRename? element := by
  unfold variableRename?
  simp

/-- **Renumbered candidates are the same renames.** -/
theorem rename?_renumber (groupSize : Nat) :
    (c.renumber r).rename? groupSize = c.rename? groupSize := by
  unfold rename?
  simp only [renumber_src_parent, Tree.Renumbering.kind, grandparentKind?_src_renumber,
    grandparentKind?_dst_renumber, methodRename?_renumber, parameterRename?_renumber,
    attributeRename?_renumber, variableRename?_renumber]

theorem parameterTypeChange?_renumber :
    (c.renumber r).parameterTypeChange? = c.parameterTypeChange? := by
  unfold parameterTypeChange?
  cases h : c.dst.grandparent with
  | none => simp [h]
  | some method => cases h' : d.after.parent method <;> simp [h, h']

theorem attributeTypeChange?_renumber :
    (c.renumber r).attributeTypeChange? = c.attributeTypeChange? := by
  unfold attributeTypeChange?
  cases h : d.after.parent c.dst.parent <;> simp [h]

theorem variableTypeChange?_renumber (old new : Option String) :
    (c.renumber r).variableTypeChange? old new = c.variableTypeChange? old new := by
  unfold variableTypeChange?
  simp

theorem returnTypeChange?_renumber : (c.renumber r).returnTypeChange? = c.returnTypeChange? := by
  unfold returnTypeChange?
  cases h : d.after.enclosingMethod? c.dst.node with
  | none => simp [h]
  | some method => cases h' : d.after.parent method <;> simp [h, h']

/-- **Renumbered candidates are the same type changes.** -/
theorem typeChange?_renumber : (c.renumber r).typeChange? = c.typeChange? := by
  unfold typeChange?
  simp only [renumber_src_parent, renumber_dst_parent, Tree.Renumbering.kind,
    Tree.Renumbering.firstFragmentSignature?, Tree.Renumbering.variableSignature?,
    grandparentKind?_src_renumber, grandparentKind?_dst_renumber, parameterTypeChange?_renumber,
    attributeTypeChange?_renumber, variableTypeChange?_renumber, returnTypeChange?_renumber]

theorem isUnchanged_renumber : (c.renumber r).isUnchanged = c.isUnchanged :=
  r.before.isomorphic r.after c.src.node c.dst.node

end Candidate

/-! ## 3. Candidates -/

theorem key_renumber (f g : Nat → Nat) (e : Edit) (old : String) :
    (e.renumber f g).key old = e.key old := by
  cases e <;> rfl

theorem mayRename_renumber (i : d.before.Id) :
    d'.mayRename (r.before.num i) = d.mayRename i := by
  unfold mayRename
  rw [r.before.kind, r.before.parent]
  cases d.before.parent i <;> simp

theorem renameCandidate?_renumber (hd : d.InRange) {e : Edit} (he : e ∈ d.script) :
    d'.renameCandidate? (e.renumber r.before.loose r.after.loose) =
      (d.renameCandidate? e).map (Option.map fun x => (x.1, r.before.num x.2)) := by
  cases e with
  | update n label =>
    have hn := hd.update n label he
    show (d'.before.resolve (r.before.loose n)).map _ = ((d.before.resolve n).map _).map _
    rw [r.before.resolve_loose hn, Tree.resolve_of_lt hn]
    simp only [Except.map, mayRename_renumber, r.before.label]
    split <;> rfl
  | insert n => rfl
  | delete n => rfl
  | move n => rfl

theorem renameCandidates_renumber (hd : d.InRange) :
    d'.renameCandidates =
      d.renameCandidates.map (List.map fun x => (x.1, r.before.num x.2)) := by
  unfold renameCandidates
  rw [r.script]
  exact gather_map fun e he => renameCandidate?_renumber r hd he

/-- The candidate of the renumbered node. -/
def renumberType (c : TypeCandidate d.before) : TypeCandidate d'.before :=
  ⟨r.before.num c.node, c.moved⟩

theorem typeEdit?_renumber (f g : Nat → Nat) (e : Edit) (moved : Bool) (i : d.before.Id) :
    d'.typeEdit? (e.renumber f g) moved (r.before.num i) =
      (d.typeEdit? e moved i).map fun x => (x.1, renumberType r x.2) := by
  unfold typeEdit?
  rw [r.before.isType, r.before.kind, r.before.label, key_renumber]
  split <;> rfl

theorem typeCandidate?_renumber (hd : d.InRange) {e : Edit} (he : e ∈ d.script) :
    d'.typeCandidate? (e.renumber r.before.loose r.after.loose) =
      (d.typeCandidate? e).map (Option.map fun x => (x.1, renumberType r x.2)) := by
  cases e with
  | update n label =>
    have hn := hd.update n label he
    show (d'.before.resolve (r.before.loose n)).map _ = ((d.before.resolve n).map _).map _
    rw [r.before.resolve_loose hn, Tree.resolve_of_lt hn]
    exact congrArg Except.ok (typeEdit?_renumber r _ _ (.update n label) false ⟨n, hn⟩)
  | move n =>
    have hn := hd.move n he
    show (d'.before.resolve (r.before.loose n)).map _ = ((d.before.resolve n).map _).map _
    rw [r.before.resolve_loose hn, Tree.resolve_of_lt hn]
    exact congrArg Except.ok (typeEdit?_renumber r _ _ (.move n) true ⟨n, hn⟩)
  | insert n => rfl
  | delete n => rfl

theorem isNestedType_renumber {s t : Tree} (r : s.Renumbering t) (i : s.Id) :
    t.isNestedType (r.num i) = s.isNestedType i := by
  unfold Tree.isNestedType
  rw [r.parent]
  cases s.parent i <;> simp

theorem genericUpdate?_renumber (i : d.before.Id) (j : d.after.Id) :
    d'.genericUpdate? (r.before.num i) (r.after.num j) =
      (d.genericUpdate? i j).map fun x => (x.1, renumberType r x.2) := by
  unfold genericUpdate?
  rw [isNestedType_renumber, isNestedType_renumber, r.before.isomorphic r.after,
    r.before.displayLabel, r.after.displayLabel]
  split <;> rfl

theorem genericCandidate?_renumber (hd : d.InRange) {p : Nat × Nat} (hp : p ∈ d.mapping.pairs) :
    d'.genericCandidate? (r.before.loose p.1, r.after.loose p.2) =
      (d.genericCandidate? p).map (Option.map fun x => (x.1, renumberType r x.2)) := by
  obtain ⟨h₁, h₂⟩ := hd.mapping p hp
  unfold genericCandidate?
  rw [r.before.resolve_loose h₁, r.after.resolve_loose h₂, Tree.resolve_of_lt h₁,
    Tree.resolve_of_lt h₂]
  simp only [Except.map, r.before.kind, r.after.kind, genericUpdate?_renumber]
  split
  · split <;> rfl
  · rfl

/-- The candidates for type changes, those of the pairs in the order of the new numbers. -/
theorem typeCandidates_renumber (hd : d.InRange) {xs : List (String × TypeCandidate d.before)}
    (h : d.typeCandidates = .ok xs) :
    ∃ xs', d'.typeCandidates = .ok xs' ∧
      xs'.Perm (xs.map fun x => (x.1, renumberType r x.2)) := by
  unfold typeCandidates at h
  obtain ⟨edited, hedited, h⟩ := bind_eq_ok.1 h
  obtain ⟨generic, hgeneric, h⟩ := bind_eq_ok.1 h
  cases h
  have hedited' : gather d'.typeCandidate? d'.script =
      .ok (edited.map fun x => (x.1, renumberType r x.2)) := by
    rw [r.script, gather_map fun e he => typeCandidate?_renumber r hd he, hedited]
    rfl
  have hgeneric' : gather d'.genericCandidate?
      (d.mapping.pairs.map fun p => (r.before.loose p.1, r.after.loose p.2)) =
        .ok (generic.map fun x => (x.1, renumberType r x.2)) := by
    rw [gather_map fun p hp => genericCandidate?_renumber r hd hp, hgeneric]
    rfl
  obtain ⟨generic', hgeneric', hperm⟩ := gather_perm r.mapping.symm hgeneric'
  refine ⟨_, bind_eq_ok.2 ⟨_, hedited', bind_eq_ok.2 ⟨_, hgeneric', rfl⟩⟩, ?_⟩
  rw [List.map_append]
  exact hperm.symm.append_left _

/-! ## 4. The passes -/

theorem classifyRename_renumber (hd : d.InRange) (path : String) (i : d.before.Id)
    (groupSize : Nat) :
    d'.classifyRename path (r.before.num i) groupSize = d.classifyRename path i groupSize := by
  unfold classifyRename
  rw [Anchor.of?_renumber, r.dst? hd]
  cases Anchor.of? d.before i with
  | none => rfl
  | some src =>
    cases hj : d.mapping.dst? i with
    | none => rfl
    | some j =>
      have hlt := (hd.mapping _ (Correspondence.dst?_eq_some_iff.1 hj)).2
      dsimp only [Option.map_some]
      rw [r.after.resolve_loose hlt, Tree.resolve_of_lt hlt]
      refine congrArg attempt ?_
      rw [Anchor.of?_renumber, Option.bind_map]
      exact congrArg _ (funext fun dst => Candidate.rename?_renumber r ⟨path, src, dst⟩ groupSize)

theorem classifyTypeChange_renumber (hd : d.InRange) (path : String) (c : TypeCandidate d.before) :
    d'.classifyTypeChange path (renumberType r c) = d.classifyTypeChange path c := by
  unfold classifyTypeChange renumberType
  dsimp only
  rw [Anchor.ofType?_renumber, r.dst? hd]
  cases hj : d.mapping.dst? c.node with
  | none => rfl
  | some j =>
    cases Anchor.ofType? d.before c.node with
    | none => rfl
    | some src =>
      have hlt := (hd.mapping _ (Correspondence.dst?_eq_some_iff.1 hj)).2
      dsimp only [Option.map_some]
      rw [r.after.resolve_loose hlt, Tree.resolve_of_lt hlt]
      refine congrArg attempt ?_
      rw [Anchor.ofType?_renumber, Option.bind_map]
      refine congrArg _ (funext fun dst => ?_)
      have hsame := Candidate.isUnchanged_renumber r ⟨path, src, dst⟩
      have hchange := Candidate.typeChange?_renumber r ⟨path, src, dst⟩
      unfold Candidate.renumber at hsame hchange
      simp only [Function.comp_def, hsame, hchange]

/-- **The rename pass gives the same list of records.** -/
theorem renames_renumber (r : d.Renumbering d') (hd : d.InRange) (path : String) :
    d'.renames path = d.renames path := by
  unfold renames
  rw [renameCandidates_renumber r hd]
  cases d.renameCandidates with
  | error e => rfl
  | ok xs =>
    show gather _ (Group.sized (groupByKey (xs.map fun x => (x.1, r.before.num x.2)))) =
      gather _ (Group.sized (groupByKey xs))
    rw [groupByKey_map, sized_map]
    exact gather_map_same fun x _ => classifyRename_renumber r hd path x.1 x.2

/-- The sizes of the groups do not matter to the type-change pass. -/
theorem typeChanges_eq (d : Diff) (path : String) {xs : List (String × TypeCandidate d.before)}
    (hxs : d.typeCandidates = .ok xs) :
    d.typeChanges path =
      gather (d.classifyTypeChange path) ((Group.sized (groupByKey xs)).map (·.1)) := by
  have h : gather (d.classifyTypeChange path) ((Group.sized (groupByKey xs)).map (·.1)) =
      gather (fun x => d.classifyTypeChange path x.1) (Group.sized (groupByKey xs)) :=
    gather_map_same fun _ _ => rfl
  unfold typeChanges
  rw [hxs, h]
  rfl

/-- **The type-change pass gives the same records, possibly in another order.** -/
theorem typeChanges_renumber (r : d.Renumbering d') (hd : d.InRange) (path : String)
    {ts : List Refactoring} (h : d.typeChanges path = .ok ts) :
    ∃ ts', d'.typeChanges path = .ok ts' ∧ ts'.Perm ts := by
  obtain ⟨xs, hxs, -⟩ := bind_eq_ok.1 h
  obtain ⟨xs', hxs', hperm⟩ := typeCandidates_renumber r hd hxs
  rw [typeChanges_eq d path hxs] at h
  obtain ⟨ts₁, hts₁, hperm₁⟩ := gather_perm (sized_perm xs) h
  have hts₂ : gather (d'.classifyTypeChange path) ((xs.map (·.2)).map (renumberType r)) =
      .ok ts₁ := by
    rw [← hts₁]
    exact gather_map_same fun c _ => classifyTypeChange_renumber r hd path c
  have hmembers : ((xs.map (·.2)).map (renumberType r)).Perm
      ((Group.sized (groupByKey xs')).map (·.1)) := by
    have hsnd := (hperm.map (·.2)).symm
    rw [List.map_map] at hsnd ⊢
    exact hsnd.trans (sized_perm xs').symm
  obtain ⟨ts', hts', hperm₂⟩ := gather_perm hmembers hts₂
  refine ⟨ts', ?_, (hperm₁.trans hperm₂).symm⟩
  rw [typeChanges_eq d' path hxs', hts']

end Diff

end Recast
