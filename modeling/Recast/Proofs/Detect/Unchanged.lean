import Recast.Proofs.Detect.Singly
import Recast.Proofs.Report
import Recast.Proofs.ShapeMatch.Script
import Recast.Proofs.Snapshot
import Recast.Proofs.Tree.Building

/-!
# Unchanged code

Two trees that read alike may have other texts, other spans and other numbers for their nodes, such
as after a change of layout. Matched by shape they leave nothing to detect. Nor does a tree whose
nodes are only moved about and are all their own counterparts.

* `Correspondence.Identifies.detect_eq`: without an edit, and with every pair alike, neither pass
  has a candidate;
* `Collaborators.shaped`: matching by shape after any parser;
* `diffSnapshots_without`: a file in which nothing is found may be left out;
* `detect_unchanged`: **the difference of isomorphic trees has no edit, nothing is detected in it,
  and a file with such trees adds nothing to a report**;
* `Correspondence.Fixes.classifyTypeChange_moved`: a moved node that is its own counterpart is no
  type change, whatever type it is lifted to;
* `detect_moves`: **moves, insertions and deletions within one tree leave nothing to detect.**
-/

namespace Recast

variable {s t : Tree} {m : Correspondence}

/-! ## 1. One difference -/

namespace Correspondence.Identifies

/-- A pair that reads alike is no candidate, whether or not it is one of generic types. -/
theorem genericCandidate?_eq (h : m.Identifies s t) {p : Nat × Nat} (hp : p ∈ m.pairs) :
    Diff.genericCandidate? ⟨s, t, m, []⟩ p = .ok none := by
  obtain ⟨i, j, rfl, hterm⟩ := h.alike p hp
  have hnone : Diff.genericUpdate? ⟨s, t, m, []⟩ i j = none := by
    unfold Diff.genericUpdate?
    rw [Tree.isomorphic_iff_term_eq.2 hterm, Bool.or_true]
    rfl
  unfold Diff.genericCandidate?
  rw [Tree.resolve_of_lt i.isLt, Tree.resolve_of_lt j.isLt]
  dsimp only [Except.map]
  split
  · split
    · exact congrArg Except.ok hnone
    · rfl
  · rfl

/-- **Nothing is detected where every pair reads alike and there is no edit.** -/
theorem detect_eq (h : m.Identifies s t) (path : String) (passes : Passes) :
    detect path ⟨s, t, m, []⟩ passes = .ok .empty := by
  have hrenames : Diff.renames ⟨s, t, m, []⟩ path = .ok [] := rfl
  have hcandidates : Diff.typeCandidates ⟨s, t, m, []⟩ = .ok [] := by
    unfold Diff.typeCandidates
    rw [gather_eq_nil fun p hp => h.genericCandidate?_eq hp]
    rfl
  have htypeChanges : Diff.typeChanges ⟨s, t, m, []⟩ path = .ok [] := by
    unfold Diff.typeChanges
    rw [hcandidates]
    rfl
  exact detect_eq_ok.2 ⟨[], [], by rw [hrenames, ite_self], by rw [htypeChanges, ite_self], rfl⟩

end Correspondence.Identifies

/-! ## 2. A file of two snapshots -/

/-- Any parser, with matching by shape after it. -/
def Collaborators.shaped (parse : String → Except Trouble Tree) : Collaborators :=
  { byShape [] with parse }

/-- A file in which nothing is found may be left out. -/
theorem diffSnapshots_without {before after : Snapshot} {c : Collaborators} {passes : Passes}
    {path old new : String} (hold : before.text? path = some old)
    (hnew : after.text? path = some new) (h : c.diffFile passes path old new = .ok .empty) :
    diffSnapshots before after c passes =
      diffSnapshots (before.without path) (after.without path) c passes := by
  unfold diffSnapshots Snapshot.without
  rw [Snapshot.common_restrict]
  refine (Report.merge_filter ?_).symm
  rintro ⟨path', old', new'⟩ hmem hpath
  obtain rfl : path' = path := by simpa using hpath
  obtain ⟨hold', hnew'⟩ := Snapshot.mem_common.1 hmem
  rw [hold] at hold'
  rw [hnew] at hnew'
  cases hold'
  cases hnew'
  exact h

/-- **Unchanged code yields nothing.** Trees that are isomorphic at their roots are matched without
    an edit, by either script, and nothing is detected in their difference. A file whose versions
    are parsed to such trees adds neither a record nor a failure to a report. -/
theorem detect_unchanged {s t : Tree} (h : s.isomorphic s.root t t.root = true) :
    ∃ m, matchByShape s t = .ok m ∧ shapeScript s t m = .ok [] ∧
      labelDiff s t = .ok ⟨s, t, m, []⟩ ∧
      (∀ path passes, detect path ⟨s, t, m, []⟩ passes = .ok .empty) ∧
      ∀ (parse : String → Except Trouble Tree) (before after : Snapshot) (path old new : String)
        (passes : Passes), before.text? path = some old → after.text? path = some new →
        parse old = .ok s → parse new = .ok t →
        (Collaborators.shaped parse).diff old new = .ok ⟨s, t, m, []⟩ ∧
        diffSnapshots before after (.shaped parse) passes =
          diffSnapshots (before.without path) (after.without path) (.shaped parse) passes := by
  obtain ⟨m, hm, hidentifies⟩ := matchByShape_of_term_eq (Tree.isomorphic_iff_term_eq.1 h)
  have hscript := hidentifies.shapeScript_eq
  have hlabel : labelDiff s t = .ok ⟨s, t, m, []⟩ :=
    bind_eq_ok.2 ⟨m, hm, bind_eq_ok.2 ⟨[], hidentifies.labelUpdates_eq, rfl⟩⟩
  refine ⟨m, hm, hscript, hlabel, hidentifies.detect_eq, ?_⟩
  intro parse before after path old new passes hold hnew hs ht
  have hdiff : (Collaborators.shaped parse).diff old new = .ok ⟨s, t, m, []⟩ := by
    refine bind_eq_ok.2 ⟨s, hs, bind_eq_ok.2 ⟨t, ht, bind_eq_ok.2 ⟨m, mapError_eq_ok.2 hm, ?_⟩⟩⟩
    exact bind_eq_ok.2 ⟨[], mapError_eq_ok.2 hscript, rfl⟩
  refine ⟨hdiff, diffSnapshots_without hold hnew ?_⟩
  unfold Collaborators.diffFile tryDetect
  rw [hdiff]
  exact mapError_eq_ok.2 (hidentifies.detect_eq path passes)

/-- A class with a field of a generic type, numbered from the top down. -/
def tightField : Tree :=
  ((Arena.ofText "class A \x7b L<X> a; \x7d" .compilationUnit).calls
    [⟨0, .typeDeclaration, "", .ofLength 0 19⟩, ⟨1, .simpleName, "A", .ofLength 6 1⟩,
      ⟨1, .fieldDeclaration, "", .ofLength 10 7⟩, ⟨3, .parameterizedType, "", .ofLength 10 4⟩,
      ⟨4, .simpleType, "L", .ofLength 10 1⟩, ⟨4, .simpleType, "X", .ofLength 12 1⟩,
      ⟨3, .variableDeclarationFragment, "", .ofLength 15 1⟩,
      ⟨7, .simpleName, "a", .ofLength 15 1⟩]).finish.toOption.get (by decide +kernel)

/-- The same class in another layout, numbered level by level. -/
def wideField : Tree :=
  ((Arena.ofText "class A \x7b\n  L<X>  a;\n\x7d" .compilationUnit).calls
    [⟨0, .typeDeclaration, "", .ofLength 0 22⟩, ⟨1, .simpleName, "A", .ofLength 6 1⟩,
      ⟨1, .fieldDeclaration, "", .ofLength 12 8⟩, ⟨3, .parameterizedType, "", .ofLength 12 4⟩,
      ⟨3, .variableDeclarationFragment, "", .ofLength 18 1⟩,
      ⟨4, .simpleType, "L", .ofLength 12 1⟩, ⟨4, .simpleType, "X", .ofLength 14 1⟩,
      ⟨5, .simpleName, "a", .ofLength 18 1⟩]).finish.toOption.get (by decide +kernel)

theorem detect_unchanged_layout :
    tightField.isomorphic tightField.root wideField wideField.root = true ∧
      tightField.text ≠ wideField.text ∧
      (∃ m, matchByShape tightField wideField = .ok m ∧
        shapeScript tightField wideField m = .ok [] ∧
        detect "A.java" ⟨tightField, wideField, m, []⟩ {} = .ok .empty) ∧
      diffSnapshots (.ofList [("A.java", tightField.text)]) (.ofList [("A.java", wideField.text)])
        (.byShape [tightField, wideField]) {} = .empty := by
  have hiso : tightField.isomorphic tightField.root wideField wideField.root = true := by
    decide +kernel
  have htext : tightField.text ≠ wideField.text := by decide +kernel
  obtain ⟨m, hm, hscript, -, hdetect, hfile⟩ := detect_unchanged hiso
  refine ⟨hiso, htext, ⟨m, hm, hscript, hdetect "A.java" {}⟩, ?_⟩
  have hs : lookUpTree [tightField, wideField] tightField.text = .ok tightField := by
    simp [lookUpTree, htext.symm]
  have ht : lookUpTree [tightField, wideField] wideField.text = .ok wideField := by
    simp [lookUpTree]
  exact (hfile (lookUpTree [tightField, wideField]) _ _ "A.java" _ _ {} rfl rfl hs ht).2

/-! ## 3. Moves within one tree -/

/-- Every pair has one and the same node of the tree on either side. -/
def Correspondence.Fixes (m : Correspondence) (t : Tree) : Prop :=
  ∀ p ∈ m.pairs, p.1 = p.2 ∧ p.1 < t.nodes.size

instance (m : Correspondence) (t : Tree) : Decidable (m.Fixes t) :=
  inferInstanceAs (Decidable (∀ p ∈ m.pairs, _))

/-- Whether an edit leaves all labels as they are; what is moved has to be a node of the tree. -/
def Edit.keepsLabels (t : Tree) : Edit → Bool
  | .update _ _ => false
  | .move n => n < t.nodes.size
  | .insert _ | .delete _ => true

theorem Diff.renameOf_of_keepsLabels {d : Diff} (path : String) {e : Edit}
    (he : e.keepsLabels d.before = true) : d.renameOf path e = .ok none := by
  cases e with
  | insert n => rfl
  | delete n => rfl
  | move n => rfl
  | update n label => cases he

namespace Correspondence.Fixes

variable {script : List Edit}

theorem eq_of_dst? (hm : m.Fixes t) {i j : Nat} (h : m.dst? i = some j) : i = j :=
  (hm _ (dst?_eq_some_iff.1 h)).1

theorem inRange (hm : m.Fixes t) (hscript : ∀ e ∈ script, e.keepsLabels t = true) :
    Diff.InRange ⟨t, t, m, script⟩ where
  mapping p hp := by
    obtain ⟨heq, hlt⟩ := hm p hp
    exact ⟨hlt, heq ▸ hlt⟩
  update n label he := nomatch hscript _ he
  move n he := of_decide_eq_true (hscript _ he)

/-- **A moved node is no candidate**: it is its own counterpart, so that both are lifted to the same
    type, and every type reads as itself. -/
theorem classifyTypeChange_moved (hm : m.Fixes t)
    (hscript : ∀ e ∈ script, e.keepsLabels t = true) (path : String) (i : t.Id) :
    Diff.classifyTypeChange ⟨t, t, m, script⟩ path ⟨i, true⟩ = .ok none := by
  obtain ⟨o, ho⟩ := Diff.classifyTypeChange_total (hm.inRange hscript) path ⟨i, true⟩
  cases o with
  | none => exact ho
  | some r =>
    obtain ⟨j, src, dst, hsrc, hj, hdst, hchanged, -⟩ := Diff.classifyTypeChange_eq_some.1 ho
    obtain rfl : i = j := Fin.ext (hm.eq_of_dst? hj)
    obtain rfl : src = dst := Option.some.inj (hsrc.symm.trans hdst)
    cases (Tree.isomorphic_refl src.node).symm.trans (hchanged rfl)

/-- No edit is answered with a type change. -/
theorem typeChangeOf_eq (hm : m.Fixes t) (hscript : ∀ e ∈ script, e.keepsLabels t = true)
    (path : String) {e : Edit} (he : e ∈ script) :
    Diff.typeChangeOf ⟨t, t, m, script⟩ path e = .ok none := by
  cases e with
  | insert n => rfl
  | delete n => rfl
  | move n =>
    have hn : n < t.nodes.size := of_decide_eq_true (hscript _ he)
    refine bind_eq_ok.2 ⟨⟨n, hn⟩, Tree.resolve_of_lt hn, ?_⟩
    unfold Diff.typeChangeAt
    split
    · exact hm.classifyTypeChange_moved hscript path ⟨n, hn⟩
    · rfl
  | update n label => cases hscript _ he

/-- No pair is answered with a type change. -/
theorem genericChangeOf_eq (hm : m.Fixes t) (path : String) {p : Nat × Nat} (hp : p ∈ m.pairs) :
    Diff.genericChangeOf ⟨t, t, m, script⟩ path p = .ok none := by
  obtain ⟨i, j⟩ := p
  obtain ⟨rfl, hi⟩ : i = j ∧ i < t.nodes.size := hm _ hp
  have hresolve : t.resolve i = .ok ⟨i, hi⟩ := Tree.resolve_of_lt hi
  refine bind_eq_ok.2 ⟨_, hresolve, bind_eq_ok.2 ⟨_, hresolve, if_neg ?_⟩⟩
  unfold Diff.differInside
  dsimp only
  rw [Tree.isomorphic_refl, Bool.or_true, Bool.not_true, Bool.and_false]
  exact Bool.false_ne_true

end Correspondence.Fixes

/-- **Moves within one tree yield nothing.** Where every pair has the same node on either side and
    no edit gives another label, nothing is detected: neither in the moves, whatever type their
    nodes are lifted to, nor in the pairs of generic types. -/
theorem detect_moves (t : Tree) (m : Correspondence) (hm : m.Fixes t) (script : List Edit)
    (hscript : ∀ e ∈ script, e.keepsLabels t = true) (path : String) (passes : Passes) :
    detect path ⟨t, t, m, script⟩ passes = .ok .empty :=
  Diff.detect_eq_empty (hm.inRange hscript)
    (fun e he => Diff.renameOf_of_keepsLabels path (hscript e he))
    (fun _ he => hm.typeChangeOf_eq hscript path he)
    (fun _ hp => hm.genericChangeOf_eq path hp) passes

/-- Every node of a tree is paired with itself and two of its types are moved; the insertion and
    the deletion name nodes that it does not have. -/
def movedTypes : Diff where
  before := tightField
  after := tightField
  mapping := .diagonal 9
  script := [.move 5, .insert 30, .delete 99, .move 4]

-- both moves are candidates, and an update in the place of one would be reported
theorem detect_movedTypes :
    movedTypes.mapping.Fixes tightField ∧
      (∀ e ∈ movedTypes.script, e.keepsLabels tightField = true) ∧
      movedTypes.typeCandidates.toOption.map List.length = some 2 ∧
      detect "A.java" movedTypes {} = .ok .empty ∧
      (detect "A.java" { movedTypes with script := [.update 5 "L"] } {}).toOption.map
        (fun found => found.records.map (·.description)) =
        some ["Change Attribute Type a : L<X> to a : L<X> in class A"] := by
  have hm : movedTypes.mapping.Fixes tightField := by decide +kernel
  have hscript : ∀ e ∈ movedTypes.script, e.keepsLabels tightField = true := by decide +kernel
  refine ⟨hm, hscript, by decide +kernel, ?_, by decide +kernel⟩
  exact detect_moves tightField _ hm _ hscript "A.java" {}

end Recast
