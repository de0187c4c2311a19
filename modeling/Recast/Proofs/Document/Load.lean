import Recast.Document.Basic
import Recast.Proofs.Correspondence
import Recast.Proofs.Fault

/-!
# What a loaded document guarantees

Loading checks every pair and every edit in turn, so that in what it returns no number is wrong.

* `Edit.Names`: an edit names a node of the tree it is about;
* `Diff.Numbered`: every pair and every edit of a difference does;
* `Document.loadPairs_eq_ok`: pairs are loaded when they are in range and can be collected;
* `Document.exists_loadPairs_empty`: pairs in range that share no node are loaded;
* `Document.numbered_of_load`: loading gives such a difference, with the script of the document.
-/

namespace Recast

/-! ## 1. Numbers in range -/

/-- An edit names a node: an insertion of the later tree, any other of the earlier. -/
def Edit.Names (e : Edit) (before after : Tree) : Prop :=
  if e.isInsert then e.node < after.nodes.size else e.node < before.nodes.size

instance (e : Edit) (before after : Tree) : Decidable (e.Names before after) :=
  inferInstanceAs (Decidable (if e.isInsert then e.node < after.nodes.size
    else e.node < before.nodes.size))

/-- Every pair and every edit names nodes of the trees it is about. -/
structure Diff.Numbered (d : Diff) : Prop where
  mapping : ∀ p ∈ d.mapping.pairs, p.1 < d.before.nodes.size ∧ p.2 < d.after.nodes.size
  script : ∀ e ∈ d.script, e.Names d.before d.after

/-- Classification asks for less: it never looks at insertions and deletions. -/
theorem Diff.Numbered.inRange {d : Diff} (h : d.Numbered) : d.InRange where
  mapping := h.mapping
  update _ _ he := h.script _ he
  move _ he := h.script _ he

namespace Document

/-! ## 2. The checks -/

theorem checkNode_eq_ok {t : Tree} {side : Side} {i : Nat} {u : Unit} :
    checkNode t side i = .ok u ↔ i < t.nodes.size := by
  unfold checkNode
  split
  · rename_i h
    exact ⟨fun _ => h, fun _ => rfl⟩
  · rename_i h
    constructor
    · intro h'
      cases h'
    · intro h'
      exact absurd h' h

/-- A pair that is loaded names two nodes and fits; the rest goes on from there. -/
theorem loadPairs_cons_eq_ok {before after : Tree} {m m' : Correspondence} {s d : Nat}
    {ps : List (Nat × Nat)} :
    loadPairs before after m ((s, d) :: ps) = .ok m' ↔
      s < before.nodes.size ∧ d < after.nodes.size ∧
        ∃ m₁, m.insert s d = .ok m₁ ∧ loadPairs before after m₁ ps = .ok m' := by
  rw [loadPairs, bind_eq_ok]
  simp only [checkNode_eq_ok, bind_eq_ok]
  constructor
  · rintro ⟨_, hs, _, hd, h⟩
    cases hm : m.insert s d with
    | error e =>
      rw [hm] at h
      cases h
    | ok m₁ =>
      rw [hm] at h
      exact ⟨hs, hd, m₁, rfl, h⟩
  · rintro ⟨hs, hd, m₁, hm, h⟩
    refine ⟨(), hs, (), hd, ?_⟩
    rw [hm]
    exact h

/-- **Pairs are loaded when they name nodes and are collected.** -/
theorem loadPairs_eq_ok {before after : Tree} {ps : List (Nat × Nat)} {m m' : Correspondence} :
    loadPairs before after m ps = .ok m' ↔
      (∀ p ∈ ps, p.1 < before.nodes.size ∧ p.2 < after.nodes.size) ∧ m.insertAll ps = .ok m' := by
  induction ps generalizing m with
  | nil =>
    rw [loadPairs, Correspondence.insertAll]
    simp
  | cons p ps ih =>
    obtain ⟨s, d⟩ := p
    simp only [loadPairs_cons_eq_ok, Correspondence.insertAll_cons_eq_ok, ih, List.forall_mem_cons]
    constructor
    · rintro ⟨hs, hd, m₁, hm₁, hrange, h⟩
      exact ⟨⟨⟨hs, hd⟩, hrange⟩, m₁, hm₁, h⟩
    · rintro ⟨⟨⟨hs, hd⟩, hrange⟩, m₁, hm₁, h⟩
      exact ⟨hs, hd, m₁, hm₁, hrange, h⟩

/-- Loading pairs keeps the numbers of a correspondence in range. -/
theorem inRange_of_loadPairs {before after : Tree} {ps : List (Nat × Nat)}
    {m m' : Correspondence} (h : loadPairs before after m ps = .ok m')
    (hm : ∀ p ∈ m.pairs, p.1 < before.nodes.size ∧ p.2 < after.nodes.size) :
    ∀ p ∈ m'.pairs, p.1 < before.nodes.size ∧ p.2 < after.nodes.size := by
  obtain ⟨hrange, hall⟩ := loadPairs_eq_ok.1 h
  intro p hp
  rcases List.mem_append.1 ((Correspondence.perm_of_insertAll hall).subset hp) with hp | hp
  · exact hrange p hp
  · exact hm p hp

/-- Pairs that name nodes, none of them twice, are all loaded. -/
theorem exists_loadPairs_empty {before after : Tree} {ps : List (Nat × Nat)}
    (hrange : ∀ p ∈ ps, p.1 < before.nodes.size ∧ p.2 < after.nodes.size)
    (hfst : ps.Pairwise fun p q => p.1 ≠ q.1) (hsnd : ps.Pairwise fun p q => p.2 ≠ q.2) :
    ∃ m, loadPairs before after .empty ps = .ok m ∧ m.pairs.Perm ps := by
  obtain ⟨m, hm⟩ := Correspondence.exists_ofPairs hfst hsnd
  exact ⟨m, loadPairs_eq_ok.2 ⟨hrange, hm⟩, Correspondence.perm_of_ofPairs hm⟩

/-- A script passes its check exactly when every edit names a node. -/
theorem checkScript_eq_ok {before after : Tree} {es : List Edit} {u : Unit} :
    checkScript before after es = .ok u ↔ ∀ e ∈ es, e.Names before after := by
  induction es with
  | nil =>
    constructor
    · intro _ e he
      cases he
    · intro _
      rfl
  | cons e es ih =>
    rw [checkScript, List.forall_mem_cons, ← ih]
    unfold Edit.Names
    split
    · rw [bind_eq_ok]
      simp only [checkNode_eq_ok]
      exact ⟨fun ⟨_, h, h'⟩ => ⟨h, h'⟩, fun ⟨h, h'⟩ => ⟨(), h, h'⟩⟩
    · rw [bind_eq_ok]
      simp only [checkNode_eq_ok]
      exact ⟨fun ⟨_, h, h'⟩ => ⟨h, h'⟩, fun ⟨h, h'⟩ => ⟨(), h, h'⟩⟩

/-! ## 3. Loading -/

/-- **The steps of loading a document.** -/
theorem load_eq_ok {doc : Document} {d : Diff} :
    doc.load = .ok d ↔
      doc.before.load = .ok d.before ∧ doc.after.load = .ok d.after ∧
      loadPairs d.before d.after .empty doc.mapping = .ok d.mapping ∧
      checkScript d.before d.after doc.script = .ok () ∧ d.script = doc.script := by
  unfold load
  simp only [bind_eq_ok, mapError_eq_ok]
  constructor
  · rintro ⟨before, hb, after, ha, mapping, hm, _, hs, h⟩
    cases h
    exact ⟨hb, ha, hm, hs, rfl⟩
  · rintro ⟨hb, ha, hm, hs, he⟩
    refine ⟨d.before, hb, d.after, ha, d.mapping, hm, (), hs, ?_⟩
    rw [← he]
    rfl

/-- **What a document describes has all its numbers in range.** -/
theorem numbered_of_load {doc : Document} {d : Diff} (h : doc.load = .ok d) : d.Numbered := by
  obtain ⟨-, -, hm, hs, he⟩ := load_eq_ok.1 h
  constructor
  · exact inRange_of_loadPairs hm fun p hp => absurd hp List.not_mem_nil
  · rw [he]
    exact checkScript_eq_ok.1 hs

end Document

end Recast
