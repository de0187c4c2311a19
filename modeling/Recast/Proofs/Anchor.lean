import Recast.Document.Basic
import Recast.Proofs.Classify.Cases
import Recast.Proofs.Correspondence
import Recast.Proofs.Tree.Renumbering

/-!
# Where edits inside a type are anchored

References to types are nested, and an edit may stand anywhere inside. This file says what a node is
lifted to, without the climb: to the top of the unbroken chain of types it is part of.

* `Tree.typeChain`, `Tree.topType?`: the chain, and its top;
* `outermostType?_eq_some_iff`: the climb finds the top, if that is a generic or array type;
* `Anchor.resolveType_of_outermost`: **whatever is part of such a type is lifted to the top**, on
  either way through the lifting;
* `Anchor.resolveType_idem`: lifting twice is lifting once;
* `inner_edits_share_anchor`: **so all edits inside a type are classified alike.**
-/

namespace Recast

namespace Tree

variable {t : Tree}

/-! ## 1. Chains of types -/

/-- The unbroken chain of types from a node upwards; empty when the node itself is no type. -/
def typeChain (t : Tree) (i : t.Id) : List t.Id := (i :: t.ancestors i).takeWhile t.isType

/-- The topmost node of the chain of types from a node upwards. -/
def topType? (t : Tree) (i : t.Id) : Option t.Id := (t.typeChain i).getLast?

theorem typeChain_of_not_isType {i : t.Id} (hi : t.isType i = false) : t.typeChain i = [] :=
  List.takeWhile_cons_of_neg (by rw [hi]; decide)

theorem topType?_of_not_isType {i : t.Id} (hi : t.isType i = false) : t.topType? i = none := by
  rw [topType?, typeChain_of_not_isType hi, List.getLast?_nil]

/-- A type at the root is its own top. -/
theorem topType?_of_root {i : t.Id} (hi : t.isType i = true) (hp : t.parent i = none) :
    t.topType? i = some i := by
  rw [topType?, typeChain, ancestors_eq, hp, List.takeWhile_cons_of_pos hi]
  rfl

theorem typeChain_of_parent {i p : t.Id} (hi : t.isType i = true) (hp : t.parent i = some p) :
    t.typeChain i = i :: t.typeChain p := by
  rw [typeChain, ancestors_eq, hp, List.takeWhile_cons_of_pos hi, typeChain]

/-- A type inside another has the same top as that. -/
theorem topType?_of_isType_parent {i p : t.Id} (hi : t.isType i = true)
    (hp : t.parent i = some p) (hpt : t.isType p = true) : t.topType? i = t.topType? p := by
  have hne : t.typeChain p = p :: (t.ancestors p).takeWhile t.isType :=
    List.takeWhile_cons_of_pos hpt
  rw [topType?, topType?, typeChain_of_parent hi hp, hne, List.getLast?_cons_cons]

/-- A type inside something else is its own top. -/
theorem topType?_of_not_isType_parent {i p : t.Id} (hi : t.isType i = true)
    (hp : t.parent i = some p) (hpt : t.isType p = false) : t.topType? i = some i := by
  rw [topType?, typeChain_of_parent hi hp, typeChain_of_not_isType hpt]
  rfl

theorem isType_of_topType? {i top : t.Id} (h : t.topType? i = some top) : t.isType i = true := by
  cases hi : t.isType i with
  | true => rfl
  | false =>
    rw [topType?_of_not_isType hi] at h
    cases h

/-- Above the top there is no further type. -/
theorem not_isType_above_top {i top p : t.Id} (h : t.topType? i = some top)
    (hp : t.parent top = some p) : t.isType p = false := by
  -- climb to the parent as long as it is a type
  induction hn : i.val using Nat.strongRecOn generalizing i with
  | ind n ih =>
    have hi := isType_of_topType? h
    cases hq : t.parent i with
    | none =>
      rw [topType?_of_root hi hq] at h
      cases h
      rw [hq] at hp
      cases hp
    | some q =>
      cases hqt : t.isType q with
      | true =>
        rw [topType?_of_isType_parent hi hq hqt] at h
        exact ih q.val (hn ▸ parent_lt hq) h rfl
      | false =>
        rw [topType?_of_not_isType_parent hi hq hqt] at h
        cases h
        rw [hq] at hp
        cases hp
        exact hqt

/-! ## 2. The climb -/

/-- **The climb finds the top of the chain, if it is a generic or array type.** -/
theorem outermostType?_eq_filter (t : Tree) (i : t.Id) :
    t.outermostType? i = (t.topType? i).filter t.isComposite := by
  fun_induction outermostType? t i with
  | case1 i hi p hp hpt ih => rw [ih, topType?_of_isType_parent hi hp hpt]
  | case2 i hi p hp hpt hc =>
    rw [topType?_of_not_isType_parent hi hp (Bool.eq_false_iff.2 hpt), Option.filter_some_pos hc]
  | case3 i hi p hp hpt hc =>
    rw [topType?_of_not_isType_parent hi hp (Bool.eq_false_iff.2 hpt),
      Option.filter_some_neg (Bool.eq_false_iff.2 hc)]
  | case4 i hi hp hc => rw [topType?_of_root hi hp, Option.filter_some_pos hc]
  | case5 i hi hp hc => rw [topType?_of_root hi hp, Option.filter_some_neg (Bool.eq_false_iff.2 hc)]
  | case6 i hi => rw [topType?_of_not_isType (Bool.eq_false_iff.2 hi), Option.filter_none]

theorem outermostType?_eq_some_iff {i top : t.Id} :
    t.outermostType? i = some top ↔ t.topType? i = some top ∧ t.isComposite top = true := by
  rw [outermostType?_eq_filter, Option.filter_eq_some_iff]

theorem outermostType?_of_isType_parent {i p : t.Id} (hi : t.isType i = true)
    (hp : t.parent i = some p) (hpt : t.isType p = true) :
    t.outermostType? i = t.outermostType? p := by
  rw [outermostType?_eq_filter, outermostType?_eq_filter, topType?_of_isType_parent hi hp hpt]

theorem outermostType?_of_not_isType {i : t.Id} (hi : t.isType i = false) :
    t.outermostType? i = none := by
  rw [outermostType?_eq_filter, topType?_of_not_isType hi, Option.filter_none]

theorem isComposite_iff {i : t.Id} :
    t.isComposite i = true ↔ t.kind i = .parameterizedType ∨ t.kind i = .arrayType := by
  rw [isComposite, Bool.or_eq_true, beq_iff_eq, beq_iff_eq]

/-- The node hangs on a type that is part of the generic or array type `top`. -/
structure IsPartOf (t : Tree) (i top : t.Id) : Prop where
  below : ∃ p, t.parent i = some p ∧ t.isType p = true ∧ t.topType? p = some top
  composite : t.kind top = .parameterizedType ∨ t.kind top = .arrayType

end Tree

/-! ## 3. Lifting -/

namespace Anchor

variable {t : Tree}

/-- A part that has been lifted by one step is lifted to the top by the next: the step may have
    reached the top already, and there may be nothing above it. -/
theorem bind_toOutermost_of_outermost {p top : t.Id} (h : t.outermostType? p = some top) :
    (of? t p).bind toOutermost = of? t top := by
  have htop := (Tree.outermostType?_eq_some_iff.1 h).1
  have hp := Tree.isType_of_topType? htop
  cases hq : t.parent p with
  | none =>
    have hself := Tree.topType?_of_root hp hq
    obtain rfl : p = top := Option.some.inj (hself.symm.trans htop)
    rw [of?, hq]
    rfl
  | some q =>
    have hof : of? t p = some ⟨p, q, t.parent q⟩ := by
      rw [of?, hq]
      rfl
    rw [hof, Option.bind_some, toOutermost]
    cases hqt : t.isType q with
    | true =>
      rw [← Tree.outermostType?_of_isType_parent hp hq hqt, h]
    | false =>
      have hself := Tree.topType?_of_not_isType_parent hp hq hqt
      obtain rfl : p = top := Option.some.inj (hself.symm.trans htop)
      rw [Tree.outermostType?_of_not_isType hqt, hof]

/-- **A part of a generic or array type is lifted to the top**, whether or not it is a name that
    spells the same as the type around it. -/
theorem resolveType_of_outermost {a : Anchor t} {top : t.Id}
    (h : t.outermostType? a.parent = some top) : a.resolveType = of? t top := by
  have hp := Tree.isType_of_topType? (Tree.outermostType?_eq_some_iff.1 h).1
  have hlift : a.toOutermost = of? t top := by
    rw [toOutermost, h]
  rw [resolveType, if_pos hp, bind_toOutermost_of_outermost h, hlift, ite_self]

theorem resolveType_of_not_isType {a : Anchor t} (h : t.isType a.parent = false) :
    a.resolveType = some a := by
  rw [resolveType, if_neg (by rw [h]; decide)]

/-- Where there is no generic or array type around, a type stays where it is. -/
theorem resolveType_of_isType {a : Anchor t} (h : t.outermostType? a.parent = none)
    (hnode : t.isType a.node = true) : a.resolveType = some a := by
  have hname : (t.kind a.node == .simpleName) = false := by
    refine beq_false_of_ne fun he => ?_
    rw [Tree.isType, he] at hnode
    cases hnode
  have hstay : a.toOutermost = some a := by
    rw [toOutermost, h]
  rw [resolveType, hname, Bool.false_and, hstay]
  simp

/-- The anchor of a top is lifted no further. -/
theorem resolveType_top {p top : t.Id} {b : Anchor t} (h : t.outermostType? p = some top)
    (hb : of? t top = some b) : b.resolveType = some b := by
  obtain ⟨-, hparent, -⟩ := of?_eq_some_iff.1 hb
  have htop := (Tree.outermostType?_eq_some_iff.1 h).1
  exact resolveType_of_not_isType (Tree.not_isType_above_top htop hparent)

/-- The anchor of a type without a generic or array type around is lifted no further. -/
theorem resolveType_of_simple {p : t.Id} {b : Anchor t} (hp : t.isType p = true)
    (h : t.outermostType? p = none) (hb : of? t p = some b) :
    b.toOutermost = some b ∧ b.resolveType = some b := by
  obtain ⟨rfl, hparent, -⟩ := of?_eq_some_iff.1 hb
  have hnone : t.outermostType? b.parent = none := by
    cases hpt : t.isType b.parent with
    | true => rw [← Tree.outermostType?_of_isType_parent hp hparent hpt, h]
    | false => exact Tree.outermostType?_of_not_isType hpt
  refine ⟨?_, resolveType_of_isType hnone hp⟩
  rw [toOutermost, hnone]

/-- What lifting leads to is lifted no further. -/
theorem resolveType_of_resolveType {a b : Anchor t} (h : a.resolveType = some b) :
    b.resolveType = some b := by
  cases hp : t.isType a.parent with
  | false =>
    have hself := resolveType_of_not_isType hp
    obtain rfl : a = b := Option.some.inj (hself.symm.trans h)
    exact hself
  | true =>
    cases houter : t.outermostType? a.parent with
    | some top =>
      rw [resolveType_of_outermost houter] at h
      exact resolveType_top houter h
    | none =>
      have hstay : a.toOutermost = some a := by
        rw [toOutermost, houter]
      have hopen := h
      rw [resolveType, if_pos hp] at h
      split at h
      · -- a name that stands for the type around it
        obtain ⟨c, hc, hcb⟩ := Option.bind_eq_some_iff.1 h
        obtain ⟨houtermost, hsettled⟩ := resolveType_of_simple hp houter hc
        obtain rfl : c = b := Option.some.inj (houtermost.symm.trans hcb)
        exact hsettled
      · obtain rfl : a = b := Option.some.inj (hstay.symm.trans h)
        exact hopen

/-- **Lifting twice is lifting once.** -/
theorem resolveType_idem (a : Anchor t) : a.resolveType.bind resolveType = a.resolveType := by
  cases h : a.resolveType with
  | none => rfl
  | some b => exact resolveType_of_resolveType h

theorem ofType?_of_isPartOf {i top : t.Id} (h : t.IsPartOf i top) :
    ofType? t i = of? t top := by
  obtain ⟨p, hp, -, htop⟩ := h.below
  have houter : t.outermostType? p = some top :=
    Tree.outermostType?_eq_some_iff.2 ⟨htop, Tree.isComposite_iff.2 h.composite⟩
  have hof : of? t i = some ⟨i, p, t.parent p⟩ := by
    rw [of?, hp]
    rfl
  rw [ofType?, hof, Option.bind_some]
  exact resolveType_of_outermost houter

end Anchor

/-! ## 4. Classification -/

/-- Candidates with the same anchors on both sides are classified alike. -/
theorem Diff.classifyTypeChange_congr {d : Diff} (path : String) {c c' : TypeCandidate d.before}
    {j j' : d.after.Id} (hmoved : c.moved = c'.moved) (hj : d.mapping.dst? c.node = some j.val)
    (hj' : d.mapping.dst? c'.node = some j'.val)
    (hsrc : Anchor.ofType? d.before c.node = Anchor.ofType? d.before c'.node)
    (hdst : Anchor.ofType? d.after j = Anchor.ofType? d.after j') :
    d.classifyTypeChange path c = d.classifyTypeChange path c' := by
  unfold classifyTypeChange
  rw [hj, hj', hsrc, hmoved]
  cases Anchor.ofType? d.before c'.node with
  | none => rfl
  | some src =>
    dsimp only
    rw [Tree.resolve_val, Tree.resolve_val]
    show attempt ((Anchor.ofType? d.after j).bind _) = attempt ((Anchor.ofType? d.after j').bind _)
    rw [hdst]

/-- **All edits inside a type share one anchor.** The climb finds the top of the chain of types
    exactly when that is a generic or array type; whatever hangs on a type of such a chain is
    lifted to the top, or to nothing when the top is the root; lifting twice is lifting once; and so
    updates whose nodes are parts of the same type on both sides are classified alike. -/
theorem inner_edits_share_anchor :
    (∀ (t : Tree) (i top : t.Id), t.outermostType? i = some top ↔
      t.isType i = true ∧ t.topType? i = some top ∧
        (t.kind top = .parameterizedType ∨ t.kind top = .arrayType)) ∧
    (∀ (t : Tree) (i top : t.Id), t.IsPartOf i top →
      (Anchor.of? t i).bind Anchor.resolveType =
        (t.parent top).map fun p => ⟨top, p, t.parent p⟩) ∧
    (∀ (t : Tree) (a : Anchor t), a.resolveType.bind Anchor.resolveType = a.resolveType) ∧
    ∀ (d : Diff) (path : String) (i i' top : d.before.Id) (j j' top' : d.after.Id),
      d.before.IsPartOf i top → d.before.IsPartOf i' top →
      d.mapping.dst? i = some j.val → d.mapping.dst? i' = some j'.val →
      d.after.IsPartOf j top' → d.after.IsPartOf j' top' →
      d.classifyTypeChange path ⟨i, false⟩ = d.classifyTypeChange path ⟨i', false⟩ := by
  refine ⟨fun t i top => ?_, fun t i top h => ?_, fun t a => a.resolveType_idem, ?_⟩
  · rw [Tree.outermostType?_eq_some_iff, Tree.isComposite_iff]
    exact ⟨fun h => ⟨Tree.isType_of_topType? h.1, h⟩, fun h => h.2⟩
  · exact Anchor.ofType?_of_isPartOf h
  · intro d path i i' top j j' top' hi hi' hj hj' htop htop'
    refine Diff.classifyTypeChange_congr path rfl hj hj' ?_ ?_
    · exact (Anchor.ofType?_of_isPartOf hi).trans (Anchor.ofType?_of_isPartOf hi').symm
    · exact (Anchor.ofType?_of_isPartOf htop).trans (Anchor.ofType?_of_isPartOf htop').symm

/-- A type argument changes in two places of the type of a field. -/
def nestedArguments : Diff :=
  let tree (text argument : String) : TreeDocument :=
    let name (label : String) (pos : Nat) : Outline :=
      .node .simpleType "" pos 1 [.node .simpleName label pos 1 []]
    ⟨text, .node .compilationUnit "" 0 25 [.node .typeDeclaration "" 0 25
      [.node .simpleName "A" 6 1 [], .node .fieldDeclaration "" 10 13
        [.node .parameterizedType "" 10 10 [name "L" 10, name argument 12,
          .node .parameterizedType "" 15 4 [name "M" 15, name argument 17]],
        .node .variableDeclarationFragment "" 21 1 [.node .simpleName "a" 21 1 []]]]]⟩
  { before := (tree "class A \x7b L<X, M<X>> a; \x7d" "X").load.toOption.get (by decide +kernel)
    after := (tree "class A \x7b L<Y, M<Y>> a; \x7d" "Y").load.toOption.get (by decide +kernel)
    mapping := .diagonal 16
    script := [.update 8 "Y", .update 13 "Y"] }

/-- The name of the outer argument spells the same as the type around it; the inner argument is no
    name. Both are parts of the type of the field, and both edits are the same change. -/
theorem inner_edits_share_anchor_nestedArguments :
    ∃ (outer inner top : nestedArguments.before.Id) (outer' inner' top' : nestedArguments.after.Id),
      nestedArguments.before.kind outer = .simpleName ∧
      nestedArguments.before.kind inner = .simpleType ∧
      nestedArguments.before.IsPartOf outer top ∧ nestedArguments.before.IsPartOf inner top ∧
      nestedArguments.after.IsPartOf outer' top' ∧ nestedArguments.after.IsPartOf inner' top' ∧
      nestedArguments.classifyTypeChange "A.java" ⟨outer, false⟩ =
        nestedArguments.classifyTypeChange "A.java" ⟨inner, false⟩ ∧
      ∃ r, nestedArguments.classifyTypeChange "A.java" ⟨inner, false⟩ = .ok (some r) ∧
        r.description =
          "Change Attribute Type a : L<X, M<X>> to a : L<Y, M<Y>> in class A" := by
  let outer : nestedArguments.before.Id := ⟨8, by decide +kernel⟩
  let inner : nestedArguments.before.Id := ⟨12, by decide +kernel⟩
  let top : nestedArguments.before.Id := ⟨4, by decide +kernel⟩
  let outer' : nestedArguments.after.Id := ⟨8, by decide +kernel⟩
  let inner' : nestedArguments.after.Id := ⟨12, by decide +kernel⟩
  let top' : nestedArguments.after.Id := ⟨4, by decide +kernel⟩
  have houter : nestedArguments.before.IsPartOf outer top :=
    ⟨⟨⟨7, by decide +kernel⟩, by decide +kernel⟩, .inl (by decide +kernel)⟩
  have hinner : nestedArguments.before.IsPartOf inner top :=
    ⟨⟨⟨9, by decide +kernel⟩, by decide +kernel⟩, .inl (by decide +kernel)⟩
  have houter' : nestedArguments.after.IsPartOf outer' top' :=
    ⟨⟨⟨7, by decide +kernel⟩, by decide +kernel⟩, .inl (by decide +kernel)⟩
  have hinner' : nestedArguments.after.IsPartOf inner' top' :=
    ⟨⟨⟨9, by decide +kernel⟩, by decide +kernel⟩, .inl (by decide +kernel)⟩
  have hsame := inner_edits_share_anchor.2.2.2 nestedArguments "A.java" outer inner top outer'
    inner' top' houter hinner (by decide +kernel) (by decide +kernel) houter' hinner'
  have hrecord : ∃ r, nestedArguments.classifyTypeChange "A.java" ⟨inner, false⟩ = .ok (some r) ∧
      r.description = "Change Attribute Type a : L<X, M<X>> to a : L<Y, M<Y>> in class A" := by
    have h : (nestedArguments.classifyTypeChange "A.java" ⟨inner, false⟩).toOption.join.map
        (·.description) =
          some "Change Attribute Type a : L<X, M<X>> to a : L<Y, M<Y>> in class A" := by
      decide +kernel
    obtain ⟨r, hr, hdescription⟩ := Option.map_eq_some_iff.1 h
    exact ⟨r, eq_ok_of_toOption (Option.join_eq_some_iff.1 hr), hdescription⟩
  exact ⟨outer, inner, top, outer', inner', top', by decide +kernel, by decide +kernel, houter,
    hinner, houter', hinner', hsame, hrecord⟩

end Recast
