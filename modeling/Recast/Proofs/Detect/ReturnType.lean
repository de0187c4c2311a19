import Recast.Proofs.Detect.Trace
import Recast.Proofs.Signature

/-!
# Changes of return types

A type change below a method declaration counts as a change of its return type when the signature of
the method ends with the new label. The label of the return type passes this test, and so does any
other label that happens to end the signature.

* `Tree.IsReturnType`: a node is what the signature renders as the return type;
* `Tree.EndsByChance`: another node passes the test;
* `changesReturnType_iff`: when exactly a change of a return type is reported;
* `returnType_exact`: **reported changes are about the return type exactly as long as no label ends
  a signature by chance**, and `chance_in_thrownError` is an input where one does.
-/

namespace Recast

/-! ## 1. The test -/

namespace Tree

/-- The signature of the method ends with the label of the node. -/
def EndsSignature (t : Tree) (method i : t.Id) : Prop :=
  ∃ front, t.methodSignature method = front ++ t.displayLabel i

/-- The node is the type, directly below the method, that its signature renders after the colon. -/
structure IsReturnType (t : Tree) (method i : t.Id) : Prop where
  isType : t.isType i = true
  parent : t.parent i = some method
  rendered : t.returnTypeChild? method = some i
  signature : ∃ front, t.methodSignature method = front ++ ") : " ++ t.displayLabel i

/-- The label of a node that is not the return type ends the signature all the same. -/
def EndsByChance (t : Tree) (method i : t.Id) : Prop :=
  t.returnTypeChild? method ≠ some i ∧ t.EndsSignature method i

variable {t : Tree}

theorem isReturnType_iff {method i : t.Id} :
    t.IsReturnType method i ↔ t.returnTypeChild? method = some i := by
  constructor
  · exact fun h => h.rendered
  · intro h
    obtain ⟨htype, hparent⟩ := of_returnTypeChild? h
    exact ⟨htype, hparent, h, methodSignature_of_some h⟩

/-- What passes the test: the return type, always, and whatever ends the signature by chance. -/
theorem endsSignature_iff {method i : t.Id} :
    t.EndsSignature method i ↔ t.IsReturnType method i ∨ t.EndsByChance method i := by
  constructor
  · intro h
    by_cases hi : t.returnTypeChild? method = some i
    · exact .inl (isReturnType_iff.2 hi)
    · exact .inr ⟨hi, h⟩
  · rintro (h | h)
    · obtain ⟨front, h⟩ := h.signature
      exact ⟨front ++ ") : ", h⟩
    · exact h.2

theorem isSuffixOf_iff {method i : t.Id} :
    (t.displayLabel i).toList.isSuffixOf (t.methodSignature method).toList = true ↔
      t.EndsSignature method i := by
  rw [List.isSuffixOf_iff_suffix]
  constructor
  · rintro ⟨front, h⟩
    refine ⟨String.ofList front, String.toList_inj.1 ?_⟩
    rw [String.toList_append, String.toList_ofList, h]
  · rintro ⟨front, h⟩
    refine ⟨front.toList, ?_⟩
    rw [h, String.toList_append]

end Tree

/-! ## 2. The classifier -/

namespace Diff

variable {d : Diff}

/-- The anchor in the later tree of a candidate for a type change. -/
def destination? (d : Diff) (c : TypeCandidate d.before) : Option (Anchor d.after) :=
  (d.mapping.dst? c.node).bind fun n => (d.after.find? n).bind (Anchor.ofType? d.after)

/-- A candidate for a type change that hangs on a method declaration of a class, and on whose other
    side `method` is the nearest method declaration. -/
structure AtMethod (d : Diff) (c : TypeCandidate d.before) (dst : Anchor d.after)
    (method : d.after.Id) : Prop where
  source : ∃ src, Anchor.ofType? d.before c.node = some src ∧
    d.before.kind src.parent = .methodDeclaration ∧
    (c.moved = true → d.before.isomorphic src.node d.after dst.node = false)
  destination : d.destination? c = some dst
  enclosing : d.after.enclosingMethod? dst.node = some method
  owner : ∃ owner, (d.after.parent method).bind d.after.classSignature? = some owner

theorem destination?_eq_some {c : TypeCandidate d.before} {dst : Anchor d.after} :
    d.destination? c = some dst ↔
      ∃ j : d.after.Id, d.mapping.dst? c.node = some j.val ∧
        Anchor.ofType? d.after j = some dst := by
  unfold destination?
  rw [Option.bind_eq_some_iff]
  constructor
  · rintro ⟨n, hn, h⟩
    obtain ⟨j, hj, h⟩ := Option.bind_eq_some_iff.1 h
    unfold Tree.find? at hj
    split at hj
    · cases hj
      exact ⟨_, hn, h⟩
    · cases hj
  · rintro ⟨j, hj, h⟩
    refine ⟨j.val, hj, Option.bind_eq_some_iff.2 ⟨j, ?_, h⟩⟩
    rw [Tree.find?, dif_pos j.isLt]

theorem Candidate.typeChange?_of_method {c : Candidate d}
    (h : d.before.kind c.src.parent = .methodDeclaration) :
    c.typeChange? = c.returnTypeChange? := by
  unfold typeChange?
  split <;> simp_all

/-- When a candidate is a change of a return type. -/
theorem Candidate.returnTypeChange?_eq_some {c : Candidate d} {x : Except Fault Refactoring}
    (h : c.returnTypeChange? = some x) :
    ∃ method owner, d.after.enclosingMethod? c.dst.node = some method ∧
      (d.after.parent method).bind d.after.classSignature? = some owner ∧
      d.after.EndsSignature method c.dst.node := by
  simp only [returnTypeChange?, Option.bind_eq_bind, Option.bind_eq_some_iff] at h
  obtain ⟨method, hmethod, p, hp, owner, howner, h⟩ := h
  split at h
  · rename_i hsuffix
    refine ⟨method, owner, hmethod, ?_, Tree.isSuffixOf_iff.1 hsuffix⟩
    rw [hp]
    exact howner
  · cases h

theorem Candidate.exists_returnTypeChange? {c : Candidate d} {method : d.after.Id} {owner : String}
    (hmethod : d.after.enclosingMethod? c.dst.node = some method)
    (howner : (d.after.parent method).bind d.after.classSignature? = some owner)
    (hends : d.after.EndsSignature method c.dst.node) :
    ∃ r, c.returnTypeChange? = some (.ok r) ∧ r.kind = .changeReturnType := by
  obtain ⟨p, hp, howner⟩ := Option.bind_eq_some_iff.1 howner
  unfold returnTypeChange?
  simp only [hmethod, hp, howner, Option.bind_eq_bind, Option.bind_some,
    Tree.isSuffixOf_iff.2 hends, if_true, report_eq]
  exact ⟨_, rfl, rfl⟩

/-- **A change of a return type is reported exactly where a candidate hangs on a method declaration
    and its new label ends the signature.** -/
theorem changesReturnType_iff (path : String) {c : TypeCandidate d.before} :
    (∃ r, d.classifyTypeChange path c = .ok (some r) ∧ r.kind = .changeReturnType) ↔
      ∃ dst method, d.AtMethod c dst method ∧ d.after.EndsSignature method dst.node := by
  constructor
  · rintro ⟨r, hr, hkind⟩
    obtain ⟨j, src, dst, hsrc, hj, hdst, hmoved, h⟩ := classifyTypeChange_eq_some.1 hr
    obtain ⟨kind, hrow, hreport⟩ := Candidate.typeChange?_cases h
    obtain rfl : kind = .changeReturnType := hreport.covers.1.symm.trans hkind
    have hparent : d.before.kind src.parent = .methodDeclaration := hrow.parent_of_returnType
    rw [Candidate.typeChange?_of_method hparent] at h
    obtain ⟨method, owner, hmethod, howner, hends⟩ := Candidate.returnTypeChange?_eq_some h
    have hdst := destination?_eq_some.2 ⟨j, hj, hdst⟩
    exact ⟨dst, method, ⟨⟨src, hsrc, hparent, hmoved⟩, hdst, hmethod, owner, howner⟩, hends⟩
  · rintro ⟨dst, method, hat, hends⟩
    obtain ⟨src, hsrc, hparent, hmoved⟩ := hat.source
    obtain ⟨j, hj, hdst⟩ := destination?_eq_some.1 hat.destination
    obtain ⟨owner, howner⟩ := hat.owner
    obtain ⟨r, hr, hkind⟩ := Candidate.exists_returnTypeChange? (c := ⟨path, src, dst⟩)
      hat.enclosing howner hends
    rw [← Candidate.typeChange?_of_method hparent] at hr
    exact ⟨r, classifyTypeChange_eq_some.2 ⟨j, src, dst, hsrc, hj, hdst, hmoved, hr⟩, hkind⟩

end Diff

/-! ## 3. When the reports are right -/

/-- **Reported changes of return types are about the return type exactly as long as no label ends a
    signature by chance**: for a candidate, the node in the later tree is the type, directly below
    its method declaration, that the signature renders after the colon. -/
theorem returnType_exact (path : String) (d : Diff) (c : TypeCandidate d.before) :
    (∀ r dst, d.classifyTypeChange path c = .ok (some r) → r.kind = .changeReturnType →
      d.destination? c = some dst →
      ∃ method, d.after.enclosingMethod? dst.node = some method ∧
        d.after.IsReturnType method dst.node) ↔
    ∀ dst method, d.AtMethod c dst method → ¬ d.after.EndsByChance method dst.node := by
  constructor
  · intro h dst method hat hchance
    obtain ⟨r, hr, hkind⟩ := (Diff.changesReturnType_iff path).2 ⟨dst, method, hat, hchance.2⟩
    obtain ⟨method', hmethod, hreturn⟩ := h r dst hr hkind hat.destination
    obtain rfl : method = method' := Option.some.inj (hat.enclosing.symm.trans hmethod)
    exact hchance.1 hreturn.rendered
  · intro h r dst hr hkind hdst
    obtain ⟨dst', method, hat, hends⟩ := (Diff.changesReturnType_iff path).1 ⟨r, hr, hkind⟩
    obtain rfl : dst' = dst := Option.some.inj (hat.destination.symm.trans hdst)
    refine ⟨method, hat.enclosing, ?_⟩
    rcases Tree.endsSignature_iff.1 hends with hreturn | hchance
    · exact hreturn
    · exact absurd hchance (h dst' method hat)

/-- A method that returns an `Error` throws one, where it threw an `Exception` before. -/
def thrownError : Diff :=
  let tree (text thrown : String) (size : Nat) : TreeDocument :=
    ⟨text, .node .compilationUnit "" 0 (34 + size) [.node .typeDeclaration "" 0 (34 + size)
      [.node .simpleName "A" 6 1 [], .node .methodDeclaration "" 10 (22 + size)
        [.node .simpleType "" 10 5 [.node .simpleName "Error" 10 5 []],
          .node .simpleName "run" 16 3 [],
          .node .simpleType "" 29 size [.node .simpleName thrown 29 size []],
          .node .block "" (30 + size) 2 []]]]⟩
  { before := (tree "class A { Error run() throws Exception {} }" "Exception" 9).load.toOption.get
      (by decide +kernel)
    after := (tree "class A { Error run() throws Error {} }" "Error" 5).load.toOption.get
      (by decide +kernel)
    mapping := .diagonal 10
    script := [.update 8 "Error"] }

theorem chance_in_thrownError :
    ∃ c r dst method, thrownError.classifyTypeChange "A.java" c = .ok (some r) ∧
      r.kind = .changeReturnType ∧ thrownError.destination? c = some dst ∧
      thrownError.after.enclosingMethod? dst.node = some method ∧
      thrownError.after.EndsByChance method dst.node ∧
      ¬ thrownError.after.IsReturnType method dst.node := by
  let c : TypeCandidate thrownError.before := ⟨⟨8, by decide +kernel⟩, false⟩
  let method : thrownError.after.Id := ⟨3, by decide +kernel⟩
  let thrown : thrownError.after.Id := ⟨7, by decide +kernel⟩
  let dst : Anchor thrownError.after := ⟨thrown, method, some ⟨1, by decide +kernel⟩⟩
  have hdst : thrownError.destination? c = some dst := by decide +kernel
  have hmethod : thrownError.after.enclosingMethod? thrown = some method := by decide +kernel
  have hother : thrownError.after.returnTypeChild? method ≠ some thrown := by decide +kernel
  have hends : thrownError.after.EndsSignature method thrown :=
    Tree.isSuffixOf_iff.1 (by decide +kernel)
  let src : Anchor thrownError.before :=
    ⟨⟨7, by decide +kernel⟩, ⟨3, by decide +kernel⟩, some ⟨1, by decide +kernel⟩⟩
  have hat : thrownError.AtMethod c dst method := by
    refine ⟨⟨src, by decide +kernel, by decide +kernel, nofun⟩, hdst, hmethod, "A", ?_⟩
    decide +kernel
  obtain ⟨r, hr, hkind⟩ :=
    (Diff.changesReturnType_iff "A.java").2 ⟨dst, method, hat, hends⟩
  exact ⟨c, r, dst, method, hr, hkind, hdst, hmethod, ⟨hother, hends⟩,
    fun hreturn => hother hreturn.rendered⟩

end Recast
