import Recast.Signature

/-!
# The return type in a signature

The signature of a method is put together in one pass over its children, with flags for what has
been seen. What ends up as its return type can be said without the pass.

* `Tree.returnTypeChild?`: the child that is rendered as the return type;
* `see_of_isType`, `see_of_not_isType`: what one child changes;
* `seeAll_of_not_paramFound`, `bodyFound_seeAll`: what the pass has seen in the end;
* `methodSignature_of_some`: **the signature ends with the label of that child.**
-/

namespace Recast.Tree

variable {t : Tree}

/-! ## 1. The child that is rendered -/

/-- Whether a node is no parameter. -/
def notParameter (t : Tree) (i : t.Id) : Bool := t.kind i != .singleVariableDeclaration

/-- The first type before any parameter. -/
def leadingType? (t : Tree) (cs : List t.Id) : Option t.Id :=
  (cs.takeWhile t.notParameter).find? t.isType

/-- The first type after a parameter. -/
def trailingType? (t : Tree) (cs : List t.Id) : Option t.Id :=
  (cs.dropWhile t.notParameter).find? t.isType

/-- Whether there is a block. -/
def hasBody (t : Tree) (cs : List t.Id) : Bool := cs.any fun c => t.kind c == .block

/-- The child of a method declaration that its signature renders as the return type: the first type
    before any parameter or, if there is none and no body either, the first after one. -/
def returnTypeChild? (t : Tree) (method : t.Id) : Option t.Id :=
  (t.leadingType? (t.children method)).or
    (if t.hasBody (t.children method) then none else t.trailingType? (t.children method))

/-- The rendered child is a type and a child. -/
theorem of_returnTypeChild? {method i : t.Id} (h : t.returnTypeChild? method = some i) :
    t.isType i = true ∧ t.parent i = some method := by
  suffices h' : t.isType i = true ∧ i ∈ t.children method from
    ⟨h'.1, mem_children_iff.1 h'.2⟩
  rcases Option.or_eq_some_iff.1 h with h | ⟨-, h⟩
  · exact ⟨List.find?_some h, (List.takeWhile_sublist _).subset (List.mem_of_find?_eq_some h)⟩
  · split at h
    · cases h
    · exact ⟨List.find?_some h, (List.dropWhile_sublist _).subset (List.mem_of_find?_eq_some h)⟩

/-! ## 2. One child -/

theorem kind_ne_of_isType {i : t.Id} (h : t.isType i = true) {k : Kind} (hk : k.isType = false) :
    (t.kind i == k) = false := by
  refine beq_false_of_ne fun he => ?_
  rw [isType, he, hk] at h
  cases h

namespace MethodParts

variable (p : MethodParts)

/-- A type is the return type, or the first type after a parameter, or nothing new. -/
theorem see_of_isType {c : t.Id} (hc : t.isType c = true) (next : Option t.Id) :
    p.see t c next =
      if p.paramFound then
        { p with trailingType := p.trailingType.or (some (t.displayLabel c)) }
      else { p with returnType := p.returnType.or (some (t.displayLabel c)) } := by
  unfold see
  rw [kind_ne_of_isType hc (k := .simpleName) rfl, kind_ne_of_isType hc (k := .modifier) rfl,
    kind_ne_of_isType hc (k := .singleVariableDeclaration) rfl,
    kind_ne_of_isType hc (k := .block) rfl, hc]
  obtain ⟨text, returnType, trailingType, accessFound, bodyFound, paramFound⟩ := p
  cases paramFound <;> cases returnType <;> simp

theorem seeModifier_eq (label : String) :
    ∃ text accessFound, p.seeModifier label = { p with text, accessFound } := by
  unfold seeModifier
  split
  · exact ⟨_, _, rfl⟩
  · split
    · exact ⟨_, _, rfl⟩
    · split
      · exact ⟨_, _, rfl⟩
      · exact ⟨_, _, rfl⟩

/-- Whatever is no type leaves the types alone; parameters and bodies are noted. -/
theorem see_of_not_isType {c : t.Id} (hc : t.isType c = false) (next : Option t.Id) :
    ∃ text accessFound, p.see t c next =
      { p with
        text, accessFound
        bodyFound := p.bodyFound || t.kind c == .block
        paramFound := p.paramFound || !t.notParameter c } := by
  have hparam : (!t.notParameter c) = (t.kind c == .singleVariableDeclaration) := by
    rw [notParameter, bne, Bool.not_not]
  unfold see
  rw [hparam, hc]
  simp only [Bool.false_and, Bool.false_eq_true, if_false]
  by_cases hname : t.kind c = .simpleName
  · refine ⟨p.text ++ t.label c ++ "(", p.accessFound, ?_⟩
    simp [hname]
  · by_cases hmodifier : t.kind c = .modifier
    · obtain ⟨text, accessFound, h⟩ := p.seeModifier_eq (t.label c)
      refine ⟨text, accessFound, ?_⟩
      simp [hmodifier, h]
    · by_cases hsvd : t.kind c = .singleVariableDeclaration
      · refine ⟨p.text ++ t.parameterText c ++
          (if (next.map t.kind) == some .singleVariableDeclaration then ", " else ""),
          p.accessFound, ?_⟩
        simp [hsvd]
      · refine ⟨p.text, p.accessFound, ?_⟩
        by_cases hblock : t.kind c = .block
        · simp [hblock]
        · simp [beq_false_of_ne hname, beq_false_of_ne hmodifier, beq_false_of_ne hsvd,
            beq_false_of_ne hblock]

/-! ## 3. All children -/

theorem bodyFound_see (c : t.Id) (next : Option t.Id) :
    (p.see t c next).bodyFound = (p.bodyFound || t.kind c == .block) := by
  by_cases hc : t.isType c = true
  · rw [p.see_of_isType hc, kind_ne_of_isType hc (k := .block) rfl, Bool.or_false]
    split <;> rfl
  · obtain ⟨text, accessFound, h⟩ := p.see_of_not_isType (Bool.not_eq_true _ ▸ hc) next
    rw [h]

theorem bodyFound_seeAll (cs : List t.Id) :
    (p.seeAll t cs).bodyFound = (p.bodyFound || t.hasBody cs) := by
  induction cs generalizing p with
  | nil => rw [seeAll, hasBody, List.any_nil, Bool.or_false]
  | cons c cs ih =>
    rw [seeAll, ih, p.bodyFound_see, Bool.or_assoc]
    rfl

/-- Once a parameter has been seen, types go after it. -/
theorem seeAll_of_paramFound {p : MethodParts} (hp : p.paramFound = true) (cs : List t.Id) :
    (p.seeAll t cs).returnType = p.returnType ∧
      (p.seeAll t cs).trailingType =
        p.trailingType.or ((cs.find? t.isType).map t.displayLabel) := by
  induction cs generalizing p with
  | nil => simp [seeAll]
  | cons c cs ih =>
    rw [seeAll]
    by_cases hc : t.isType c = true
    · rw [p.see_of_isType hc, if_pos hp, List.find?_cons_of_pos hc]
      obtain ⟨h₁, h₂⟩ := ih (p := { p with
        trailingType := p.trailingType.or (some (t.displayLabel c)) }) hp
      refine ⟨h₁, h₂.trans ?_⟩
      rw [Option.or_assoc]
      rfl
    · obtain ⟨text, accessFound, h⟩ := p.see_of_not_isType (Bool.not_eq_true _ ▸ hc) cs.head?
      rw [List.find?_cons_of_neg hc, h]
      exact ih (by rw [hp, Bool.true_or])

/-- Before the first parameter, the first type is the return type. -/
theorem seeAll_of_not_paramFound {p : MethodParts} (hp : p.paramFound = false) (cs : List t.Id) :
    (p.seeAll t cs).returnType = p.returnType.or ((t.leadingType? cs).map t.displayLabel) ∧
      (p.seeAll t cs).trailingType =
        p.trailingType.or ((t.trailingType? cs).map t.displayLabel) := by
  unfold leadingType? trailingType?
  induction cs generalizing p with
  | nil => simp [seeAll]
  | cons c cs ih =>
    rw [seeAll]
    by_cases hc : t.isType c = true
    · have hparam : t.notParameter c = true := by
        rw [notParameter, bne, kind_ne_of_isType hc rfl]
        rfl
      rw [p.see_of_isType hc, if_neg (by rw [hp]; decide), List.takeWhile_cons_of_pos hparam,
        List.dropWhile_cons_of_pos hparam, List.find?_cons_of_pos hc]
      obtain ⟨h₁, h₂⟩ := ih (p := { p with
        returnType := p.returnType.or (some (t.displayLabel c)) }) hp
      refine ⟨h₁.trans ?_, h₂⟩
      rw [Option.or_assoc]
      rfl
    · obtain ⟨text, accessFound, h⟩ := p.see_of_not_isType (Bool.not_eq_true _ ▸ hc) cs.head?
      rw [h]
      cases hparam : t.notParameter c with
      | true =>
        rw [List.takeWhile_cons_of_pos hparam, List.dropWhile_cons_of_pos hparam,
          List.find?_cons_of_neg hc]
        exact ih (by rw [hp]; rfl)
      | false =>
        have hparam' : ¬ t.notParameter c = true := by rw [hparam]; decide
        rw [List.takeWhile_cons_of_neg hparam', List.dropWhile_cons_of_neg hparam',
          List.find?_cons_of_neg hc]
        obtain ⟨h₁, h₂⟩ := seeAll_of_paramFound (t := t) (p := { p with
          text, accessFound
          bodyFound := p.bodyFound || t.kind c == .block
          paramFound := p.paramFound || !false }) (by rw [Bool.not_false, Bool.or_true]) cs
        exact ⟨h₁.trans (by simp), h₂⟩

end MethodParts

/-! ## 4. Signatures -/

/-- The pass finds the child that is rendered. -/
theorem result?_seeAll (method : t.Id) :
    (MethodParts.empty.seeAll t (t.children method)).result? =
      (t.returnTypeChild? method).map t.displayLabel := by
  obtain ⟨h₁, h₂⟩ := MethodParts.seeAll_of_not_paramFound (p := .empty) rfl (t.children method)
  have h₃ := MethodParts.bodyFound_seeAll .empty (t.children method)
  unfold MethodParts.result? returnTypeChild?
  rw [h₁, h₂, h₃]
  cases t.leadingType? (t.children method) with
  | some c => rfl
  | none =>
    show (if t.hasBody (t.children method) then none else _) = _
    split <;> simp [MethodParts.empty]

/-- **A signature ends with the label of the child that is rendered.** -/
theorem methodSignature_of_some {method i : t.Id} (h : t.returnTypeChild? method = some i) :
    ∃ front, t.methodSignature method = front ++ ") : " ++ t.displayLabel i := by
  unfold methodSignature MethodParts.render
  rw [result?_seeAll, h]
  have hclose : ") : " = ")" ++ " : " := rfl
  refine ⟨(MethodParts.empty.seeAll t (t.children method)).impliedAccess ++
    (MethodParts.empty.seeAll t (t.children method)).text, ?_⟩
  rw [hclose, Option.map_some]
  simp only [String.append_assoc]

end Recast.Tree
