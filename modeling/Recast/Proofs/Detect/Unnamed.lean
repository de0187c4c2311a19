import Recast.Proofs.Detect.Singly
import Recast.Proofs.Detect.Trace

/-!
# Updates of modifiers and literals

A modifier and a literal name nothing, so that an update of one cannot be a rename. The rename pass
leaves out updates of strings and of numbers, and asks no more of the node itself: any other
modifier or literal is taken for the name of the declaration that it hangs on.

* `Diff.Worded`: what a record about two declarations has to say can be said;
* `exists_rename?`, `exists_classifyRename`: the classifier answers exactly for the nodes that hang
  on a declaration with a row in the table, of which all this can be said;
* `unnamed_renamed_iff`: **an update of a modifier or a literal is reported as a rename exactly when
  the node is neither a string nor a number and hangs on a declaration**, and
  `renamed_in_flippedFlags` is an input with such reports.
-/

namespace Recast

/-- Modifiers and literals. -/
def Kind.isModifierOrLiteral : Kind → Bool
  | .modifier | .booleanLiteral | .characterLiteral | .nullLiteral | .numberLiteral
  | .stringLiteral | .textBlock => true
  | _ => false

namespace Diff

/-! ## 1. What a record has to say -/

/-- What a rename of the given kind says of a declaration and its counterpart can be said: the
    signatures of both, and the class or the method around the counterpart. -/
def Worded (d : Diff) (decl : d.before.Id) (decl' : d.after.Id) : RefactoringKind → Prop
  | .renameMethod => ∃ owner, (d.after.parent decl').bind d.after.classSignature? = some owner
  | .renameParameter | .renameAttribute =>
    (∃ old, d.before.variableSignature? decl = some old) ∧
      (∃ new, d.after.variableSignature? decl' = some new) ∧
      ∃ owner, ((d.after.parent decl').bind d.after.parent).bind d.after.classSignature? =
        some owner
  | .renameVariable =>
    (∃ old, d.before.variableSignature? decl = some old) ∧
      (∃ new, d.after.variableSignature? decl' = some new) ∧
      ∃ context, d.after.memberContext? decl' = some context
  | _ => False

namespace Candidate

variable {d : Diff} {c : Candidate d}

theorem exists_methodRename? (hc : c.dst.grandparent = d.after.parent c.dst.parent) :
    (∃ x, c.methodRename? = some x) ↔ d.Worded c.src.parent c.dst.parent .renameMethod := by
  simp only [methodRename?, Worded, hc, Option.bind_eq_bind, Option.bind_eq_some_iff]
  constructor
  · rintro ⟨_, g, hg, owner, howner, -⟩
    exact ⟨owner, g, hg, howner⟩
  · rintro ⟨owner, g, hg, howner⟩
    exact ⟨_, g, hg, owner, howner, rfl⟩

theorem exists_parameterRename? (hc : c.dst.grandparent = d.after.parent c.dst.parent) :
    (∃ x, c.parameterRename? = some x) ↔ d.Worded c.src.parent c.dst.parent .renameParameter := by
  simp only [parameterRename?, Worded, hc, Option.bind_eq_bind, Option.bind_eq_some_iff]
  constructor
  · rintro ⟨_, g, hg, old, hold, new, hnew, p, hp, owner, howner, -⟩
    exact ⟨⟨old, hold⟩, ⟨new, hnew⟩, owner, p, ⟨g, hg, hp⟩, howner⟩
  · rintro ⟨⟨old, hold⟩, ⟨new, hnew⟩, owner, p, ⟨g, hg, hp⟩, howner⟩
    exact ⟨_, g, hg, old, hold, new, hnew, p, hp, owner, howner, rfl⟩

theorem exists_attributeRename? (hc : c.dst.grandparent = d.after.parent c.dst.parent) :
    (∃ x, c.attributeRename? = some x) ↔ d.Worded c.src.parent c.dst.parent .renameAttribute := by
  simp only [attributeRename?, Worded, hc, Option.bind_eq_bind, Option.bind_eq_some_iff]
  constructor
  · rintro ⟨_, old, hold, new, hnew, g, hg, p, hp, owner, howner, -⟩
    exact ⟨⟨old, hold⟩, ⟨new, hnew⟩, owner, p, ⟨g, hg, hp⟩, howner⟩
  · rintro ⟨⟨old, hold⟩, ⟨new, hnew⟩, owner, p, ⟨g, hg, hp⟩, howner⟩
    exact ⟨_, old, hold, new, hnew, g, hg, p, hp, owner, howner, rfl⟩

theorem exists_variableRename? (element : ElementType) :
    (∃ x, c.variableRename? element = some x) ↔
      d.Worded c.src.parent c.dst.parent .renameVariable := by
  simp only [variableRename?, Worded, Option.bind_eq_bind, Option.bind_eq_some_iff]
  constructor
  · rintro ⟨_, old, hold, new, hnew, context, hcontext, -⟩
    exact ⟨⟨old, hold⟩, ⟨new, hnew⟩, context, hcontext⟩
  · rintro ⟨⟨old, hold⟩, ⟨new, hnew⟩, context, hcontext⟩
    exact ⟨_, old, hold, new, hnew, context, hcontext, rfl⟩

/-- **The classifier answers exactly where a row applies**, the group is large enough and what the
    row says can be said. -/
theorem exists_rename? (hc : c.dst.grandparent = d.after.parent c.dst.parent) {groupSize : Nat} :
    (∃ x, c.rename? groupSize = some x) ↔
      ∃ kind, c.HasRenameRow kind ∧ (NeedsGroup kind → 1 < groupSize) ∧
        d.Worded c.src.parent c.dst.parent kind := by
  constructor
  · rintro ⟨x, hx⟩
    obtain ⟨kind, hrow, hgroup, hmade⟩ := rename?_rows hx
    refine ⟨kind, hrow, hgroup, ?_⟩
    cases hmade with
    | ofMethod h => exact (exists_methodRename? hc).1 ⟨x, h⟩
    | ofParameter h => exact (exists_parameterRename? hc).1 ⟨x, h⟩
    | ofAttribute h => exact (exists_attributeRename? hc).1 ⟨x, h⟩
    | ofVariable element h => exact (exists_variableRename? element).1 ⟨x, h⟩
  · rintro ⟨kind, hrow, hgroup, hworded⟩
    unfold HasRenameRow at hrow
    generalize hp : d.before.kind c.src.parent = p at hrow
    generalize hg : c.src.grandparentKind? = g at hrow
    generalize hg' : c.dst.grandparentKind? = g' at hrow
    cases hrow with
    | method =>
      simp only [rename?, hp]
      exact (exists_methodRename? hc).2 hworded
    | parameter =>
      simp only [rename?, hp, hg, hg', beq_self_eq_true, if_true]
      exact (exists_parameterRename? hc).2 hworded
    | «attribute» =>
      simp only [rename?, hp, hg, if_pos (hgroup (.inl rfl))]
      exact (exists_attributeRename? hc).2 hworded
    | statement =>
      simp only [rename?, hp, hg, Kind.isVariableDeclaration, hgroup (.inr rfl), decide_true,
        Bool.and_self, if_true]
      exact (exists_variableRename? _).2 hworded
    | expression =>
      simp only [rename?, hp, hg, Kind.isVariableDeclaration, hgroup (.inr rfl), decide_true,
        Bool.and_self, if_true]
      exact (exists_variableRename? _).2 hworded
    | loop =>
      simp only [rename?, hp, hg, if_pos (hgroup (.inr rfl))]
      exact (exists_variableRename? _).2 hworded

end Candidate

/-! ## 2. Nodes that hang on a declaration -/

/-- A node and its counterpart hang on declarations that a row of the table is for, and what the
    row says of them can be said; in a group of `groupSize`, where that counts. -/
def HangsOnDeclaration (d : Diff) (i : d.before.Id) (groupSize : Nat) : Prop :=
  ∃ (j : d.after.Id) (decl : d.before.Id) (decl' : d.after.Id) (kind : RefactoringKind),
    d.mapping.dst? i = some j.val ∧ d.before.parent i = some decl ∧
    d.after.parent j = some decl' ∧
    Candidate.RenameRow (d.before.kind decl) (d.before.grandparentKind? i)
      (d.after.grandparentKind? j) kind ∧
    (Candidate.NeedsGroup kind → 1 < groupSize) ∧ d.Worded decl decl' kind

variable {d : Diff}

/-- **The classifier answers exactly for the nodes that hang on a declaration.** -/
theorem exists_classifyRename (path : String) (i : d.before.Id) (groupSize : Nat) :
    (∃ r, d.classifyRename path i groupSize = .ok (some r)) ↔
      d.HangsOnDeclaration i groupSize := by
  constructor
  · rintro ⟨r, hr⟩
    obtain ⟨j, src, dst, hsrc, hj, hdst, hrename⟩ := classifyRename_eq_some hr
    obtain ⟨-, hdecl, -⟩ := Anchor.of?_eq_some_iff.1 hsrc
    obtain ⟨-, hdecl', hgrand⟩ := Anchor.of?_eq_some_iff.1 hdst
    obtain ⟨kind, hrow, hgroup, hworded⟩ := (Candidate.exists_rename? hgrand).1 ⟨_, hrename⟩
    unfold Candidate.HasRenameRow at hrow
    dsimp only at hrow
    rw [Anchor.grandparentKind?_of_of? hsrc, Anchor.grandparentKind?_of_of? hdst] at hrow
    exact ⟨j, src.parent, dst.parent, kind, hj, hdecl, hdecl', hrow, hgroup, hworded⟩
  · rintro ⟨j, decl, decl', kind, hj, hdecl, hdecl', hrow, hgroup, hworded⟩
    have hsrc : Anchor.of? d.before i = some ⟨i, decl, d.before.parent decl⟩ :=
      Anchor.of?_eq_some_iff.2 ⟨rfl, hdecl, rfl⟩
    have hdst : Anchor.of? d.after j = some ⟨j, decl', d.after.parent decl'⟩ :=
      Anchor.of?_eq_some_iff.2 ⟨rfl, hdecl', rfl⟩
    rw [← Anchor.grandparentKind?_of_of? hsrc, ← Anchor.grandparentKind?_of_of? hdst] at hrow
    let c : Candidate d := ⟨path, ⟨i, decl, d.before.parent decl⟩, ⟨j, decl', d.after.parent decl'⟩⟩
    obtain ⟨x, hx⟩ := (Candidate.exists_rename? (c := c) rfl).2 ⟨kind, hrow, hgroup, hworded⟩
    obtain ⟨_, -, -, hreport⟩ := Candidate.rename?_cases hx
    obtain ⟨_, _, _, _, _, _, rfl⟩ := hreport.exists_record
    rw [classifyRename_of_anchors path hsrc hj hdst]
    exact ⟨_, attempt_eq_some.2 hx⟩

/-- A declaration that is renamed is no tag of documentation. -/
theorem HangsOnDeclaration.not_tag {i : d.before.Id} {n : Nat} (h : d.HangsOnDeclaration i n) :
    (d.before.parent i).map d.before.kind ≠ some .tagElement := by
  obtain ⟨_, decl, _, kind, -, hdecl, -, hrow, -⟩ := h
  rw [hdecl, Option.map_some]
  intro htag
  rw [Option.some.inj htag] at hrow
  cases hrow

end Diff

/-- **An update of a modifier or a literal is reported as a rename exactly when the node is neither
    a string nor a number and hangs on a declaration**: that it names nothing is not looked at. -/
theorem unnamed_renamed_iff (d : Diff) (hd : d.InRange) (path : String) (i : d.before.Id)
    (label : String) (hkind : (d.before.kind i).isModifierOrLiteral = true) :
    ∃ rs, d.renames path = .ok rs ∧
      (∀ r, r ∈ rs ↔ ∃ e ∈ d.script, d.renameOf path e = .ok (some r)) ∧
      ((∃ r, d.renameOf path (.update i.val label) = .ok (some r)) ↔
        d.before.kind i ≠ .stringLiteral ∧ d.before.kind i ≠ .numberLiteral ∧
        d.HangsOnDeclaration i (d.script.countP
          (d.hasRenameKey (relabelKey "update-node" (d.before.label i) label)))) := by
  obtain ⟨rs, hrs⟩ := Diff.renames_total hd path
  refine ⟨rs, hrs, fun r => Diff.mem_renames_iff hrs, ?_⟩
  have htext : d.before.kind i ≠ .textElement := by
    intro h
    rw [h] at hkind
    cases hkind
  rw [Diff.renameOf_update]
  constructor
  · rintro ⟨r, hr⟩
    split at hr
    · rename_i hmay
      obtain ⟨⟨hstring, hnumber, -⟩, -⟩ := Diff.mayRename_iff.1 hmay
      exact ⟨hstring, hnumber, (Diff.exists_classifyRename path i _).1 ⟨r, hr⟩⟩
    · cases hr
  · rintro ⟨hstring, hnumber, hhangs⟩
    rw [if_pos (Diff.mayRename_iff.2 ⟨⟨hstring, hnumber, htext⟩, hhangs.not_tag⟩)]
    exact (Diff.exists_classifyRename path i _).2 hhangs

/-- A class in which two attributes get another initial value and a method another modifier, and
    nothing gets another name. -/
def flippedFlags : Diff :=
  let field (pos : Nat) (name value : String) : Outline :=
    let size := value.length
    .node .fieldDeclaration "" pos (13 + size) [.node .primitiveType "boolean" pos 7 [],
      .node .variableDeclarationFragment "" (pos + 8) (4 + size)
        [.node .simpleName name (pos + 8) 1 [], .node .booleanLiteral value (pos + 12) size []]]
  let tree (text value access : String) : TreeDocument :=
    let second := 24 + value.length
    let method := second + 14 + value.length
    let name := method + access.length + 6
    ⟨text, .node .compilationUnit "" 0 (name + 8) [.node .typeDeclaration "" 0 (name + 8)
      [.node .simpleName "A" 6 1 [], field 10 "a" value, field second "b" value,
        .node .methodDeclaration "" method (access.length + 12)
          [.node .modifier access method access.length [],
            .node .primitiveType "void" (name - 5) 4 [], .node .simpleName "f" name 1 [],
            .node .block "" (name + 4) 2 []]]]⟩
  { before := (tree "class A { boolean a = true; boolean b = true; public void f() {} }" "true"
      "public").load.toOption.get (by decide +kernel)
    after := (tree "class A { boolean a = false; boolean b = false; private void f() {} }" "false"
      "private").load.toOption.get (by decide +kernel)
    mapping := .diagonal 18
    script := [.update 7 "false", .update 12 "false", .update 14 "private"] }

theorem inRange_flippedFlags : flippedFlags.InRange :=
  Diff.Numbered.inRange ⟨by decide +kernel, by decide +kernel⟩

/-- What the script of `flippedFlags` updates: two literals and a modifier. -/
theorem updated_flippedFlags :
    (∃ i : flippedFlags.before.Id, i.val = 7 ∧ flippedFlags.before.kind i = .booleanLiteral) ∧
    (∃ i : flippedFlags.before.Id, i.val = 12 ∧ flippedFlags.before.kind i = .booleanLiteral) ∧
    ∃ i : flippedFlags.before.Id, i.val = 14 ∧ flippedFlags.before.kind i = .modifier ∧
      flippedFlags.before.label i = "public" := by
  have h : (flippedFlags.before.find? 7).map flippedFlags.before.kind = some .booleanLiteral ∧
      (flippedFlags.before.find? 12).map flippedFlags.before.kind = some .booleanLiteral ∧
      (flippedFlags.before.find? 14).map
        (fun i => (flippedFlags.before.kind i, flippedFlags.before.label i)) =
        some (.modifier, "public") := by decide +kernel
  simp only [Option.map_eq_some_iff, Tree.find?_eq_some_iff, Prod.mk.injEq] at h
  exact h

theorem unnamed_renamed_flippedFlags :
    flippedFlags.InRange ∧ ∃ i : flippedFlags.before.Id, i.val = 14 ∧
      flippedFlags.before.kind i = .modifier ∧
      ∃ r, flippedFlags.renameOf "A.java" (.update 14 "private") = .ok (some r) ∧
        flippedFlags.HangsOnDeclaration i (flippedFlags.script.countP
          (flippedFlags.hasRenameKey (relabelKey "update-node" "public" "private"))) := by
  obtain ⟨-, -, i, hi, hkind, hlabel⟩ := updated_flippedFlags
  have hanswer : (flippedFlags.renameOf "A.java" (.update 14 "private")).toOption.join.isSome =
      true := by decide +kernel
  obtain ⟨r, hr⟩ := Option.isSome_iff_exists.1 hanswer
  have hok : flippedFlags.renameOf "A.java" (.update 14 "private") = .ok (some r) :=
    eq_ok_of_toOption (Option.join_eq_some_iff.1 hr)
  obtain ⟨rs, -, -, hiff⟩ :=
    unnamed_renamed_iff flippedFlags inRange_flippedFlags "A.java" i "private" (by rw [hkind]; rfl)
  rw [hi, hlabel] at hiff
  obtain ⟨-, -, hhangs⟩ := hiff.1 ⟨r, hok⟩
  exact ⟨inRange_flippedFlags, i, hi, hkind, r, hok, hhangs⟩

theorem renamed_in_flippedFlags :
    flippedFlags.InRange ∧
    (∀ e ∈ flippedFlags.script, ∃ (i : flippedFlags.before.Id) (label : String),
      e = .update i.val label ∧ (flippedFlags.before.kind i).isModifierOrLiteral = true) ∧
    (flippedFlags.renames "A.java").map (List.map (·.description)) =
      .ok ["Rename Attribute a : boolean to a : boolean in class A",
        "Rename Attribute b : boolean to b : boolean in class A",
        "Rename Method public f() : void renamed to private f() : void in class A"] := by
  refine ⟨inRange_flippedFlags, ?_, eq_ok_of_toOption (by decide +kernel)⟩
  intro e he
  have he : e = .update 7 "false" ∨ e = .update 12 "false" ∨ e = .update 14 "private" := by
    simpa [flippedFlags] using he
  obtain ⟨⟨i, hi, hkind⟩, ⟨i', hi', hkind'⟩, i'', hi'', hkind'', -⟩ := updated_flippedFlags
  rcases he with rfl | rfl | rfl
  · exact ⟨i, _, by rw [hi], by rw [hkind]; rfl⟩
  · exact ⟨i', _, by rw [hi'], by rw [hkind']; rfl⟩
  · exact ⟨i'', _, by rw [hi''], by rw [hkind'']; rfl⟩

end Recast
