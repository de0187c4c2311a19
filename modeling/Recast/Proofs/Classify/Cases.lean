import Recast.Classify.TypeChange
import Recast.Proofs.Fault
import Recast.Proofs.Text.LineIndex

/-!
# What a classifier can answer

A classifier tries the rows of a table, each with its own guards. This file says once what comes out
of it, so that no later proof has to open the tables again.

* `report_eq`: making a record never faults; the record is `Candidate.record`, with positions found
  by walking the texts;
* `RenameRow`, `TypeChangeRow`: the rows, as relations between the kinds around a node and a kind of
  refactoring;
* `rename?_rows`: a rename is made by a row that applies;
* `rename?_cases`, `typeChange?_cases`: an answer is a report of a kind whose row applies;
* `classifyRename_eq_some`, `classifyTypeChange_eq_some`: how a candidate comes about.
-/

namespace Recast

/-! ## 1. Records -/

/-- The place of a node, its positions found by walking the text. -/
def CodeRange.walked (path : String) (t : Tree) (i : t.Id) (elementType : ElementType)
    (description codeElement : String) : CodeRange :=
  let start := Text.positionAt t.text (t.span i).start
  let stop := Text.positionAt t.text (t.span i).stop
  { filePath := path, startLine := start.line, endLine := stop.line, startColumn := start.col,
    endColumn := stop.col, elementType, description, codeElement }

theorem CodeRange.ofNode_eq (path : String) (t : Tree) (i : t.Id) (elementType : ElementType)
    (description codeElement : String) :
    CodeRange.ofNode path t i elementType description codeElement =
      .ok (.walked path t i elementType description codeElement) := by
  unfold CodeRange.ofNode
  rw [Text.LineIndex.range_ofText]
  rfl

namespace Diff.Candidate

variable {d : Diff}

/-- The record of a candidate, its positions found by walking the texts. -/
def record (c : Candidate d) (kind : RefactoringKind) (details : String) (element : ElementType)
    (oldRole oldElement newRole newElement : String) : Refactoring :=
  .make kind details
    (.walked c.path d.before c.src.node element oldRole oldElement)
    (.walked c.path d.after c.dst.node element newRole newElement)

/-- **Making a record never faults.** -/
theorem report_eq (c : Candidate d) (kind : RefactoringKind) (details : String)
    (element : ElementType) (oldRole oldElement newRole newElement : String) :
    c.report kind details element oldRole oldElement newRole newElement =
      .ok (c.record kind details element oldRole oldElement newRole newElement) := by
  unfold report
  rw [CodeRange.ofNode_eq, CodeRange.ofNode_eq]
  rfl

/-- `x` is a report of the given kind about the two nodes of a candidate. -/
def Reports (c : Candidate d) (kind : RefactoringKind) (x : Except Fault Refactoring) : Prop :=
  ∃ details element oldRole oldElement newRole newElement,
    x = c.report kind details element oldRole oldElement newRole newElement

theorem Reports.exists_record {c : Candidate d} {kind : RefactoringKind}
    {x : Except Fault Refactoring} (h : c.Reports kind x) :
    ∃ details element oldRole oldElement newRole newElement,
      x = .ok (c.record kind details element oldRole oldElement newRole newElement) := by
  obtain ⟨details, element, oldRole, oldElement, newRole, newElement, rfl⟩ := h
  exact ⟨details, element, oldRole, oldElement, newRole, newElement, c.report_eq ..⟩

theorem Reports.kind_eq {c : Candidate d} {kind : RefactoringKind} {r : Refactoring}
    (h : c.Reports kind (.ok r)) : r.kind = kind := by
  obtain ⟨_, _, _, _, _, _, he⟩ := h.exists_record
  cases he
  rfl

/-! ## 2. Renames -/

/-- The rows of the table of renames: the kinds of the parent and of the grandparent, the latter in
    either tree. -/
inductive RenameRow : Kind → Option Kind → Option Kind → RefactoringKind → Prop where
  | method (g g' : Option Kind) : RenameRow .methodDeclaration g g' .renameMethod
  | parameter :
      RenameRow .singleVariableDeclaration (some .methodDeclaration) (some .methodDeclaration)
        .renameParameter
  | attribute (g' : Option Kind) :
      RenameRow .variableDeclarationFragment (some .fieldDeclaration) g' .renameAttribute
  | statement (g' : Option Kind) :
      RenameRow .variableDeclarationFragment (some .variableDeclarationStatement) g' .renameVariable
  | expression (g' : Option Kind) :
      RenameRow .variableDeclarationFragment (some .variableDeclarationExpression) g'
        .renameVariable
  | loop (g' : Option Kind) :
      RenameRow .singleVariableDeclaration (some .enhancedForStatement) g' .renameVariable

/-- The row that applies to a candidate. -/
def HasRenameRow (c : Candidate d) (kind : RefactoringKind) : Prop :=
  RenameRow (d.before.kind c.src.parent) c.src.grandparentKind? c.dst.grandparentKind? kind

/-- The kinds of rename for which one update is not evidence enough. -/
def NeedsGroup (kind : RefactoringKind) : Prop := kind = .renameAttribute ∨ kind = .renameVariable

theorem methodRename?_reports {c : Candidate d} {x : Except Fault Refactoring}
    (h : c.methodRename? = some x) : c.Reports .renameMethod x := by
  simp only [methodRename?, Option.bind_eq_bind, Option.bind_eq_some_iff] at h
  obtain ⟨_, _, _, _, hx⟩ := h
  cases hx
  exact ⟨_, _, _, _, _, _, rfl⟩

theorem parameterRename?_reports {c : Candidate d} {x : Except Fault Refactoring}
    (h : c.parameterRename? = some x) : c.Reports .renameParameter x := by
  simp only [parameterRename?, Option.bind_eq_bind, Option.bind_eq_some_iff] at h
  obtain ⟨_, _, _, _, _, _, _, _, _, _, hx⟩ := h
  cases hx
  exact ⟨_, _, _, _, _, _, rfl⟩

theorem attributeRename?_reports {c : Candidate d} {x : Except Fault Refactoring}
    (h : c.attributeRename? = some x) : c.Reports .renameAttribute x := by
  simp only [attributeRename?, Option.bind_eq_bind, Option.bind_eq_some_iff] at h
  obtain ⟨_, _, _, _, _, _, _, _, _, _, hx⟩ := h
  cases hx
  exact ⟨_, _, _, _, _, _, rfl⟩

theorem variableRename?_reports {c : Candidate d} {element : ElementType}
    {x : Except Fault Refactoring} (h : c.variableRename? element = some x) :
    c.Reports .renameVariable x := by
  simp only [variableRename?, Option.bind_eq_bind, Option.bind_eq_some_iff] at h
  obtain ⟨_, _, _, _, _, _, hx⟩ := h
  cases hx
  exact ⟨_, _, _, _, _, _, rfl⟩

/-- `x` is what the classifier makes of a candidate as a rename of the given kind. -/
inductive MadeAs (c : Candidate d) : RefactoringKind → Except Fault Refactoring → Prop where
  | ofMethod {x : Except Fault Refactoring} (h : c.methodRename? = some x) :
      MadeAs c .renameMethod x
  | ofParameter {x : Except Fault Refactoring} (h : c.parameterRename? = some x) :
      MadeAs c .renameParameter x
  | ofAttribute {x : Except Fault Refactoring} (h : c.attributeRename? = some x) :
      MadeAs c .renameAttribute x
  | ofVariable (element : ElementType) {x : Except Fault Refactoring}
      (h : c.variableRename? element = some x) : MadeAs c .renameVariable x

theorem MadeAs.reports {c : Candidate d} {kind : RefactoringKind} {x : Except Fault Refactoring}
    (h : c.MadeAs kind x) : c.Reports kind x := by
  cases h with
  | ofMethod h => exact methodRename?_reports h
  | ofParameter h => exact parameterRename?_reports h
  | ofAttribute h => exact attributeRename?_reports h
  | ofVariable element h => exact variableRename?_reports h

/-- **A rename is made by a row that applies**, and from a group that is large enough. -/
theorem rename?_rows {c : Candidate d} {groupSize : Nat} {x : Except Fault Refactoring}
    (h : c.rename? groupSize = some x) :
    ∃ kind, c.HasRenameRow kind ∧ (NeedsGroup kind → 1 < groupSize) ∧ c.MadeAs kind x := by
  unfold rename? at h
  unfold HasRenameRow
  split at h
  · rename_i hp
    rw [hp]
    exact ⟨_, .method _ _, fun hk => by cases hk <;> contradiction, .ofMethod h⟩
  · rename_i hp hg
    split at h
    · rename_i hg'
      rw [hp, hg, beq_iff_eq.1 hg']
      exact ⟨_, .parameter, fun hk => by cases hk <;> contradiction, .ofParameter h⟩
    · cases h
  · rename_i hp hg
    split at h
    · rename_i hn
      rw [hp, hg]
      exact ⟨_, .attribute _, fun _ => hn, .ofAttribute h⟩
    · cases h
  · rename_i hp hg
    split at h
    · rename_i hn
      rw [Bool.and_eq_true, decide_eq_true_eq, Kind.isVariableDeclaration_iff] at hn
      rw [hp, hg]
      obtain ⟨rfl | rfl, hn⟩ := hn
      · exact ⟨_, .statement _, fun _ => hn, .ofVariable _ h⟩
      · exact ⟨_, .expression _, fun _ => hn, .ofVariable _ h⟩
    · cases h
  · rename_i hp hg
    split at h
    · rename_i hn
      rw [hp, hg]
      exact ⟨_, .loop _, fun _ => hn, .ofVariable _ h⟩
    · cases h
  · cases h

/-- **A rename is reported from a row that applies.** -/
theorem rename?_cases {c : Candidate d} {groupSize : Nat} {x : Except Fault Refactoring}
    (h : c.rename? groupSize = some x) :
    ∃ kind, c.HasRenameRow kind ∧ (NeedsGroup kind → 1 < groupSize) ∧ c.Reports kind x := by
  obtain ⟨kind, hrow, hgroup, hmade⟩ := rename?_rows h
  exact ⟨kind, hrow, hgroup, hmade.reports⟩

/-! ## 3. Type changes -/

/-- The rows of the table of type changes: the kinds of the parent and of the grandparent, the
    latter in either tree. -/
inductive TypeChangeRow : Kind → Option Kind → Option Kind → RefactoringKind → Prop where
  | parameter :
      TypeChangeRow .singleVariableDeclaration (some .methodDeclaration) (some .methodDeclaration)
        .changeParameterType
  | attribute (g g' : Option Kind) : TypeChangeRow .fieldDeclaration g g' .changeAttributeType
  | statement (g g' : Option Kind) :
      TypeChangeRow .variableDeclarationStatement g g' .changeVariableType
  | expression (g g' : Option Kind) :
      TypeChangeRow .variableDeclarationExpression g g' .changeVariableType
  | loop (g' : Option Kind) :
      TypeChangeRow .singleVariableDeclaration (some .enhancedForStatement) g' .changeVariableType
  | returnType (g g' : Option Kind) : TypeChangeRow .methodDeclaration g g' .changeReturnType

theorem TypeChangeRow.parent_of_returnType {p : Kind} {g g' : Option Kind}
    (h : TypeChangeRow p g g' .changeReturnType) : p = .methodDeclaration := by
  cases h
  rfl

/-- The row that applies to a candidate. -/
def HasTypeChangeRow (c : Candidate d) (kind : RefactoringKind) : Prop :=
  TypeChangeRow (d.before.kind c.src.parent) c.src.grandparentKind? c.dst.grandparentKind? kind

theorem parameterTypeChange?_reports {c : Candidate d} {x : Except Fault Refactoring}
    (h : c.parameterTypeChange? = some x) : c.Reports .changeParameterType x := by
  simp only [parameterTypeChange?, Option.bind_eq_bind, Option.bind_eq_some_iff] at h
  obtain ⟨_, _, _, _, _, _, _, _, _, _, hx⟩ := h
  cases hx
  exact ⟨_, _, _, _, _, _, rfl⟩

theorem attributeTypeChange?_reports {c : Candidate d} {x : Except Fault Refactoring}
    (h : c.attributeTypeChange? = some x) : c.Reports .changeAttributeType x := by
  simp only [attributeTypeChange?, Option.bind_eq_bind, Option.bind_eq_some_iff] at h
  obtain ⟨_, _, _, _, _, _, _, _, hx⟩ := h
  cases hx
  exact ⟨_, _, _, _, _, _, rfl⟩

theorem variableTypeChange?_reports {c : Candidate d} {old new : Option String}
    {x : Except Fault Refactoring} (h : c.variableTypeChange? old new = some x) :
    c.Reports .changeVariableType x := by
  simp only [variableTypeChange?, Option.bind_eq_bind, Option.bind_eq_some_iff] at h
  obtain ⟨_, _, _, _, _, _, hx⟩ := h
  cases hx
  exact ⟨_, _, _, _, _, _, rfl⟩

theorem returnTypeChange?_reports {c : Candidate d} {x : Except Fault Refactoring}
    (h : c.returnTypeChange? = some x) : c.Reports .changeReturnType x := by
  simp only [returnTypeChange?, Option.bind_eq_bind, Option.bind_eq_some_iff] at h
  obtain ⟨_, _, _, _, _, _, hx⟩ := h
  split at hx
  · cases hx
    exact ⟨_, _, _, _, _, _, rfl⟩
  · cases hx

/-- **A type change is reported from a row that applies.** -/
theorem typeChange?_cases {c : Candidate d} {x : Except Fault Refactoring}
    (h : c.typeChange? = some x) : ∃ kind, c.HasTypeChangeRow kind ∧ c.Reports kind x := by
  unfold typeChange? at h
  unfold HasTypeChangeRow
  split at h
  · rename_i hp hg
    split at h
    · rename_i hg'
      rw [hp, hg, beq_iff_eq.1 hg']
      exact ⟨_, .parameter, parameterTypeChange?_reports h⟩
    · cases h
  · rename_i hp
    rw [hp]
    exact ⟨_, .attribute _ _, attributeTypeChange?_reports h⟩
  · rename_i hp hg
    rw [hp, hg]
    exact ⟨_, .loop _, variableTypeChange?_reports h⟩
  · rename_i hp
    rw [hp]
    exact ⟨_, .returnType _ _, returnTypeChange?_reports h⟩
  · split at h
    · rename_i hp
      rcases Kind.isVariableDeclaration_iff.1 hp with hp | hp
      · rw [hp]
        exact ⟨_, .statement _ _, variableTypeChange?_reports h⟩
      · rw [hp]
        exact ⟨_, .expression _ _, variableTypeChange?_reports h⟩
    · cases h

end Diff.Candidate

/-! ## 4. Candidates -/

theorem Anchor.of?_eq_some_iff {t : Tree} {i : t.Id} {a : Anchor t} :
    Anchor.of? t i = some a ↔
      a.node = i ∧ t.parent i = some a.parent ∧ a.grandparent = t.parent a.parent := by
  unfold Anchor.of?
  rw [Option.map_eq_some_iff]
  constructor
  · rintro ⟨p, hp, rfl⟩
    exact ⟨rfl, hp, rfl⟩
  · rintro ⟨rfl, hp, hg⟩
    refine ⟨a.parent, hp, ?_⟩
    rw [← hg]

namespace Diff

variable {d : Diff}

/-- A rename comes from a node and its counterpart, both below the root. -/
theorem classifyRename_eq_some {path : String} {i : d.before.Id} {groupSize : Nat}
    {r : Refactoring} (h : d.classifyRename path i groupSize = .ok (some r)) :
    ∃ (j : d.after.Id) (src : Anchor d.before) (dst : Anchor d.after),
      Anchor.of? d.before i = some src ∧ d.mapping.dst? i = some j.val ∧
      Anchor.of? d.after j = some dst ∧
      Candidate.rename? ⟨path, src, dst⟩ groupSize = some (.ok r) := by
  unfold classifyRename at h
  split at h
  · rename_i src n hsrc hn
    obtain ⟨j, hj, h⟩ := bind_eq_ok.1 h
    rw [attempt_eq_some, Option.bind_eq_some_iff] at h
    obtain ⟨dst, hdst, h⟩ := h
    rw [Tree.resolve_eq_ok] at hj
    exact ⟨j, src, dst, hsrc, by rw [hn, hj], hdst, h⟩
  · cases h

/-- What the classifier says of a node whose anchors are known. -/
theorem classifyRename_of_anchors (path : String) {i : d.before.Id} {j : d.after.Id}
    {src : Anchor d.before} {dst : Anchor d.after} (hsrc : Anchor.of? d.before i = some src)
    (hj : d.mapping.dst? i = some j.val) (hdst : Anchor.of? d.after j = some dst)
    (groupSize : Nat) :
    d.classifyRename path i groupSize =
      attempt (Candidate.rename? ⟨path, src, dst⟩ groupSize) := by
  unfold classifyRename
  rw [hsrc, hj]
  show (d.after.resolve j.val >>= fun j => _) = _
  rw [Tree.resolve_val]
  show attempt ((Anchor.of? d.after j).bind _) = _
  rw [hdst, Option.bind_some]

/-- A type change comes from a node and its counterpart, both lifted to the type around them; a
    moved one has changed. -/
theorem classifyTypeChange_eq_some {path : String} {c : TypeCandidate d.before} {r : Refactoring} :
    d.classifyTypeChange path c = .ok (some r) ↔
      ∃ (j : d.after.Id) (src : Anchor d.before) (dst : Anchor d.after),
        Anchor.ofType? d.before c.node = some src ∧ d.mapping.dst? c.node = some j.val ∧
        Anchor.ofType? d.after j = some dst ∧
        (c.moved = true → d.before.isomorphic src.node d.after dst.node = false) ∧
        Candidate.typeChange? ⟨path, src, dst⟩ = some (.ok r) := by
  constructor
  · intro h
    unfold classifyTypeChange at h
    split at h
    · rename_i n src hn hsrc
      obtain ⟨j, hj, h⟩ := bind_eq_ok.1 h
      rw [attempt_eq_some, Option.bind_eq_some_iff] at h
      obtain ⟨dst, hdst, h⟩ := h
      rw [Tree.resolve_eq_ok] at hj
      dsimp only at h
      split at h
      · cases h
      · rename_i hmoved
        refine ⟨j, src, dst, hsrc, by rw [hn, hj], hdst, fun hm => ?_, h⟩
        rw [hm, Bool.true_and, Bool.not_eq_true] at hmoved
        exact hmoved
    · cases h
  · rintro ⟨j, src, dst, hsrc, hj, hdst, hmoved, h⟩
    unfold classifyTypeChange
    rw [hj, hsrc]
    refine bind_eq_ok.2 ⟨j, d.after.resolve_val j, attempt_eq_some.2 ?_⟩
    rw [hdst, Option.bind_some]
    dsimp only
    rw [if_neg, h]
    rw [Bool.and_eq_true]
    rintro ⟨hm, hsame⟩
    rw [Candidate.isUnchanged, hmoved hm] at hsame
    cases hsame

end Diff

end Recast
