import Recast.Proofs.Classify.Group
import Recast.Proofs.Detect.Total

/-!
# One edit at a time

Both passes first sort their candidates into groups and then go from group to group. Here is what
they report, said without groups: every edit of the script is answered by itself, with the number
of updates that have its key, and every pair of generic types by itself.

* `Partitions`: every key has one group, the keys stand in the order of their first occurrence, and
  the groups hold what was put into them;
* `Diff.renameOf`, `Diff.typeChangeOf`, `Diff.genericChangeOf`: the answer to one edit, and to one
  pair;
* `Diff.mem_renames_iff`: what the rename pass reports is what it answers to the edits;
* `Diff.detect_eq_empty`: without an answer nothing is detected;
* `passes_singly`: **either pass reports what going through the edits and pairs one by one gives,
  rearranged.**
-/

namespace Recast

/-! ## 1. Groups -/

/-- Groups are the things with the keys, sorted by their keys. -/
structure Partitions {α : Type} (gs : List (Group α)) (xs : List (String × α)) : Prop where
  /-- The keys are those of the things, each where it first occurs. -/
  keys : gs.map (·.key) = (xs.map (·.1)).eraseDups
  distinct : (gs.map (·.key)).Nodup
  /-- A group is what has its key, in the order in which it came. -/
  members : ∀ g ∈ gs, g.members = (xs.filter fun x => x.1 = g.key).map (·.2)
  /-- Nothing is lost and nothing is there twice. -/
  complete : (gs.flatMap fun g => g.members.map fun a => (g.key, a)).Perm xs

/-- **Grouping sorts by key.** -/
theorem groupByKey_partitions {α : Type} (xs : List (String × α)) :
    Partitions (groupByKey xs) xs := by
  have hkeys : (groupByKey xs).map (·.key) = (xs.map (·.1)).eraseDups := by
    rw [groupByKey_eq, Group.ofKeys, List.map_map]
    exact List.map_id _
  refine ⟨hkeys, hkeys ▸ nodup_eraseDups _, fun g hg => ?_, ?_⟩
  · rw [groupByKey_eq] at hg
    obtain ⟨key, -, rfl⟩ := List.mem_map.1 hg
    rfl
  · have hfilter (key : String) :
        (withKey key xs).map (fun a => (key, a)) = xs.filter (·.1 = key) := by
      rw [withKey, List.map_map]
      refine (List.map_congr_left fun x hx => ?_).trans (List.map_id _)
      rw [← of_decide_eq_true (List.mem_filter.1 hx).2]
      rfl
    rw [groupByKey_eq, Group.ofKeys, List.flatMap_map]
    simp only [hfilter]
    exact flatMap_filter_perm (nodup_eraseDups _) fun x hx =>
      List.mem_eraseDups.2 (List.mem_map.2 ⟨x, hx, rfl⟩)

namespace Diff

/-! ## 2. Answers -/

/-- Whether an edit is an update that may be a rename and has the given key. -/
def hasRenameKey (d : Diff) (key : String) : Edit → Bool
  | .update n label => (d.before.find? n).any fun i =>
      d.mayRename i && (Edit.update n label).key (d.before.label i) == key
  | _ => false

/-- The rename pass's answer to one edit: an update that may be a rename counts with all that have
    its key. -/
def renameOf (d : Diff) (path : String) : Edit → Except Fault (Option Refactoring)
  | .update n label => do
    let i ← d.before.resolve n
    if d.mayRename i then
      d.classifyRename path i
        (d.script.countP (d.hasRenameKey ((Edit.update n label).key (d.before.label i))))
    else return none
  | _ => return none

/-- What is said of an updated or moved node: it has to be a type or a name. -/
def typeChangeAt (d : Diff) (path : String) (moved : Bool) (i : d.before.Id) :
    Except Fault (Option Refactoring) :=
  if d.before.isType i || d.before.kind i == .simpleName then
    d.classifyTypeChange path ⟨i, moved⟩
  else .ok none

/-- The type-change pass's answer to one edit. -/
def typeChangeOf (d : Diff) (path : String) : Edit → Except Fault (Option Refactoring)
  | .update n _ => d.before.resolve n >>= d.typeChangeAt path false
  | .move n => d.before.resolve n >>= d.typeChangeAt path true
  | _ => return none

/-- Two generic types, neither of them part of another, that differ anywhere inside. -/
def differInside (d : Diff) (i : d.before.Id) (j : d.after.Id) : Bool :=
  d.before.kind i == .parameterizedType && d.after.kind j == .parameterizedType &&
    !(d.before.isNestedType i || d.after.isNestedType j || d.before.isomorphic i d.after j)

/-- The type-change pass's answer to one pair: as if the earlier node had been updated. -/
def genericChangeOf (d : Diff) (path : String) (p : Nat × Nat) :
    Except Fault (Option Refactoring) := do
  let i ← d.before.resolve p.1
  let j ← d.after.resolve p.2
  if d.differInside i j then d.classifyTypeChange path ⟨i, false⟩ else return none

variable {d : Diff}

/-- The answer to an update of a node. -/
theorem renameOf_update (path : String) (i : d.before.Id) (label : String) :
    d.renameOf path (.update i.val label) =
      if d.mayRename i then d.classifyRename path i (d.script.countP
        (d.hasRenameKey (relabelKey "update-node" (d.before.label i) label)))
      else .ok none := by
  simp only [renameOf, Tree.resolve_val]
  rfl

/-- An edit counts for a key when it gives a candidate with that key. -/
theorem hasRenameKey_eq (key : String) (e : Edit) :
    d.hasRenameKey key e = finds d.renameCandidate? (fun x => x.1 = key) e := by
  cases e with
  | insert n => rfl
  | delete n => rfl
  | move n => rfl
  | update n label =>
    by_cases hn : n < d.before.nodes.size
    · simp only [hasRenameKey, finds, renameCandidate?, Tree.find?, dif_pos hn,
        Tree.resolve_of_lt hn, Option.any_some, Except.map]
      cases d.mayRename ⟨n, hn⟩ <;> rfl
    · simp only [hasRenameKey, finds, renameCandidate?, Tree.find?, Tree.resolve, dif_neg hn,
        Option.any_none, Except.map]

theorem length_withKey {xs : List (String × d.before.Id)} (h : d.renameCandidates = .ok xs)
    (key : String) : (withKey key xs).length = d.script.countP (d.hasRenameKey key) := by
  rw [withKey, List.length_map, ← List.countP_eq_length_filter, countP_gather _ h]
  exact List.countP_congr fun e _ => by rw [hasRenameKey_eq]

theorem renameOf_eq (path : String) (e : Edit) :
    d.renameOf path e = andThen d.renameCandidate?
      (fun x => d.classifyRename path x.2 (d.script.countP (d.hasRenameKey x.1))) e := by
  cases e with
  | insert n => rfl
  | delete n => rfl
  | move n => rfl
  | update n label =>
    simp only [renameOf, andThen, renameCandidate?]
    cases d.before.resolve n with
    | error e => rfl
    | ok i =>
      show (if d.mayRename i then _ else _) = _
      by_cases hmay : d.mayRename i = true
      · simp only [Except.map, if_pos hmay]
      · simp only [Except.map, if_neg hmay]
        rfl

/-- What is said of an edited node is said of the candidate that the edit gives. -/
theorem andThen_typeEdit? (path : String) {e : Edit} {moved : Bool} {x : Except Fault d.before.Id}
    (h : d.typeCandidate? e = x.map (d.typeEdit? e moved)) :
    x >>= d.typeChangeAt path moved =
      andThen d.typeCandidate? (fun x => d.classifyTypeChange path x.2) e := by
  rw [andThen, h]
  cases x with
  | error f => rfl
  | ok i =>
    show d.typeChangeAt path moved i = _
    unfold typeChangeAt
    simp only [Except.map, typeEdit?]
    split <;> rfl

theorem typeChangeOf_eq (path : String) (e : Edit) :
    d.typeChangeOf path e =
      andThen d.typeCandidate? (fun x => d.classifyTypeChange path x.2) e := by
  cases e with
  | insert n => rfl
  | delete n => rfl
  | move n => exact andThen_typeEdit? path rfl
  | update n label => exact andThen_typeEdit? path rfl

theorem genericChangeOf_eq (hd : d.InRange) (path : String) {p : Nat × Nat}
    (hp : p ∈ d.mapping.pairs) :
    d.genericChangeOf path p =
      andThen d.genericCandidate? (fun x => d.classifyTypeChange path x.2) p := by
  obtain ⟨h₁, h₂⟩ := hd.mapping p hp
  simp only [genericChangeOf, andThen, genericCandidate?, Tree.resolve_of_lt h₁,
    Tree.resolve_of_lt h₂, Except.map]
  show (if d.differInside ⟨p.1, h₁⟩ ⟨p.2, h₂⟩ then _ else _) = _
  unfold differInside genericUpdate?
  cases d.before.kind ⟨p.1, h₁⟩ == .parameterizedType with
  | false => rfl
  | true =>
    cases d.after.kind ⟨p.2, h₂⟩ == .parameterizedType with
    | false => rfl
    | true =>
      cases d.before.isNestedType ⟨p.1, h₁⟩ || d.after.isNestedType ⟨p.2, h₂⟩ ||
        d.before.isomorphic ⟨p.1, h₁⟩ d.after ⟨p.2, h₂⟩ <;> rfl

/-! ## 3. Passes -/

/-- **The rename pass, edit by edit.** -/
theorem renames_perm_singly {path : String} {rs : List Refactoring}
    (h : d.renames path = .ok rs) :
    ∃ singly, gather (d.renameOf path) d.script = .ok singly ∧ rs.Perm singly := by
  obtain ⟨xs, hxs, hrs⟩ := bind_eq_ok.1 h
  obtain ⟨singly, hsingly, hperm⟩ := gather_perm (sized_perm_counted xs) hrs
  refine ⟨singly, ?_, hperm⟩
  rw [← hsingly, funext (renameOf_eq path), gather_andThen _ hxs]
  refine (gather_map_same fun x _ => ?_).symm
  rw [length_withKey hxs]

/-- **What the rename pass reports is what it answers to the edits.** -/
theorem mem_renames_iff {path : String} {rs : List Refactoring} (h : d.renames path = .ok rs)
    {r : Refactoring} : r ∈ rs ↔ ∃ e ∈ d.script, d.renameOf path e = .ok (some r) := by
  obtain ⟨singly, hsingly, hperm⟩ := renames_perm_singly h
  rw [hperm.mem_iff, mem_gather hsingly]

/-- **The type-change pass, edit by edit and pair by pair.** -/
theorem typeChanges_perm_singly (hd : d.InRange) {path : String} {ts : List Refactoring}
    (h : d.typeChanges path = .ok ts) :
    ∃ edited generic, gather (d.typeChangeOf path) d.script = .ok edited ∧
      gather (d.genericChangeOf path) d.mapping.pairs = .ok generic ∧
      ts.Perm (edited ++ generic) := by
  obtain ⟨xs, hxs, hts⟩ := bind_eq_ok.1 h
  obtain ⟨ys, hys, hxs⟩ := bind_eq_ok.1 hxs
  obtain ⟨zs, hzs, hxs⟩ := bind_eq_ok.1 hxs
  cases hxs
  obtain ⟨singly, hsingly, hperm⟩ := gather_perm (sized_perm_counted (ys ++ zs)) hts
  have hall : gather (fun x => d.classifyTypeChange path x.2) (ys ++ zs) = .ok singly := by
    rw [← hsingly]
    refine (gather_map_same fun x _ => ?_).symm
    rfl
  obtain ⟨edited, generic, hedited, hgeneric, rfl⟩ := gather_append hall
  refine ⟨edited, generic, ?_, ?_, hperm⟩
  · rw [funext (typeChangeOf_eq path), gather_andThen _ hys, hedited]
  · rw [gather_congr fun p hp => genericChangeOf_eq hd path hp, gather_andThen _ hzs, hgeneric]

/-- A pass without an answer reports nothing. -/
theorem renames_eq_nil (hd : d.InRange) {path : String}
    (h : ∀ e ∈ d.script, d.renameOf path e = .ok none) : d.renames path = .ok [] := by
  obtain ⟨rs, hrs⟩ := renames_total hd path
  obtain ⟨singly, hsingly, hperm⟩ := renames_perm_singly hrs
  rw [gather_eq_nil h] at hsingly
  cases hsingly
  rw [hrs, hperm.eq_nil]

theorem typeChanges_eq_nil (hd : d.InRange) {path : String}
    (hedits : ∀ e ∈ d.script, d.typeChangeOf path e = .ok none)
    (hpairs : ∀ p ∈ d.mapping.pairs, d.genericChangeOf path p = .ok none) :
    d.typeChanges path = .ok [] := by
  obtain ⟨ts, hts⟩ := typeChanges_total hd path
  obtain ⟨edited, generic, hedited, hgeneric, hperm⟩ := typeChanges_perm_singly hd hts
  rw [gather_eq_nil hedits] at hedited
  rw [gather_eq_nil hpairs] at hgeneric
  cases hedited
  cases hgeneric
  rw [hts, List.Perm.eq_nil hperm]

/-- **Where no edit and no pair has an answer, nothing is detected.** -/
theorem detect_eq_empty (hd : d.InRange) {path : String}
    (hrenames : ∀ e ∈ d.script, d.renameOf path e = .ok none)
    (hedits : ∀ e ∈ d.script, d.typeChangeOf path e = .ok none)
    (hpairs : ∀ p ∈ d.mapping.pairs, d.genericChangeOf path p = .ok none) (passes : Passes) :
    detect path d passes = .ok .empty := by
  refine detect_eq_ok.2 ⟨[], [], ?_, ?_, rfl⟩
  · rw [renames_eq_nil hd hrenames, ite_self]
  · rw [typeChanges_eq_nil hd hedits hpairs, ite_self]

end Diff

/-- **Grouping changes nothing but the order.** The candidates of either pass are sorted by key
    without loss. The renames are the answers to the edits of the script, one by one, each update
    with the number of updates that have its key; the type changes are the answers to the edits,
    then those to the pairs of generic types; both in some order. -/
theorem passes_singly (d : Diff) (hd : d.InRange) (path : String) :
    (∃ updates, d.renameCandidates = .ok updates ∧ Partitions (groupByKey updates) updates) ∧
    (∃ types, d.typeCandidates = .ok types ∧ Partitions (groupByKey types) types) ∧
    (∃ rs singly, d.renames path = .ok rs ∧ gather (d.renameOf path) d.script = .ok singly ∧
      rs.Perm singly) ∧
    ∃ ts edited generic, d.typeChanges path = .ok ts ∧
      gather (d.typeChangeOf path) d.script = .ok edited ∧
      gather (d.genericChangeOf path) d.mapping.pairs = .ok generic ∧
      ts.Perm (edited ++ generic) := by
  obtain ⟨updates, hupdates⟩ := Diff.renameCandidates_total hd
  obtain ⟨types, htypes⟩ := Diff.typeCandidates_total hd
  obtain ⟨rs, hrs⟩ := Diff.renames_total hd path
  obtain ⟨singly, hsingly, hperm⟩ := Diff.renames_perm_singly hrs
  obtain ⟨ts, hts⟩ := Diff.typeChanges_total hd path
  obtain ⟨edited, generic, hedited, hgeneric, hperm'⟩ := Diff.typeChanges_perm_singly hd hts
  exact ⟨⟨updates, hupdates, groupByKey_partitions _⟩, ⟨types, htypes, groupByKey_partitions _⟩,
    ⟨rs, singly, hrs, hsingly, hperm⟩, ts, edited, generic, hts, hedited, hgeneric, hperm'⟩

/-- Two attributes are renamed, from `a` to `c` and from `b` to `d`, and with them their uses in the
    initializers of two others; the updates of one name stand between those of the other. -/
def twoRenames : Diff :=
  let field (pos length : Nat) (names : List Outline) : Outline :=
    .node .fieldDeclaration "" pos length [.node .primitiveType "int" pos 3 [],
      .node .variableDeclarationFragment "" (pos + 4) (length - 5) names]
  let tree (text x y : String) : TreeDocument :=
    ⟨text, .node .compilationUnit "" 0 47 [.node .typeDeclaration "" 0 47
      [.node .simpleName "A" 6 1 [],
        field 10 6 [.node .simpleName x 14 1 []], field 17 6 [.node .simpleName y 21 1 []],
        field 24 10 [.node .simpleName "e" 28 1 [], .node .simpleName x 32 1 []],
        field 35 10 [.node .simpleName "f" 39 1 [], .node .simpleName y 43 1 []]]]⟩
  { before := (tree "class A { int a; int b; int e = a; int f = b; }" "a" "b").load.toOption.get
      (by decide +kernel)
    after := (tree "class A { int c; int d; int e = c; int f = d; }" "c" "d").load.toOption.get
      (by decide +kernel)
    mapping := .diagonal 21
    script := [.update 6 "c", .update 10 "d", .update 15 "c", .update 20 "d"] }

theorem inRange_twoRenames : twoRenames.InRange :=
  Diff.Numbered.inRange ⟨by decide +kernel, by decide +kernel⟩

theorem passes_singly_twoRenames :
    twoRenames.InRange ∧ ∃ rs singly, twoRenames.renames "A.java" = .ok rs ∧
      gather (twoRenames.renameOf "A.java") twoRenames.script = .ok singly ∧ rs.Perm singly ∧
      rs.length = 4 ∧ rs ≠ singly := by
  obtain ⟨-, -, ⟨rs, singly, hrs, hsingly, hperm⟩, -⟩ :=
    passes_singly twoRenames inRange_twoRenames "A.java"
  have hlength : (twoRenames.renames "A.java").toOption.map List.length = some 4 := by
    decide +kernel
  have hne : (twoRenames.renames "A.java").toOption ≠
      (gather (twoRenames.renameOf "A.java") twoRenames.script).toOption := by decide +kernel
  rw [hrs] at hlength hne
  rw [hsingly] at hne
  refine ⟨inRange_twoRenames, rs, singly, hrs, hsingly, hperm, Option.some.inj hlength, ?_⟩
  intro he
  exact hne (congrArg some he)

end Recast
