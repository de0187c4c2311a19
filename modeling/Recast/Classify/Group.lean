import Recast.Diff
import Recast.Tree.Term

/-!
# Candidates and their groups

Classification looks at the edits of a script one key at a time: every update from `a` to
`b` is one signal, no matter how many nodes it touches, and how many there are is evidence.

* `Group`, `Grouping` and `groupByKey`: things that share a key, the keys in the order of their
  first occurrence. Beside the groups stands an index of their places, and `InStep` says that the
  two agree;
* `renameCandidates`: the updates that may be renames;
* `typeCandidates`: the updates and moves of types and names, and an update of its own for each
  pair of generic types that differ anywhere inside.
-/

namespace Recast

/-! ## 1. Groups -/

/-- Things that share a key, in the order in which they came. -/
structure Group (α : Type) where
  key : String
  members : List α

/-- The group with one more member. -/
def Group.join {α : Type} (a : α) (g : Group α) : Group α := { g with members := g.members ++ [a] }

/-- An index has a key at the place where the group with that key stands, and nothing else. -/
def InStep {α : Type} (groups : List (Group α)) (index : List (String × Nat)) : Prop :=
  ∀ key i, index.lookup key = some i ↔ groups[i]?.map (·.key) = some key

namespace InStep

variable {α : Type} {groups : List (Group α)} {index : List (String × Nat)}

/-- One more member leaves the keys alone. -/
theorem join (h : InStep groups index) (i : Nat) (a : α) :
    InStep (groups.modify i (Group.join a)) index := by
  intro key j
  rw [h key j, List.getElem?_modify]
  split
  · rw [Option.map_eq_map, Option.map_map]
    rfl
  · rw [Option.map_eq_map, Option.map_id']

/-- A key that is not in the index gets a group at the end. -/
theorem opened (h : InStep groups index) {key : String} (hnew : index.lookup key = none) (a : α) :
    InStep (groups ++ [⟨key, [a]⟩]) ((key, groups.length) :: index) := by
  intro key' i
  have hpast (hi : groups.length < i) : (groups ++ [⟨key, [a]⟩])[i]? = none :=
    List.getElem?_eq_none (by rw [List.length_append]; exact hi)
  by_cases hk : key' = key
  · subst hk
    rw [List.lookup_cons_self, Option.some_inj]
    rcases Nat.lt_trichotomy i groups.length with hi | rfl | hi
    · -- a group with this key in front of the new one would be in the index already
      rw [List.getElem?_append_left hi, ← h key' i, hnew]
      simp [Nat.ne_of_gt hi]
    · simp
    · simp [hpast hi, Nat.ne_of_lt hi]
  · rw [List.lookup_cons, beq_false_of_ne hk]
    dsimp only
    rw [h key' i]
    rcases Nat.lt_trichotomy i groups.length with hi | rfl | hi
    · rw [List.getElem?_append_left hi]
    · simp [Ne.symm hk]
    · rw [List.getElem?_eq_none (Nat.le_of_lt hi), hpast hi]

end InStep

/-- Groups in the making, with an index of the places of their keys. -/
structure Grouping (α : Type) where
  groups : List (Group α)
  index : List (String × Nat)
  inStep : InStep groups index

namespace Grouping

variable {α : Type}

/-- No group yet. -/
def empty : Grouping α := ⟨[], [], by simp [InStep]⟩

/-- Adds a thing to the group with its key, or opens a group for it at the end. -/
def push (g : Grouping α) (key : String) (a : α) : Grouping α :=
  match h : g.index.lookup key with
  | some i => ⟨g.groups.modify i (Group.join a), g.index, g.inStep.join i a⟩
  | none => ⟨g.groups ++ [⟨key, [a]⟩], (key, g.groups.length) :: g.index, g.inStep.opened h a⟩

end Grouping

/-- The groups of a list of things with their keys. -/
def groupByKey {α : Type} (xs : List (String × α)) : List (Group α) :=
  (xs.foldl (fun g (key, a) => g.push key a) Grouping.empty).groups

/-- Every member of a group together with the size of its group. -/
def Group.sized {α : Type} (gs : List (Group α)) : List (α × Nat) :=
  gs.flatMap fun g => g.members.map fun a => (a, g.members.length)

/-! ## 2. Candidates for renames -/

/-- Whether an update of this node may be a rename: not that of a literal or of documentation. -/
def Diff.mayRename (d : Diff) (i : d.before.Id) : Bool :=
  !(d.before.kind i).isIncidentalText &&
    (d.before.parent i).map d.before.kind != some .tagElement

/-- The candidate for a rename that an edit gives, with its key. -/
def Diff.renameCandidate? (d : Diff) (e : Edit) : Except Fault (Option (String × d.before.Id)) :=
  match e with
  | .update n _ =>
    (d.before.resolve n).map fun i =>
      if d.mayRename i then some (e.key (d.before.label i), i) else none
  | _ => .ok none

/-- The candidates for renames, in the order of the script. -/
def Diff.renameCandidates (d : Diff) : Except Fault (List (String × d.before.Id)) :=
  gather d.renameCandidate? d.script

/-! ## 3. Candidates for type changes -/

/-- A node whose type may have changed. -/
structure TypeCandidate (t : Tree) where
  node : t.Id
  /-- Whether it was moved rather than updated. -/
  moved : Bool

/-- The candidate that an edit of this node gives, with its key. -/
def Diff.typeEdit? (d : Diff) (e : Edit) (moved : Bool) (i : d.before.Id) :
    Option (String × TypeCandidate d.before) :=
  if d.before.isType i || d.before.kind i == .simpleName then
    some (e.key (d.before.label i), ⟨i, moved⟩)
  else none

/-- The candidate for a type change that an edit gives, with its key. -/
def Diff.typeCandidate? (d : Diff) (e : Edit) :
    Except Fault (Option (String × TypeCandidate d.before)) :=
  match e with
  | .update n _ => (d.before.resolve n).map (d.typeEdit? e false)
  | .move n => (d.before.resolve n).map (d.typeEdit? e true)
  | _ => .ok none

/-- Whether a node is part of a reference to a type. -/
def Tree.isNestedType (t : Tree) (i : t.Id) : Bool := (t.parent i).any t.isType

/-- The candidate that a pair of generic types gives: an update, when neither is part of another
    type and they differ anywhere inside. It catches changes of type arguments that the script
    spreads over several nodes. -/
def Diff.genericUpdate? (d : Diff) (i : d.before.Id) (j : d.after.Id) :
    Option (String × TypeCandidate d.before) :=
  if d.before.isNestedType i || d.after.isNestedType j || d.before.isomorphic i d.after j then none
  else some (relabelKey "update-node" (d.before.displayLabel i) (d.after.displayLabel j), ⟨i, false⟩)

/-- The candidate for a type change that a pair gives, with its key. The later node is looked at
    only when the earlier one is a generic type. -/
def Diff.genericCandidate? (d : Diff) (p : Nat × Nat) :
    Except Fault (Option (String × TypeCandidate d.before)) :=
  match d.before.resolve p.1 with
  | .error e => .error e
  | .ok i =>
    if d.before.kind i == .parameterizedType then
      (d.after.resolve p.2).map fun j =>
        if d.after.kind j == .parameterizedType then d.genericUpdate? i j else none
    else .ok none

/-- The candidates for type changes: those of the script, then those of the pairs. -/
def Diff.typeCandidates (d : Diff) : Except Fault (List (String × TypeCandidate d.before)) := do
  let edited ← gather d.typeCandidate? d.script
  let generic ← gather d.genericCandidate? d.mapping.pairs
  return edited ++ generic

end Recast
