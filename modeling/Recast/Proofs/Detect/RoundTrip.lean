import Recast.Proofs.Classify.Renumbering
import Recast.Proofs.Detect.Total
import Recast.Proofs.Document.Reload
import Recast.Proofs.Refactoring.Set

/-!
# Detection does not depend on how the nodes were added

A tree may have been built in any order in which parents come before their children. Writing it down
and loading it again numbers its nodes as they are read, and the pairs and the script with them.

* `Document.load_ofDiff`: what is written down loads, as a renumbered difference;
* `descriptions_detect`: the order of the records does not matter to the descriptions;
* `detect_load_ofDiff`: **detection finds the same before and after.**
-/

namespace Recast

/-! ## 1. Loading what was written down -/

theorem Tree.Renumbering.loose_eq_rankOf {s t : Tree} {r : s.Renumbering t}
    (h : ∀ i, (r.num i).val = s.rank i) (n : Nat) : r.loose n = s.rankOf n := by
  unfold loose rankOf
  cases s.find? n with
  | none => rfl
  | some i => exact h i

theorem Tree.rankOf_lt {t : Tree} {n : Nat} (h : n < t.nodes.size) : t.rankOf n < t.nodes.size := by
  rw [show t.rankOf n = _ from t.rankOf_val ⟨n, h⟩]
  exact t.rank_lt _

theorem Tree.rankOf_inj {t : Tree} {m n : Nat} (hm : m < t.nodes.size) (hn : n < t.nodes.size)
    (h : t.rankOf m = t.rankOf n) : m = n := by
  rw [show t.rankOf m = _ from t.rankOf_val ⟨m, hm⟩,
    show t.rankOf n = _ from t.rankOf_val ⟨n, hn⟩] at h
  exact congrArg Fin.val (rank_injective h)

/-- An edit in range stays in range when it is renumbered. -/
theorem Edit.Names.renumber {e : Edit} {before after before' after' : Tree} {f g : Nat → Nat}
    (h : e.Names before after) (hf : ∀ n < before.nodes.size, f n < before'.nodes.size)
    (hg : ∀ n < after.nodes.size, g n < after'.nodes.size) :
    (e.renumber f g).Names before' after' := by
  cases e with
  | insert n => exact hg n h
  | delete n => exact hf n h
  | update n label => exact hf n h
  | move n => exact hf n h

/-- The pairs of a document name every node at most once, as those of the correspondence do. -/
theorem pairwise_renumbered {d : Diff} (hd : d.Numbered) :
    let ps := d.mapping.pairs.map fun p => (d.before.rankOf p.1, d.after.rankOf p.2)
    (ps.Pairwise fun p q => p.1 ≠ q.1) ∧ ps.Pairwise fun p q => p.2 ≠ q.2 := by
  constructor
  · rw [List.pairwise_map]
    refine d.mapping.sorted.imp_of_mem fun {p q} hp hq hlt he => ?_
    have := Tree.rankOf_inj (hd.mapping p hp).1 (hd.mapping q hq).1 he
    omega
  · rw [List.pairwise_map]
    refine d.mapping.injective.imp_of_mem fun {p q} hp hq hne he => ?_
    exact hne (Tree.rankOf_inj (hd.mapping p hp).2 (hd.mapping q hq).2 he)

/-- **A difference that was written down loads again, renumbered.** -/
theorem Document.load_ofDiff (path : String) {d : Diff} (hd : d.Numbered)
    (hbefore : d.before.Addressable) (hafter : d.after.Addressable) :
    ∃ d', (Document.ofDiff path d).load = .ok d' ∧ Nonempty (d.Renumbering d') := by
  obtain ⟨before, rb, hb, hbsize, hbnum⟩ := load_ofTree hbefore
  obtain ⟨after, ra, ha, hasize, hanum⟩ := load_ofTree hafter
  have hfst := (pairwise_renumbered hd).1
  have hsnd := (pairwise_renumbered hd).2
  rw [ofDiff_eq]
  let ps := d.mapping.pairs.map fun p => (d.before.rankOf p.1, d.after.rankOf p.2)
  let es := d.script.map (Edit.renumber d.before.rankOf d.after.rankOf)
  have hrange : ∀ p ∈ ps, p.1 < before.nodes.size ∧ p.2 < after.nodes.size := by
    intro p hp
    obtain ⟨q, hq, rfl⟩ := List.mem_map.1 hp
    rw [hbsize, hasize]
    exact ⟨Tree.rankOf_lt (hd.mapping q hq).1, Tree.rankOf_lt (hd.mapping q hq).2⟩
  obtain ⟨mapping, hm, hperm⟩ := exists_loadPairs_empty hrange hfst hsnd
  have hs : checkScript before after es = .ok () := by
    refine checkScript_eq_ok.2 fun e he => ?_
    obtain ⟨e, hmem, rfl⟩ := List.mem_map.1 he
    refine (hd.script e hmem).renumber (fun n hn => ?_) fun n hn => ?_
    · exact hbsize ▸ Tree.rankOf_lt hn
    · exact hasize ▸ Tree.rankOf_lt hn
  have hbloose : rb.loose = d.before.rankOf := funext (Tree.Renumbering.loose_eq_rankOf hbnum)
  have haloose : ra.loose = d.after.rankOf := funext (Tree.Renumbering.loose_eq_rankOf hanum)
  refine ⟨⟨before, after, mapping, es⟩, load_eq_ok.2 ⟨hb, ha, hm, hs, rfl⟩, ⟨⟨rb, ra, ?_, ?_⟩⟩⟩
  · rw [hbloose, haloose]
    exact hperm
  · rw [hbloose, haloose]

/-! ## 2. Detection -/

/-- The order of the type changes does not matter to the descriptions. -/
theorem descriptions_extend_perm (s : Refactorings) {ts ts' : List Refactoring} (h : ts'.Perm ts) :
    (s.extend ts').descriptions = (s.extend ts).descriptions := by
  refine Refactorings.descriptions_eq fun x => ?_
  rw [Refactorings.mem_descriptions_extend, Refactorings.mem_descriptions_extend,
    (h.map (·.description)).mem_iff]

/-- **Detection finds the same in a difference that was written down and loaded again**, whatever
    the numbers were before: the same renames in the same order, the same type changes in some
    order, and so the same descriptions. -/
theorem detect_load_ofDiff (path : String) (d : Diff) (hd : d.Numbered)
    (hbefore : d.before.Addressable) (hafter : d.after.Addressable) :
    ∃ d', (Document.ofDiff path d).path = path ∧ (Document.ofDiff path d).load = .ok d' ∧
      (∃ rs, d.renames path = .ok rs ∧ d'.renames path = .ok rs) ∧
      (∃ ts ts', d.typeChanges path = .ok ts ∧ d'.typeChanges path = .ok ts' ∧ ts'.Perm ts) ∧
      ∀ passes, ∃ found found', detect path d passes = .ok found ∧
        detect path d' passes = .ok found' ∧ found'.descriptions = found.descriptions := by
  obtain ⟨d', hload, ⟨r⟩⟩ := Document.load_ofDiff path hd hbefore hafter
  obtain ⟨rs, hrs⟩ := Diff.renames_total hd.inRange path
  obtain ⟨ts, hts⟩ := Diff.typeChanges_total hd.inRange path
  have hrs' : d'.renames path = .ok rs := (Diff.renames_renumber r hd.inRange path).trans hrs
  obtain ⟨ts', hts', hperm⟩ := Diff.typeChanges_renumber r hd.inRange path hts
  refine ⟨d', rfl, hload, ⟨rs, hrs, hrs'⟩, ⟨ts, ts', hts, hts', hperm⟩, fun passes => ?_⟩
  let found := Refactorings.ofList (if passes.renames then rs else [])
  refine ⟨found.extend (if passes.typeChanges then ts else []),
    found.extend (if passes.typeChanges then ts' else []), ?_, ?_, ?_⟩
  · refine detect_eq_ok.2 ⟨_, _, ?_, ?_, rfl⟩
    · rw [hrs]
      split <;> rfl
    · rw [hts]
      split <;> rfl
  · refine detect_eq_ok.2 ⟨_, _, ?_, ?_, rfl⟩
    · rw [hrs']
      split <;> rfl
    · rw [hts']
      split <;> rfl
  · refine descriptions_extend_perm found ?_
    split
    · exact hperm
    · exact .refl _

/-- A class with a field of a generic type and a method; what is below the field was added after
    everything below the method. -/
def fieldAndMethod (text argument name : String) : Except TreeError Tree := do
  let a := Arena.ofText text .compilationUnit
  let a ← a.push 0 .typeDeclaration "" (.ofLength 0 31)
  let a ← a.push 1 .simpleName "A" (.ofLength 6 1)
  let a ← a.push 1 .fieldDeclaration "" (.ofLength 10 7)
  let a ← a.push 1 .methodDeclaration "" (.ofLength 18 11)
  let a ← a.push 4 .primitiveType "void" (.ofLength 18 4)
  let a ← a.push 4 .simpleName name (.ofLength 23 1)
  let a ← a.push 4 .block "" (.ofLength 27 2)
  let a ← a.push 3 .parameterizedType "" (.ofLength 10 4)
  let a ← a.push 8 .simpleType "L" (.ofLength 10 1)
  let a ← a.push 8 .simpleType argument (.ofLength 12 1)
  let a ← a.push 3 .variableDeclarationFragment "" (.ofLength 15 1)
  let a ← a.push 11 .simpleName "a" (.ofLength 15 1)
  a.finish

/-- The method gets a new name and the field a new type argument. -/
def changedMembers : Diff where
  before := (fieldAndMethod "class A \x7b L<X> a; void f() \x7b\x7d \x7d" "X" "f").toOption.get
    (by decide +kernel)
  after := (fieldAndMethod "class A \x7b L<Y> a; void g() \x7b\x7d \x7d" "Y" "g").toOption.get
    (by decide +kernel)
  mapping := .diagonal 13
  script := [.update 6 "g", .update 10 "Y"]

/-- The numbers change on the way, and there is a rename and a type change to be found. -/
theorem detect_load_changedMembers :
    changedMembers.Numbered ∧ changedMembers.before.Addressable ∧
      changedMembers.after.Addressable ∧
      ∃ d' rs ts ts', (Document.ofDiff "A.java" changedMembers).load = .ok d' ∧
        (Document.ofDiff "A.java" changedMembers).script = [.update 11 "g", .update 6 "Y"] ∧
        changedMembers.renames "A.java" = .ok rs ∧ d'.renames "A.java" = .ok rs ∧
        rs.map (·.description) =
          ["Rename Method package f() : void renamed to package g() : void in class A"] ∧
        changedMembers.typeChanges "A.java" = .ok ts ∧ d'.typeChanges "A.java" = .ok ts' ∧
        ts'.Perm ts ∧
        ts.map (·.description) = List.replicate 2
          "Change Attribute Type a : L<X> to a : L<Y> in class A" ∧
        ∀ passes, ∃ found found', detect "A.java" changedMembers passes = .ok found ∧
          detect "A.java" d' passes = .ok found' ∧ found'.descriptions = found.descriptions := by
  have hd : changedMembers.Numbered := ⟨by decide +kernel, by decide +kernel⟩
  have hb : changedMembers.before.Addressable := by
    unfold Tree.Addressable
    decide +kernel
  have ha : changedMembers.after.Addressable := by
    unfold Tree.Addressable
    decide +kernel
  obtain ⟨d', -, hload, ⟨rs, hrs, hrs'⟩, ⟨ts, ts', hts, hts', hperm⟩, hdetect⟩ :=
    detect_load_ofDiff "A.java" changedMembers hd hb ha
  have hrename : (changedMembers.renames "A.java").toOption.map (·.map (·.description)) =
      some ["Rename Method package f() : void renamed to package g() : void in class A"] := by
    decide +kernel
  have hchange : (changedMembers.typeChanges "A.java").toOption.map (·.map (·.description)) =
      some (List.replicate 2 "Change Attribute Type a : L<X> to a : L<Y> in class A") := by
    decide +kernel
  rw [hrs] at hrename
  rw [hts] at hchange
  have hscript : (Document.ofDiff "A.java" changedMembers).script =
      [.update 11 "g", .update 6 "Y"] := by
    rw [Document.ofDiff_eq]
    decide +kernel
  exact ⟨hd, hb, ha, d', rs, ts, ts', hload, hscript, hrs, hrs', Option.some.inj hrename, hts, hts',
    hperm, Option.some.inj hchange, hdetect⟩

end Recast
