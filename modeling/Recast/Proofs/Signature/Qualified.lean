import Recast.Proofs.Signature
import Recast.Proofs.Tree.Building

/-!
# Qualified names

The name of a class is put together on the way up from its declaration: each level of the tree puts
its own name in front of what is there, and a package declaration puts the package in front of that.
What comes out can be read from the root down.

* `IsConstructorArgument`: which children of an instance creation are arguments;
* `ownName?`, `IsOwnName`: the name that a level contributes;
* `qualifyLevel_of_no_package`, `qualifyLevel_of_no_name`: what one level puts in front;
* `foldl_qualifyLevel`: what a way up puts in front;
* `class_signature`: **the package and the names of the levels, from the outermost down, joined by
  dots.**
-/

namespace Recast.Tree

variable {t : Tree}

/-! ## 1. Arguments -/

/-- `child` is an argument of the instance creation `parent`: it is neither a type nor a block, some
    type stands before it and no block does. -/
structure IsConstructorArgument (t : Tree) (parent child : t.Id) : Prop where
  creation : t.kind parent = .classInstanceCreation
  notType : t.isType child = false
  notBlock : t.kind child ≠ .block
  place : ∃ before after, t.children parent = before ++ child :: after ∧
    (∃ s ∈ before, t.isType s = true) ∧ ∀ s ∈ before, t.kind s ≠ .block

/-- What the scan of the siblings looks for, given what it has seen before them. -/
def StandsBetween (t : Tree) (child : t.Id) (typeFound bodyFound : Bool) (cs : List t.Id) : Prop :=
  bodyFound = false ∧ ∃ before after, cs = before ++ child :: after ∧
    (typeFound = true ∨ ∃ s ∈ before, t.isType s = true) ∧ ∀ s ∈ before, t.kind s ≠ .block

/-- A sibling is the child itself in the right place, or it is passed by. -/
theorem standsBetween_cons {child s : t.Id} {typeFound bodyFound : Bool} {ss : List t.Id} :
    t.StandsBetween child typeFound bodyFound (s :: ss) ↔
      (s = child ∧ typeFound = true ∧ bodyFound = false) ∨
        t.kind s ≠ .block ∧ t.StandsBetween child (typeFound || t.isType s) bodyFound ss := by
  unfold StandsBetween
  rw [Bool.or_eq_true]
  constructor
  · rintro ⟨hbody, before, after, hsplit, htype, hblock⟩
    cases before with
    | nil =>
      obtain ⟨rfl, rfl⟩ := List.cons.inj hsplit
      rcases htype with htype | ⟨x, hx, -⟩
      · exact .inl ⟨rfl, htype, hbody⟩
      · cases hx
    | cons b before =>
      obtain ⟨rfl, rfl⟩ := List.cons.inj hsplit
      obtain ⟨hb, hblock⟩ := List.forall_mem_cons.1 hblock
      rw [List.exists_mem_cons_iff, ← or_assoc] at htype
      exact .inr ⟨hb, hbody, before, after, rfl, htype, hblock⟩
  · rintro (⟨rfl, htype, hbody⟩ | ⟨hs, hbody, before, after, rfl, htype, hblock⟩)
    · exact ⟨hbody, [], ss, rfl, .inl htype, fun x hx => absurd hx List.not_mem_nil⟩
    · refine ⟨hbody, s :: before, after, rfl, ?_, List.forall_mem_cons.2 ⟨hs, hblock⟩⟩
      rw [List.exists_mem_cons_iff, ← or_assoc]
      exact htype

theorem isBetween_iff {child : t.Id} (htype : t.isType child = false)
    (hblock : t.kind child ≠ .block) (typeFound bodyFound : Bool) (cs : List t.Id) :
    t.isBetween child typeFound bodyFound cs = true ↔
      t.StandsBetween child typeFound bodyFound cs := by
  fun_induction isBetween t child typeFound bodyFound cs with
  | case1 typeFound bodyFound => simp [StandsBetween]
  | case2 typeFound bodyFound s ss hs ih =>
    have hne : s ≠ child := fun he => by simp [he, htype] at hs
    have hnot : t.kind s ≠ .block := ne_of_beq_false (kind_ne_of_isType hs rfl)
    rw [ih, standsBetween_cons, hs]
    simp [hne, hnot]
  | case3 typeFound bodyFound s ss hs hkind ih =>
    have hkind : t.kind s = .block := beq_iff_eq.1 hkind
    have hne : s ≠ child := fun he => hblock (he ▸ hkind)
    -- after a block nothing is an argument any more
    rw [ih, standsBetween_cons]
    simp [hne, hkind, StandsBetween]
  | case4 typeFound bodyFound s ss hs hkind hfound =>
    rw [standsBetween_cons]
    simp only [Bool.and_eq_true, Bool.not_eq_true', beq_iff_eq] at hfound
    obtain ⟨⟨htypeFound, hbodyFound⟩, hs⟩ := hfound
    exact ⟨fun _ => .inl ⟨hs, htypeFound, hbodyFound⟩, fun _ => rfl⟩
  | case5 typeFound bodyFound s ss hs hkind hfound ih =>
    simp only [Bool.and_eq_true, Bool.not_eq_true', beq_iff_eq] at hs hkind hfound
    have hmissed : ¬(s = child ∧ typeFound = true ∧ bodyFound = false) :=
      fun h => hfound ⟨h.2, h.1⟩
    rw [ih, standsBetween_cons, or_iff_right hmissed, and_iff_right hkind,
      Bool.eq_false_of_not_eq_true hs, Bool.or_false]

/-- Neither a type nor a block is ever found between the two. -/
theorem of_isBetween {child : t.Id} {typeFound bodyFound : Bool} {cs : List t.Id}
    (h : t.isBetween child typeFound bodyFound cs = true) :
    t.isType child = false ∧ t.kind child ≠ .block := by
  fun_induction isBetween t child typeFound bodyFound cs with
  | case1 => cases h
  | case2 typeFound bodyFound s ss hs ih => exact ih h
  | case3 typeFound bodyFound s ss hs hkind ih => exact ih h
  | case4 typeFound bodyFound s ss hs hkind hfound =>
    obtain rfl : s = child := beq_iff_eq.1 (Bool.and_eq_true_iff.1 hfound).2
    exact ⟨Bool.eq_false_of_not_eq_true hs, fun hk => hkind (beq_iff_eq.2 hk)⟩
  | case5 typeFound bodyFound s ss hs hkind hfound ih => exact ih h

/-- **The scan finds the arguments**, and nothing else. -/
theorem isArgument_iff {parent child : t.Id} :
    t.isArgument parent child = true ↔ t.IsConstructorArgument parent child := by
  rw [isArgument, Bool.and_eq_true, beq_iff_eq]
  constructor
  · rintro ⟨hcreation, hbetween⟩
    obtain ⟨htype, hblock⟩ := of_isBetween hbetween
    obtain ⟨-, before, after, hsplit, hfound, hbefore⟩ :=
      (isBetween_iff htype hblock false false _).1 hbetween
    exact ⟨hcreation, htype, hblock, before, after, hsplit,
      hfound.resolve_left Bool.false_ne_true, hbefore⟩
  · rintro ⟨hcreation, htype, hblock, before, after, hsplit, hfound, hbefore⟩
    refine ⟨hcreation, (isBetween_iff htype hblock false false _).2 ?_⟩
    exact ⟨rfl, before, after, hsplit, .inr hfound, hbefore⟩

/-! ## 2. The name of a level -/

/-- `name` is the first simple name below `level` that is no argument. -/
structure IsOwnName (t : Tree) (level name : t.Id) : Prop where
  isName : t.kind name = .simpleName
  notArgument : ¬ t.IsConstructorArgument level name
  first : ∃ before after, t.children level = before ++ name :: after ∧
    ∀ s ∈ before, t.kind s = .simpleName → t.IsConstructorArgument level s

/-- Whether a child is a simple name that is no argument. -/
def isOwn (t : Tree) (level c : t.Id) : Bool := t.kind c == .simpleName && !t.isArgument level c

/-- The name of a level: its first simple name that is no argument. -/
def ownName? (t : Tree) (level : t.Id) : Option t.Id := (t.children level).find? (t.isOwn level)

theorem isOwn_iff {level c : t.Id} :
    t.isOwn level c = true ↔ t.kind c = .simpleName ∧ ¬ t.IsConstructorArgument level c := by
  rw [isOwn, Bool.and_eq_true, beq_iff_eq, Bool.not_eq_true', ← Bool.not_eq_true, isArgument_iff]

theorem not_isOwn_iff {level c : t.Id} :
    ¬ t.isOwn level c = true ↔ (t.kind c = .simpleName → t.IsConstructorArgument level c) := by
  rw [isOwn_iff, not_and, not_not]

theorem ownName?_eq_some_iff {level name : t.Id} :
    t.ownName? level = some name ↔ t.IsOwnName level name := by
  rw [ownName?, List.find?_eq_some_iff_append, isOwn_iff]
  simp only [Bool.not_eq_true', ← Bool.not_eq_true, not_isOwn_iff]
  constructor
  · rintro ⟨⟨hname, hargument⟩, hfirst⟩
    exact ⟨hname, hargument, hfirst⟩
  · rintro ⟨hname, hargument, hfirst⟩
    exact ⟨⟨hname, hargument⟩, hfirst⟩

theorem ownName?_eq_none_iff {level : t.Id} :
    t.ownName? level = none ↔ ∀ c ∈ t.children level,
      t.kind c = .simpleName → t.IsConstructorArgument level c := by
  rw [ownName?, List.find?_eq_none]
  simp only [not_isOwn_iff]

/-! ## 3. One level -/

/-- Names joined by dots, if there are any. -/
def joined? : List String → Option String
  | [] => none
  | name :: names => some (".".intercalate (name :: names))

theorem joined?_of_ne_nil {names : List String} (h : names ≠ []) :
    joined? names = some (".".intercalate names) := by
  cases names with
  | nil => exact absurd rfl h
  | cons name names => rfl

/-- Qualifying puts one name in front. -/
theorem qualify_joined? (name : String) (names : List String) :
    qualify name (joined? names) = joined? (name :: names) := by
  cases names with
  | nil => exact congrArg some (String.intercalate_singleton).symm
  | cons n names =>
    rw [joined?, joined?, String.intercalate_cons_cons, qualify]
    rfl

/-- A level without a package puts its own name in front. -/
theorem qualifyLevel_of_no_package {level : t.Id} {cs : List t.Id}
    (h : ∀ c ∈ cs, t.kind c ≠ .packageDeclaration) (name : Option String) :
    t.qualifyLevel level name cs =
      match cs.find? (t.isOwn level) with
      | some c => qualify (t.label c) name
      | none => name := by
  induction cs with
  | nil => rfl
  | cons c cs ih =>
    obtain ⟨hc, hcs⟩ := List.forall_mem_cons.1 h
    rw [qualifyLevel, beq_false_of_ne hc]
    by_cases hown : t.isOwn level c = true
    · rw [List.find?_cons_of_pos hown, ← isOwn, if_pos hown]
    · rw [List.find?_cons_of_neg hown, ← isOwn, if_neg hown, ih hcs]
      rfl

/-- A level without a name puts the package it declares in front, once there is a name. -/
theorem qualifyLevel_of_no_name {level : t.Id} {cs : List t.Id} (hnodup : cs.Nodup)
    (hname : ∀ c ∈ cs, t.kind c ≠ .simpleName)
    (hone : ∀ c c', t.kind c = .packageDeclaration → t.kind c' = .packageDeclaration → c = c')
    (names : List String) :
    t.qualifyLevel level (joined? names) cs =
      if names = [] then none
      else joined? (((cs.find? fun c => t.kind c == .packageDeclaration).bind
        t.packageName?).toList ++ names) := by
  induction cs with
  | nil =>
    cases names with
    | nil => rfl
    | cons name names => rfl
  | cons c cs ih =>
    obtain ⟨hc, hcs⟩ := List.forall_mem_cons.1 hname
    obtain ⟨hnotin, hnodup⟩ := List.nodup_cons.1 hnodup
    have hown : t.isOwn level c = false := by rw [isOwn, beq_false_of_ne hc, Bool.false_and]
    rw [qualifyLevel, ← isOwn, hown, if_neg Bool.false_ne_true]
    by_cases hpackage : t.kind c = .packageDeclaration
    · -- no second package comes after this one
      have hrest (name : Option String) : t.qualifyLevel level name cs = name := by
        have hno : ∀ c' ∈ cs, t.kind c' ≠ .packageDeclaration :=
          fun c' hc' hkind => hnotin (hone c c' hpackage hkind ▸ hc')
        have hnone : cs.find? (t.isOwn level) = none :=
          List.find?_eq_none.2 fun c' hc' h => hcs c' hc' (isOwn_iff.1 h).1
        rw [qualifyLevel_of_no_package hno, hnone]
      rw [List.find?_cons, beq_iff_eq.2 hpackage]
      cases names with
      | nil => exact hrest none
      | cons name names =>
        have hsome : (joined? (name :: names)).isSome = true := rfl
        rw [if_neg (List.cons_ne_nil _ _), hsome, Bool.true_and, if_pos rfl]
        show _ = joined? ((t.packageName? c).toList ++ name :: names)
        cases t.packageName? c with
        | none => exact hrest _
        | some package => exact (hrest _).trans (qualify_joined? package _)
    · rw [List.find?_cons, beq_false_of_ne hpackage]
      exact ih hnodup hcs

/-! ## 4. The way up -/

/-- The label of the name that a level contributes. -/
def levelName? (t : Tree) (level : t.Id) : Option String := (t.ownName? level).map t.label

/-- The names of the levels from the root down to a node. -/
def namesAround (t : Tree) (n : t.Id) : List String :=
  (n :: t.ancestors n).reverse.filterMap t.levelName?

/-- **A way up without a package puts the names of its levels in front**, the outermost first. -/
theorem foldl_qualifyLevel {levels : List t.Id}
    (h : ∀ level ∈ levels, ∀ c ∈ t.children level, t.kind c ≠ .packageDeclaration)
    (names : List String) :
    levels.foldl (fun name level => t.qualifyLevel level name (t.children level)) (joined? names) =
      joined? (levels.reverse.filterMap t.levelName? ++ names) := by
  induction levels generalizing names with
  | nil => rfl
  | cons level levels ih =>
    obtain ⟨hlevel, hlevels⟩ := List.forall_mem_cons.1 h
    have hstep : t.qualifyLevel level (joined? names) (t.children level) =
        joined? ((t.levelName? level).toList ++ names) := by
      rw [qualifyLevel_of_no_package hlevel, ← ownName?, levelName?]
      cases t.ownName? level with
      | none => rfl
      | some c => exact qualify_joined? _ _
    rw [List.foldl_cons, hstep, ih hlevels, List.reverse_cons, List.filterMap_append,
      List.append_assoc]
    congr 2

/-- The way up is a front of nodes below the root, and the root. -/
theorem exists_front (t : Tree) (n : t.Id) :
    ∃ front, n :: t.ancestors n = front ++ [t.root] ∧ ∀ i ∈ front, i ≠ t.root := by
  have hsplit := List.dropLast_append_getLast (List.cons_ne_nil n (t.ancestors n))
  rw [t.getLast_ancestors n] at hsplit
  refine ⟨_, hsplit.symm, fun i hi he => ?_⟩
  have hpairwise := t.pairwise_ancestors n
  rw [← hsplit, List.pairwise_append] at hpairwise
  have hlt := hpairwise.2.2 i hi t.root List.mem_cons_self
  rw [he] at hlt
  exact Nat.lt_irrefl _ hlt

/-! ## 5. Signatures -/

/-- A tree has the shape of a source file: there is at most one package declaration, it hangs on the
    root, and the root has no name of its own. -/
structure IsSourceFile (t : Tree) : Prop where
  package_at_root : ∀ i, t.kind i = .packageDeclaration → t.parent i = some t.root
  one_package : ∀ i j, t.kind i = .packageDeclaration → t.kind j = .packageDeclaration → i = j
  no_name_at_root : ∀ c ∈ t.children t.root, t.kind c ≠ .simpleName

/-- The package of a file: the first label below its package declaration that is not empty. -/
def package? (t : Tree) : Option String :=
  (t.childOfKind? t.root .packageDeclaration).bind t.packageName?

/-- No level from a node up to the root has a name. -/
def Nameless (t : Tree) (n : t.Id) : Prop :=
  ∀ level ∈ n :: t.ancestors n, ∀ c ∈ t.children level,
    t.kind c = .simpleName → t.IsConstructorArgument level c

theorem namesAround_eq_nil_iff {n : t.Id} : t.namesAround n = [] ↔ t.Nameless n := by
  rw [namesAround, List.filterMap_eq_nil_iff]
  simp only [List.mem_reverse, levelName?, Option.map_eq_none_iff, ownName?_eq_none_iff]
  rfl

theorem namesAround_of_parent {n c name : t.Id} (hc : t.parent c = some n)
    (hname : t.ownName? c = some name) : t.namesAround c = t.namesAround n ++ [t.label name] := by
  have hlevel : t.levelName? c = some (t.label name) := by rw [levelName?, hname, Option.map_some]
  have hup : t.ancestors c = n :: t.ancestors n := by rw [ancestors_eq, hc]
  rw [namesAround, namesAround, hup, List.reverse_cons, List.filterMap_append,
    List.filterMap_cons_some hlevel, List.filterMap_nil]

/-- The signature of any node of a file, from the package down. -/
theorem classSignature?_eq (h : t.IsSourceFile) (n : t.Id) :
    t.classSignature? n =
      if t.namesAround n = [] then none
      else joined? (t.package?.toList ++ t.namesAround n) := by
  obtain ⟨front, hup, hfront⟩ := t.exists_front n
  have hbelow : ∀ level ∈ front, ∀ c ∈ t.children level, t.kind c ≠ .packageDeclaration := by
    intro level hlevel c hc hkind
    have hparent := mem_children_iff.1 hc
    rw [h.package_at_root c hkind] at hparent
    exact hfront level hlevel (Option.some.inj hparent).symm
  have hroot : t.levelName? t.root = none := by
    rw [levelName?, Option.map_eq_none_iff, ownName?_eq_none_iff]
    exact fun c hc hkind => absurd hkind (h.no_name_at_root c hc)
  have hnames : t.namesAround n = front.reverse.filterMap t.levelName? := by
    rw [namesAround, hup, List.reverse_append, List.reverse_singleton, List.singleton_append,
      List.filterMap_cons_none hroot]
  have hnodup : (t.children t.root).Nodup :=
    (t.sorted_children t.root).imp fun hab he => Nat.ne_of_lt hab (congrArg Fin.val he)
  have hwalk := foldl_qualifyLevel hbelow []
  rw [List.append_nil, ← hnames] at hwalk
  rw [classSignature?, hup, List.foldl_append]
  show t.qualifyLevel t.root (front.foldl _ (joined? [])) (t.children t.root) = _
  rw [hwalk, qualifyLevel_of_no_name hnodup h.no_name_at_root h.one_package]
  rfl

/-- **A class signature goes from the package to the innermost name.** In a tree of the shape of a
    source file, a node has none exactly when no level from it up to the root has a name, and else
    the package and the names of the levels, from the outermost down to the node, joined by dots. So
    a node with a name of its own puts that after the signature of its parent. -/
theorem class_signature (t : Tree) (h : t.IsSourceFile) (n : t.Id) :
    (t.Nameless n → t.classSignature? n = none) ∧
    (¬ t.Nameless n → t.classSignature? n =
      some (".".intercalate (t.package?.toList ++ t.namesAround n))) ∧
    (∀ level name, t.ownName? level = some name ↔ t.IsOwnName level name) ∧
    (∀ parent child, t.isArgument parent child = true ↔ t.IsConstructorArgument parent child) ∧
    ∀ c q name, t.parent c = some n → t.classSignature? n = some q → t.IsOwnName c name →
      t.classSignature? c = some (q ++ "." ++ t.label name) := by
  have hnamed {i : t.Id} (hi : t.namesAround i ≠ []) : t.classSignature? i =
      some (".".intercalate (t.package?.toList ++ t.namesAround i)) := by
    rw [classSignature?_eq h, if_neg hi]
    exact joined?_of_ne_nil (List.append_ne_nil_of_right_ne_nil _ hi)
  refine ⟨fun hn => ?_, fun hn => ?_, fun _ _ => ownName?_eq_some_iff, fun _ _ => isArgument_iff,
    fun c q name hc hq hname => ?_⟩
  · rw [classSignature?_eq h, if_pos (namesAround_eq_nil_iff.2 hn)]
  · exact hnamed fun hnil => hn (namesAround_eq_nil_iff.1 hnil)
  · have hn : t.namesAround n ≠ [] := by
      intro hnil
      rw [classSignature?_eq h, if_pos hnil] at hq
      cases hq
    have hnames := namesAround_of_parent hc (ownName?_eq_some_iff.2 hname)
    have hc' : t.namesAround c ≠ [] := by
      rw [hnames]
      exact List.append_ne_nil_of_right_ne_nil _ (List.cons_ne_nil _ _)
    rw [hnamed hn] at hq
    cases hq
    rw [hnamed hc', hnames, ← List.append_assoc, String.intercalate_append_of_ne_nil
      (List.append_ne_nil_of_right_ne_nil _ hn) (List.cons_ne_nil _ _),
      String.intercalate_singleton]

/-- A class in the body of an anonymous class, which is created with an argument. -/
def anonymousClass : Tree :=
  (TreeDocument.mk "package a.b; class A \x7b I f = new I(x) \x7b class B \x7b\x7d \x7d; \x7d"
    (.node .compilationUnit "" 0 55 [
      .node .packageDeclaration "" 0 12 [.node .qualifiedName "a.b" 8 3 []],
      .node .typeDeclaration "" 13 42 [.node .simpleName "A" 19 1 [],
        .node .fieldDeclaration "" 23 30 [.node .simpleType "I" 23 1 [],
          .node .variableDeclarationFragment "" 25 27 [.node .simpleName "f" 25 1 [],
            .node .classInstanceCreation "" 29 23 [.node .simpleType "I" 33 1 [],
              .node .simpleName "x" 35 1 [],
              .node .anonymousClassDeclaration "" 38 14 [
                .node .typeDeclaration "" 40 10 [.node .simpleName "B" 46 1 []]]]]]]])).load.toOption.get
    (by decide +kernel)

/-- The nodes of the file by their numbers. -/
def anonymousClass.node (k : Fin 15) : anonymousClass.Id := k.cast (by decide +kernel)

theorem class_signature_anonymousClass :
    anonymousClass.IsSourceFile ∧ ¬ anonymousClass.Nameless (anonymousClass.node 9) ∧
      anonymousClass.classSignature? (anonymousClass.node 9) = some "a.b.A.f" ∧
      anonymousClass.IsConstructorArgument (anonymousClass.node 9) (anonymousClass.node 11) ∧
      anonymousClass.Nameless (anonymousClass.node 0) ∧
      anonymousClass.classSignature? (anonymousClass.node 0) = none ∧
      anonymousClass.classSignature? (anonymousClass.node 13) = some "a.b.A.f.B" := by
  have hfile : anonymousClass.IsSourceFile :=
    ⟨by decide +kernel, by decide +kernel, by decide +kernel⟩
  obtain ⟨-, hnamed, -, hargument, -⟩ :=
    class_signature anonymousClass hfile (anonymousClass.node 9)
  obtain ⟨hnameless, -⟩ := class_signature anonymousClass hfile (anonymousClass.node 0)
  obtain ⟨-, -, hown, -, hbelow⟩ := class_signature anonymousClass hfile (anonymousClass.node 12)
  have hn : ¬ anonymousClass.Nameless (anonymousClass.node 9) := by
    rw [← namesAround_eq_nil_iff]
    decide +kernel
  have hroot : anonymousClass.Nameless (anonymousClass.node 0) := by
    rw [← namesAround_eq_nil_iff]
    decide +kernel
  have hname := (hown (anonymousClass.node 13) (anonymousClass.node 14)).1 (by decide +kernel)
  refine ⟨hfile, hn, (hnamed hn).trans ?_, (hargument _ _).1 ?_, hroot, hnameless hroot,
    (hbelow _ "a.b.A.f" _ ?_ ?_ hname).trans ?_⟩
  · decide +kernel
  · decide +kernel
  · decide +kernel
  · decide +kernel
  · decide +kernel

end Recast.Tree
