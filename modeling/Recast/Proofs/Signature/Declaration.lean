import Recast.Document.Basic
import Recast.Proofs.Signature

/-!
# Signatures of whole declarations

The children of a method declaration come in a fixed order, and a signature is put together from
them in one pass with flags. This file says what comes out, part by part, for every declaration that
keeps to the order.

* `MethodLayout`: the children of a declaration by what they are;
* `seeAll_front`, `seeAll_parameters`, `seeAll_types`: what the pass makes of each part;
* `methodSignature_of_layout`: **the signature of a declaration, part by part**;
* `parameterText_eq`: a parameter shows its last name and its last type, those of a declaration
  nested in it included;
* `declaration_signature`: a declaration with a return type shows it, whatever it throws;
* `constructor_signature`: **a constructor shows no return type exactly when it has a parameter or
  throws nothing**, and `returnType_in_failingConstructor` is one that shows what it throws.
-/

namespace Recast.Tree

variable {t : Tree}

/-! ## 1. Declarations from left to right -/

/-- The children of a method declaration by what they are, from left to right. -/
structure MethodLayout (t : Tree) (method : t.Id) where
  /-- Modifiers, and whatever else says nothing in a signature. -/
  front : List t.Id
  returnType : Option t.Id
  name : t.Id
  parameters : List t.Id
  thrown : List t.Id
  body : Option t.Id
  children_eq : t.children method =
    front ++ (returnType.toList ++ name :: (parameters ++ (thrown ++ body.toList)))
  front_spec : ∀ c ∈ front, t.isType c = false ∧ t.kind c ≠ .simpleName ∧
    t.kind c ≠ .singleVariableDeclaration ∧ t.kind c ≠ .block
  returnType_spec : ∀ c ∈ returnType, t.isType c = true
  name_spec : t.kind name = .simpleName
  parameters_spec : ∀ c ∈ parameters, t.kind c = .singleVariableDeclaration
  thrown_spec : ∀ c ∈ thrown, t.isType c = true
  body_spec : ∀ c ∈ body, t.kind c = .block

/-- What a modifier says in a signature: most say nothing. -/
def modifierWord (label : String) : String :=
  if label = "public" then "public "
  else if label = "private" then "private "
  else if label = "protected" then "protected "
  else if label = "abstract" then "abstract "
  else if label = "default" then "public "
  else ""

/-- Whether a modifier settles the access. -/
def isAccessWord (label : String) : Bool :=
  label == "public" || label == "private" || label == "protected" || label == "default"

/-- What a node in front of a name says in the signature. -/
def modifierText (t : Tree) (c : t.Id) : String :=
  if t.kind c == .modifier then modifierWord (t.label c) else ""

/-- Whether a node is a modifier that settles the access. -/
def isAccess (t : Tree) (c : t.Id) : Bool := t.kind c == .modifier && isAccessWord (t.label c)

namespace MethodLayout

variable {method : t.Id} (m : MethodLayout t method)

/-- The modifiers that a signature shows. -/
def modifiers : String := String.join (m.front.map t.modifierText)

/-- The access that goes without saying. -/
def access : String :=
  if m.front.any t.isAccess then "" else if m.body.isSome then "package " else "public "

/-- The parameters, separated by commas. -/
def parameterList : String := ", ".intercalate (m.parameters.map t.parameterText)

/-- The signature up to the end of the parameters. -/
def head : String :=
  m.access ++ m.modifiers ++ t.label m.name ++ "(" ++ m.parameterList ++ ")"

/-- The type that is shown as the return type: the first that is thrown takes its place where
    nothing tells them apart. -/
def shownType? : Option t.Id :=
  m.returnType.or (if m.parameters.isEmpty || m.body.isNone then m.thrown.head? else none)

/-- The signature after the parameters. -/
def tail : String :=
  match m.shownType? with
  | some c => " : " ++ t.displayLabel c
  | none => ""

end MethodLayout

/-! ## 2. The pass, part by part -/

namespace MethodParts

variable (p : MethodParts)

theorem seeModifier_eq_word (label : String) :
    p.seeModifier label =
      { p with
        text := p.text ++ modifierWord label
        accessFound := p.accessFound || isAccessWord label } := by
  unfold seeModifier modifierWord
  by_cases hpublic : label = "public"
  · subst hpublic
    simp [isAccessWord, String.append_assoc]
  by_cases hprivate : label = "private"
  · subst hprivate
    simp [isAccessWord, String.append_assoc]
  by_cases hprotected : label = "protected"
  · subst hprotected
    simp [isAccessWord, String.append_assoc]
  by_cases habstract : label = "abstract"
  · subst habstract
    simp [isAccessWord]
  by_cases hdefault : label = "default"
  · subst hdefault
    simp [isAccessWord]
  have hother : isAccessWord label = false := by
    simp [isAccessWord, hpublic, hprivate, hprotected, hdefault]
  simp [hpublic, hprivate, hprotected, habstract, hdefault, hother]

/-- **One step** in front of the name. -/
theorem see_front {c : t.Id} (htype : t.isType c = false) (hname : t.kind c ≠ .simpleName)
    (hparam : t.kind c ≠ .singleVariableDeclaration) (hbody : t.kind c ≠ .block)
    (next : Option t.Id) :
    p.see t c next =
      { p with
        text := p.text ++ t.modifierText c
        accessFound := p.accessFound || t.isAccess c } := by
  unfold see modifierText isAccess
  rw [beq_false_of_ne hname, beq_false_of_ne hparam, beq_false_of_ne hbody, htype]
  by_cases hmodifier : t.kind c = .modifier
  · simp [hmodifier, seeModifier_eq_word]
  · simp [beq_false_of_ne hmodifier]

/-- **In front of the name**, modifiers are added and the access is noted. -/
theorem seeAll_front {front : List t.Id} (h : ∀ c ∈ front, t.isType c = false ∧
      t.kind c ≠ .simpleName ∧ t.kind c ≠ .singleVariableDeclaration ∧ t.kind c ≠ .block)
    (rest : List t.Id) :
    p.seeAll t (front ++ rest) =
      { p with
        text := p.text ++ String.join (front.map t.modifierText)
        accessFound := p.accessFound || front.any t.isAccess }.seeAll t rest := by
  induction front generalizing p with
  | nil => simp
  | cons c front ih =>
    obtain ⟨⟨htype, hname, hparam, hbody⟩, hfront⟩ := List.forall_mem_cons.1 h
    rw [List.cons_append, seeAll, p.see_front htype hname hparam hbody, ih _ hfront,
      List.map_cons, String.join_cons, List.any_cons, String.append_assoc, Bool.or_assoc]

theorem seeAll_name {c : t.Id} (h : t.kind c = .simpleName) (rest : List t.Id) :
    p.seeAll t (c :: rest) = { p with text := p.text ++ t.label c ++ "(" }.seeAll t rest := by
  have hsee : p.see t c rest.head? = { p with text := p.text ++ t.label c ++ "(" } := by
    simp [see, h]
  rw [seeAll, hsee]

/-- **One step** along the parameters: a comma follows when a parameter does. -/
theorem see_parameter {c : t.Id} (h : t.kind c = .singleVariableDeclaration)
    (next : Option t.Id) :
    p.see t c next =
      { p with
        text := p.text ++ (t.parameterText c ++
          if next.map t.kind = some .singleVariableDeclaration then ", " else "")
        paramFound := true } := by
  have htype : t.isType c = false := by
    rw [isType, h]
    rfl
  simp [see, h, htype, String.append_assoc]

/-- **The parameters** are added with commas between them. -/
theorem seeAll_parameters {ps : List t.Id} (h : ∀ c ∈ ps, t.kind c = .singleVariableDeclaration)
    {rest : List t.Id} (hrest : rest.head?.map t.kind ≠ some .singleVariableDeclaration) :
    p.seeAll t (ps ++ rest) =
      { p with
        text := p.text ++ ", ".intercalate (ps.map t.parameterText)
        paramFound := p.paramFound || !ps.isEmpty }.seeAll t rest := by
  induction ps generalizing p with
  | nil => simp
  | cons c ps ih =>
    obtain ⟨hc, hps⟩ := List.forall_mem_cons.1 h
    rw [List.cons_append, seeAll, p.see_parameter hc, ih _ hps]
    -- the last parameter has no comma, and no other looks past the next one
    cases ps with
    | nil =>
      rw [List.nil_append, if_neg hrest]
      simp
    | cons d ps =>
      have hd : t.kind d = .singleVariableDeclaration := hps d List.mem_cons_self
      have hnext : ((d :: ps) ++ rest).head?.map t.kind = some .singleVariableDeclaration := by
        rw [List.cons_append, List.head?_cons, Option.map_some, hd]
      rw [if_pos hnext]
      simp [String.append_assoc]

/-- **Of the types** the first counts, as what is returned or, after a parameter, as what stands
    behind it. -/
theorem seeAll_types {ts : List t.Id} (h : ∀ c ∈ ts, t.isType c = true) (rest : List t.Id) :
    p.seeAll t (ts ++ rest) =
      (if p.paramFound then
        { p with trailingType := p.trailingType.or (ts.head?.map t.displayLabel) }
      else
        { p with returnType := p.returnType.or (ts.head?.map t.displayLabel) }).seeAll t rest := by
  induction ts generalizing p with
  | nil => simp
  | cons c ts ih =>
    obtain ⟨hc, hts⟩ := List.forall_mem_cons.1 h
    rw [List.cons_append, seeAll, p.see_of_isType hc, ih _ hts]
    cases hparam : p.paramFound with
    | true => simp
    | false => simp

theorem seeAll_body {body : Option t.Id} (h : ∀ c ∈ body, t.kind c = .block) :
    p.seeAll t body.toList = { p with bodyFound := p.bodyFound || body.isSome } := by
  cases body with
  | none => simp [seeAll]
  | some c =>
    have hc : t.kind c = .block := h c rfl
    have htype : t.isType c = false := by
      rw [isType, hc]
      rfl
    simp [seeAll, see, hc, htype]

end MethodParts

/-! ## 3. Whole declarations -/

namespace MethodLayout

variable {method : t.Id} (m : MethodLayout t method)

/-- No parameter follows the last one. -/
theorem head?_after_parameters :
    (m.thrown ++ m.body.toList).head?.map t.kind ≠ some .singleVariableDeclaration := by
  intro h
  obtain ⟨c, hc, hkind⟩ := Option.map_eq_some_iff.1 h
  rcases List.mem_append.1 (List.mem_of_mem_head? hc) with hthrown | hbody
  · have htype := m.thrown_spec c hthrown
    rw [isType, hkind] at htype
    cases htype
  · have hblock := m.body_spec c (Option.mem_toList.1 hbody)
    rw [hkind] at hblock
    cases hblock

/-- **What the pass has seen in the end.** -/
theorem seeAll_children :
    MethodParts.empty.seeAll t (t.children method) =
      { text := m.modifiers ++ t.label m.name ++ "(" ++ m.parameterList
        returnType := (m.returnType.or
          (if m.parameters.isEmpty then m.thrown.head? else none)).map t.displayLabel
        trailingType := (if m.parameters.isEmpty then none else m.thrown.head?).map t.displayLabel
        accessFound := m.front.any t.isAccess
        bodyFound := m.body.isSome
        paramFound := !m.parameters.isEmpty } := by
  have hreturn : ∀ c ∈ m.returnType.toList, t.isType c = true := fun c hc =>
    m.returnType_spec c (Option.mem_toList.1 hc)
  rw [m.children_eq, MethodParts.seeAll_front _ m.front_spec, MethodParts.seeAll_types _ hreturn,
    MethodParts.seeAll_name _ m.name_spec,
    MethodParts.seeAll_parameters _ m.parameters_spec m.head?_after_parameters,
    MethodParts.seeAll_types _ m.thrown_spec, MethodParts.seeAll_body _ m.body_spec]
  cases hparams : m.parameters.isEmpty with
  | true => simp [MethodParts.empty, modifiers, parameterList, Option.map_or]
  | false => simp [MethodParts.empty, modifiers, parameterList]

theorem result?_seeAll_children :
    (MethodParts.empty.seeAll t (t.children method)).result? = m.shownType?.map t.displayLabel := by
  rw [m.seeAll_children, MethodParts.result?, shownType?]
  cases m.returnType with
  | some c => rfl
  | none =>
    -- without a return type, a thrown type fills its place unless it stands after a parameter
    -- and in front of a body
    cases m.parameters.isEmpty with
    | true => cases m.thrown.head? <;> simp
    | false => cases m.body <;> simp

/-- **The signature of a declaration, part by part.** -/
theorem methodSignature_of_layout : t.methodSignature method = m.head ++ m.tail := by
  have hhead : (MethodParts.empty.seeAll t (t.children method)).impliedAccess ++
      (MethodParts.empty.seeAll t (t.children method)).text ++ ")" = m.head := by
    rw [MethodParts.impliedAccess, m.seeAll_children, head, access]
    simp only [String.append_assoc]
  rw [methodSignature, MethodParts.render, hhead, m.result?_seeAll_children, tail]
  cases m.shownType? with
  | some c => rfl
  | none => rfl

end MethodLayout

/-! ## 4. Parameters -/

/-- The nodes that say what a parameter is: its children, and those of a declaration among them. -/
def parameterNodes (t : Tree) (param : t.Id) : List t.Id :=
  (t.children param).flatMap fun c =>
    c :: if t.kind c == .singleVariableDeclaration then t.children c else []

/-- The label of the last simple name. -/
def lastName (t : Tree) (ns : List t.Id) : String :=
  ((ns.filter fun n => t.kind n == .simpleName).getLast?.map t.label).getD ""

/-- The label of the last type. -/
def lastType (t : Tree) (ns : List t.Id) : String :=
  ((ns.filter t.isType).getLast?.map t.displayLabel).getD ""

/-- Whatever passes the test takes the place of what came before: the last one stays. -/
theorem foldl_last {α : Type} (test : α → Bool) (value : α → String) (ns : List α)
    (start : String) :
    ns.foldl (fun kept n => if test n then value n else kept) start =
      ((ns.filter test).getLast?.map value).getD start := by
  induction ns generalizing start with
  | nil => rfl
  | cons n ns ih =>
    rw [List.foldl_cons, ih]
    cases hn : test n with
    | true =>
      rw [if_pos rfl, List.filter_cons_of_pos hn, List.getLast?_cons]
      cases (ns.filter test).getLast? <;> rfl
    | false => rw [if_neg Bool.false_ne_true, List.filter_cons_of_neg (by rw [hn]; decide)]

theorem parameterParts_eq_foldl (param : t.Id) :
    t.parameterParts param =
      (t.parameterNodes param).foldl (fun parts n => parts.see t n) ⟨"", ""⟩ := by
  rw [parameterParts, parameterNodes, List.foldl_flatMap]
  congr 1
  funext parts c
  cases hc : t.kind c == .singleVariableDeclaration with
  | true => simp
  | false => simp

/-- **A parameter shows its last name and its last type.** -/
theorem parameterText_eq (param : t.Id) :
    t.parameterText param =
      t.lastName (t.parameterNodes param) ++ " " ++ t.lastType (t.parameterNodes param) := by
  have hname : (t.parameterParts param).name = t.lastName (t.parameterNodes param) := by
    rw [parameterParts_eq_foldl, lastName, ← foldl_last]
    exact (List.foldl_hom ParameterParts.name fun _ _ => rfl).symm
  have htype : (t.parameterParts param).type = t.lastType (t.parameterNodes param) := by
    rw [parameterParts_eq_foldl, lastType, ← foldl_last]
    exact (List.foldl_hom ParameterParts.type fun _ _ => rfl).symm
  rw [parameterText, hname, htype]
  rfl

/-- A parameter with one name, one type and no declaration nested in it. -/
structure IsPlainParameter (t : Tree) (param name type : t.Id) : Prop where
  names : (t.children param).filter (fun c => t.kind c == .simpleName) = [name]
  types : (t.children param).filter t.isType = [type]
  flat : ∀ c ∈ t.children param, t.kind c ≠ .singleVariableDeclaration

namespace IsPlainParameter

variable {param name type : t.Id}

theorem parameterNodes_eq (h : t.IsPlainParameter param name type) :
    t.parameterNodes param = t.children param := by
  have hnodes : ∀ c ∈ t.children param,
      (c :: if t.kind c == .singleVariableDeclaration then t.children c else []) = [c] := by
    intro c hc
    rw [beq_false_of_ne (h.flat c hc)]
    rfl
  rw [parameterNodes, List.flatMap_def, List.map_congr_left hnodes, ← List.flatMap_def,
    List.flatMap_singleton']

/-- What a signature shows of a plain parameter. -/
theorem parameterText_eq (h : t.IsPlainParameter param name type) :
    t.parameterText param = t.label name ++ " " ++ t.displayLabel type := by
  rw [Tree.parameterText_eq, h.parameterNodes_eq, lastName, lastType, h.names, h.types]
  rfl

/-- The first name and the first type are the same as the last. -/
theorem variableSignature?_eq (h : t.IsPlainParameter param name type)
    (hkind : t.kind param = .singleVariableDeclaration) :
    t.variableSignature? param = some (t.label name ++ " : " ++ t.displayLabel type) := by
  have hname : t.childOfKind? param .simpleName = some name := by
    rw [childOfKind?, ← List.head?_filter, h.names, List.head?_cons]
  have htype : t.typeChild? param = some type := by
    rw [typeChild?, ← List.head?_filter, h.types, List.head?_cons]
  rw [variableSignature?, hkind]
  dsimp only
  rw [hname, htype]
  rfl

end IsPlainParameter

/-! ## 5. Methods and constructors -/

/-- **The signature of a declaration with a return type** shows the access and the modifiers, the
    name, the parameters and that type; what it throws leaves no trace. A parameter is shown by its
    last name and its last type, and a plain one by the name and the type that its own signature
    has. -/
theorem declaration_signature (t : Tree) (method result : t.Id) (m : MethodLayout t method)
    (h : m.returnType = some result) :
    t.methodSignature method = m.access ++ m.modifiers ++ t.label m.name ++ "(" ++
      m.parameterList ++ ") : " ++ t.displayLabel result ∧
    ∀ param ∈ m.parameters,
      t.parameterText param = t.lastName (t.parameterNodes param) ++ " " ++
        t.lastType (t.parameterNodes param) ∧
      ∀ name type, t.IsPlainParameter param name type →
        t.parameterText param = t.label name ++ " " ++ t.displayLabel type ∧
        t.variableSignature? param = some (t.label name ++ " : " ++ t.displayLabel type) := by
  have htail : m.tail = " : " ++ t.displayLabel result := by
    rw [MethodLayout.tail, MethodLayout.shownType?, h]
    rfl
  have hclose : ") : " = ")" ++ " : " := rfl
  refine ⟨?_, fun param hparam => ⟨t.parameterText_eq param, fun name type hplain => ?_⟩⟩
  · rw [m.methodSignature_of_layout, htail, MethodLayout.head, hclose]
    simp only [String.append_assoc]
  · exact ⟨hplain.parameterText_eq, hplain.variableSignature?_eq (m.parameters_spec param hparam)⟩

/-- A public method with two parameters that throws something. -/
def plainMethod : Tree :=
  (TreeDocument.mk "public int f(int a, L b) throws E \x7b\x7d"
    (.node .methodDeclaration "" 0 36 [.node .modifier "public" 0 6 [],
      .node .primitiveType "int" 7 3 [], .node .simpleName "f" 11 1 [],
      .node .singleVariableDeclaration "" 13 5
        [.node .primitiveType "int" 13 3 [], .node .simpleName "a" 17 1 []],
      .node .singleVariableDeclaration "" 20 3
        [.node .simpleType "L" 20 1 [], .node .simpleName "b" 22 1 []],
      .node .simpleType "E" 32 1 [], .node .block "" 34 2 []])).load.toOption.get
    (by decide +kernel)

/-- The nodes of the method by their numbers. -/
def plainMethod.node (k : Fin 12) : plainMethod.Id := k.cast (by decide +kernel)

/-- The parts of the method. -/
def plainMethod.layout : MethodLayout plainMethod plainMethod.root where
  front := [node 1]
  returnType := some (node 2)
  name := node 3
  parameters := [node 4, node 7]
  thrown := [node 10]
  body := some (node 11)
  children_eq := by decide +kernel
  front_spec := by decide +kernel
  returnType_spec := by decide +kernel
  name_spec := by decide +kernel
  parameters_spec := by decide +kernel
  thrown_spec := by decide +kernel
  body_spec := by decide +kernel

theorem declaration_signature_plainMethod :
    ∃ result, plainMethod.layout.returnType = some result ∧
      plainMethod.methodSignature plainMethod.root = "public f(a int, b L) : int" ∧
      ∃ param ∈ plainMethod.layout.parameters, ∃ name type,
        plainMethod.IsPlainParameter param name type ∧
        plainMethod.parameterText param = "a int" ∧
        plainMethod.variableSignature? param = some "a : int" := by
  let result := plainMethod.node 2
  let param := plainMethod.node 4
  let type := plainMethod.node 5
  let name := plainMethod.node 6
  obtain ⟨hsignature, hparams⟩ :=
    declaration_signature plainMethod plainMethod.root result plainMethod.layout rfl
  have hplain : plainMethod.IsPlainParameter param name type :=
    ⟨by decide +kernel, by decide +kernel, by decide +kernel⟩
  have hparam : param ∈ plainMethod.layout.parameters := List.mem_cons_self
  obtain ⟨htext, hvariable⟩ := (hparams param hparam).2 name type hplain
  refine ⟨result, rfl, hsignature.trans ?_, param, hparam, name, type, hplain,
    htext.trans ?_, hvariable.trans ?_⟩
  · decide +kernel
  · decide +kernel
  · decide +kernel

/-- **A constructor shows no return type exactly when it has a parameter or throws nothing**: its
    signature then ends with the parenthesis that closes the parameters. Otherwise the first type
    that it throws is shown in place of a return type. -/
theorem constructor_signature (t : Tree) (method : t.Id) (m : MethodLayout t method)
    (hreturn : m.returnType = none) (hbody : m.body.isSome = true) :
    (t.methodSignature method = m.access ++ m.modifiers ++ t.label m.name ++ "(" ++
      m.parameterList ++ ")" ↔ m.parameters ≠ [] ∨ m.thrown = []) ∧
    ∀ first others, m.parameters = [] → m.thrown = first :: others →
      t.methodSignature method = m.access ++ m.modifiers ++ t.label m.name ++ "() : " ++
        t.displayLabel first := by
  have hshown : m.shownType? = if m.parameters.isEmpty then m.thrown.head? else none := by
    rw [MethodLayout.shownType?, hreturn, ← Option.not_isSome, hbody]
    simp
  rw [m.methodSignature_of_layout, MethodLayout.tail, hshown]
  refine ⟨?_, fun first others hparams hthrown => ?_⟩
  · rw [← MethodLayout.head]
    cases hparams : m.parameters with
    | cons param params => simp
    | nil =>
      cases hthrown : m.thrown with
      | nil => simp
      | cons first others =>
        -- a type that is shown makes the signature longer
        simp
  · have hnone : m.parameterList = "" := by
      rw [MethodLayout.parameterList, hparams]
      rfl
    have hopen : "() : " = "(" ++ "" ++ ")" ++ " : " := rfl
    rw [hparams, hthrown, MethodLayout.head, hnone, hopen]
    simp only [List.isEmpty_nil, if_true, List.head?_cons, String.append_assoc]

/-- A constructor with a parameter that throws something. -/
def oneParameter : Tree :=
  (TreeDocument.mk "A(int a) throws E \x7b\x7d"
    (.node .methodDeclaration "" 0 20 [.node .simpleName "A" 0 1 [],
      .node .singleVariableDeclaration "" 2 5
        [.node .primitiveType "int" 2 3 [], .node .simpleName "a" 6 1 []],
      .node .simpleType "E" 16 1 [], .node .block "" 18 2 []])).load.toOption.get
    (by decide +kernel)

/-- The nodes of the constructor by their numbers. -/
def oneParameter.node (k : Fin 7) : oneParameter.Id := k.cast (by decide +kernel)

/-- The parts of the constructor. -/
def oneParameter.layout : MethodLayout oneParameter oneParameter.root where
  front := []
  returnType := none
  name := node 1
  parameters := [node 2]
  thrown := [node 5]
  body := some (node 6)
  children_eq := by decide +kernel
  front_spec := by decide +kernel
  returnType_spec := by decide +kernel
  name_spec := by decide +kernel
  parameters_spec := by decide +kernel
  thrown_spec := by decide +kernel
  body_spec := by decide +kernel

/-- A class whose constructor has no parameter and throws something. -/
def failingConstructor : Tree :=
  (TreeDocument.mk "class A \x7b A() throws Error \x7b\x7d \x7d"
    (.node .compilationUnit "" 0 31 [.node .typeDeclaration "" 0 31
      [.node .simpleName "A" 6 1 [], .node .methodDeclaration "" 10 19
        [.node .simpleName "A" 10 1 [],
          .node .simpleType "" 21 5 [.node .simpleName "Error" 21 5 []],
          .node .block "" 27 2 []]]])).load.toOption.get
    (by decide +kernel)

/-- The nodes of the class by their numbers. -/
def failingConstructor.node (k : Fin 8) : failingConstructor.Id := k.cast (by decide +kernel)

/-- The constructor. -/
def failingConstructor.method : failingConstructor.Id := failingConstructor.node 3

/-- The parts of the constructor. -/
def failingConstructor.layout : MethodLayout failingConstructor failingConstructor.method where
  front := []
  returnType := none
  name := node 4
  parameters := []
  thrown := [node 5]
  body := some (node 7)
  children_eq := by decide +kernel
  front_spec := by decide +kernel
  returnType_spec := by decide +kernel
  name_spec := by decide +kernel
  parameters_spec := by decide +kernel
  thrown_spec := by decide +kernel
  body_spec := by decide +kernel

theorem constructor_signature_twoConstructors :
    (oneParameter.layout.returnType = none ∧ oneParameter.layout.body.isSome = true ∧
      oneParameter.layout.parameters ≠ [] ∧
      oneParameter.methodSignature oneParameter.root = "package A(a int)") ∧
    failingConstructor.layout.returnType = none ∧ failingConstructor.layout.body.isSome = true ∧
      failingConstructor.layout.parameters = [] ∧ failingConstructor.layout.thrown ≠ [] ∧
      failingConstructor.methodSignature failingConstructor.method = "package A() : Error" := by
  have hclosed := (constructor_signature _ _ oneParameter.layout rfl rfl).1.2
    (.inl (List.cons_ne_nil _ _))
  have hshown := (constructor_signature _ _ failingConstructor.layout rfl rfl).2 _ _ rfl rfl
  refine ⟨⟨rfl, rfl, List.cons_ne_nil _ _, hclosed.trans ?_⟩, rfl, rfl, rfl,
    List.cons_ne_nil _ _, hshown.trans ?_⟩
  · decide +kernel
  · decide +kernel

/-- **A constructor that shows a return type**: what it throws, since no parameter stands before
    it. -/
theorem returnType_in_failingConstructor :
    ∃ m : MethodLayout failingConstructor failingConstructor.method,
      failingConstructor.kind failingConstructor.method = .methodDeclaration ∧
      m.returnType = none ∧ m.body.isSome = true ∧
      failingConstructor.methodSignature failingConstructor.method = "package A() : Error" ∧
      ¬∃ front, failingConstructor.methodSignature failingConstructor.method = front ++ ")" := by
  have hsignature :
      failingConstructor.methodSignature failingConstructor.method = "package A() : Error" := by
    decide +kernel
  refine ⟨failingConstructor.layout, by decide +kernel, rfl, rfl, hsignature, ?_⟩
  intro hends
  obtain ⟨front, hfront⟩ := hends
  have hlast := congrArg (fun text : String => text.toList.getLast?) (hsignature.symm.trans hfront)
  simp at hlast

end Recast.Tree
