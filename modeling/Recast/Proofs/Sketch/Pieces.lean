import Recast.Proofs.Fault
import Recast.Sketch.Declaration

/-!
# What is drawn into a sketch

Every operation on a sketch adds one node below a given parent and, for a type or a declaration,
the nodes of its parts below that. What these are depends on the snippet alone: it is a *piece*, a
small tree of snippets, and the operation draws it from the top down and from left to right.

* `Piece`, `Sketch.addPiece`: a piece, and how it is drawn;
* `typePiece`, `packagePiece`, `classPiece?`, `variablePiece?`, `parameterPiece?`, `methodPiece?`,
  `forEachPiece?`: the pieces of types and declarations;
* `SketchOp`: the operations, with `SketchOp.run` and `SketchOp.piece?`;
* `SketchOp.run_eq_ok`: **an operation that succeeds has drawn its piece.**
-/

namespace Recast

/-! ## 1. Pieces -/

/-- What a node is added as. -/
structure Request where
  kind : Kind
  label : String
  snippet : List Char

/-- A node to be added, with the nodes to be added below it. -/
inductive Piece where
  | node (request : Request) (parts : List Piece)

namespace Piece

/-- A node without a label. -/
def plain (kind : Kind) (snippet : List Char) (parts : List Piece) : Piece :=
  .node ⟨kind, "", snippet⟩ parts

/-- A node whose label is its own text. -/
def leaf (kind : Kind) (text : List Char) : Piece := .node ⟨kind, String.ofList text, text⟩ []

mutual

/-- The nodes of a piece, in the order in which they are added. -/
def requests : Piece → List Request
  | .node request parts => request :: requestsAll parts

/-- The nodes of some pieces. -/
def requestsAll : List Piece → List Request
  | [] => []
  | p :: ps => p.requests ++ requestsAll ps

end

end Piece

namespace Sketch

mutual

/-- Draws a piece below a node. -/
def addPiece (s : Sketch) (parent : Nat) : Piece → Except SketchError Sketch
  | .node request parts => do
    let (id, s) ← s.add parent request.kind request.label request.snippet
    addPieces s id parts

/-- Draws pieces below a node, one after the other. -/
def addPieces (s : Sketch) (parent : Nat) : List Piece → Except SketchError Sketch
  | [] => .ok s
  | p :: ps => do addPieces (← s.addPiece parent p) parent ps

end

variable {s s' : Sketch} {parent : Nat}

theorem addPieces_nil : s.addPieces parent [] = .ok s := by
  rw [addPieces]

theorem addPieces_cons {p : Piece} {ps : List Piece} : s.addPieces parent (p :: ps) = .ok s' ↔
    ∃ s₁, s.addPiece parent p = .ok s₁ ∧ s₁.addPieces parent ps = .ok s' := by
  rw [addPieces, bind_eq_ok]

theorem addPieces_append {ps qs : List Piece} {s₁ : Sketch}
    (hps : s.addPieces parent ps = .ok s₁) (hqs : s₁.addPieces parent qs = .ok s') :
    s.addPieces parent (ps ++ qs) = .ok s' := by
  induction ps generalizing s with
  | nil =>
    rw [addPieces_nil] at hps
    cases hps
    exact hqs
  | cons p ps ih =>
    obtain ⟨s₂, hp, hps⟩ := addPieces_cons.1 hps
    exact addPieces_cons.2 ⟨s₂, hp, ih hps⟩

theorem addPieces_singleton {p : Piece} (h : s.addPiece parent p = .ok s') :
    s.addPieces parent [p] = .ok s' := addPieces_cons.2 ⟨s', h, addPieces_nil⟩

end Sketch

/-! ## 2. Series of additions -/

namespace SketchM

variable {α β : Type} {s s' : Sketch} {parent : Nat}

/-- Peels the first step off a series that succeeds. -/
theorem bind_apply_eq_ok {m : SketchM α} {f : α → SketchM β} {b : β} :
    (m >>= f) s = .ok (b, s') ↔ ∃ a s₁, m s = .ok (a, s₁) ∧ f a s₁ = .ok (b, s') := by
  show m s >>= (fun p => f p.1 p.2) = .ok (b, s') ↔ _
  rw [bind_eq_ok, Prod.exists]

theorem pure_apply_eq_ok {a b : α} :
    (pure a : SketchM α) s = .ok (b, s') ↔ a = b ∧ s = s' := by
  show Except.ok (a, s) = .ok (b, s') ↔ _
  rw [Except.ok.injEq, Prod.mk.injEq]

theorem map_apply_eq_ok {f : α → β} {m : SketchM α} {b : β} :
    (f <$> m) s = .ok (b, s') ↔ ∃ a, m s = .ok (a, s') ∧ f a = b := by
  rw [map_eq_pure_bind, bind_apply_eq_ok]
  constructor
  · rintro ⟨a, s₁, hm, h⟩
    obtain ⟨hb, rfl⟩ := pure_apply_eq_ok.1 h
    exact ⟨a, hm, hb⟩
  · rintro ⟨a, hm, hb⟩
    exact ⟨a, s', hm, pure_apply_eq_ok.2 ⟨hb, rfl⟩⟩

theorem lift_apply_eq_ok {r : Except SketchError α} {a : α} :
    lift r s = .ok (a, s') ↔ r = .ok a ∧ s = s' := by
  rw [lift, map_eq_ok]
  constructor
  · rintro ⟨b, hb, hp⟩
    cases hp
    exact ⟨hb, rfl⟩
  · rintro ⟨ha, rfl⟩
    exact ⟨a, ha, rfl⟩

/-- The sketch after a series, whatever nodes it reports. -/
def sketch {α : Type} (m : SketchM α) (s : Sketch) : Except SketchError Sketch :=
  (m s).map Prod.snd

theorem sketch_eq_ok {m : SketchM α} : m.sketch s = .ok s' ↔ ∃ a, m s = .ok (a, s') := by
  rw [sketch, map_eq_ok, Prod.exists]
  refine exists_congr fun a => ?_
  constructor
  · rintro ⟨_, h, rfl⟩
    exact h
  · intro h
    exact ⟨s', h, rfl⟩

theorem sketch_pure {a : α} : (pure a : SketchM α).sketch s = .ok s := rfl

theorem sketch_bind {m : SketchM α} {f : α → SketchM β} :
    (m >>= f).sketch s = m s >>= fun p => (f p.1).sketch p.2 := by
  show (m s >>= fun p => f p.1 p.2).map Prod.snd = _
  cases m s <;> rfl

/-- A step whose answer is not used. -/
theorem sketch_bind_const {m : SketchM α} {k : SketchM β} :
    (m >>= fun _ => k).sketch s = m.sketch s >>= k.sketch := by
  rw [sketch_bind, sketch]
  cases m s <;> rfl

/-- A node is a piece without parts. -/
theorem sketch_labeled {kind : Kind} {label : String} {snippet : List Char} :
    (labeled parent kind label snippet).sketch s =
      s.addPiece parent (.node ⟨kind, label, snippet⟩ []) := by
  rw [sketch, Sketch.addPiece]
  show (s.add parent kind label snippet).map Prod.snd = _
  cases s.add parent kind label snippet with
  | error e => rfl
  | ok p =>
    show Except.ok p.2 = p.2.addPieces p.1 []
    rw [Sketch.addPieces_nil]

theorem sketch_leaf {kind : Kind} {text : List Char} :
    (leaf parent kind text).sketch s = s.addPiece parent (.leaf kind text) := sketch_labeled

/-- What is drawn below a node once it is there are its parts. -/
theorem sketch_node {kind : Kind} {snippet : List Char} {parts : List Piece} {m : Nat → SketchM α}
    (h : ∀ id s, (m id).sketch s = s.addPieces id parts) :
    (node parent kind snippet >>= m).sketch s = s.addPiece parent (.plain kind snippet parts) := by
  rw [sketch_bind, Piece.plain, Sketch.addPiece]
  exact congrArg (s.add parent kind "" snippet >>= ·) (funext fun p => h p.1 p.2)

theorem addPiece_of_labeled {kind : Kind} {label : String} {snippet : List Char} {id : Nat}
    (h : labeled parent kind label snippet s = .ok (id, s')) :
    s.addPiece parent (.node ⟨kind, label, snippet⟩ []) = .ok s' := by
  rw [← sketch_labeled, sketch_eq_ok]
  exact ⟨id, h⟩

/-- What is drawn below a node that was just added are its parts. -/
theorem addPiece_of_node {kind : Kind} {snippet : List Char} {parts : List Piece} {id : Nat}
    {s₁ : Sketch} (h : node parent kind snippet s = .ok (id, s₁))
    (hparts : s₁.addPieces id parts = .ok s') :
    s.addPiece parent (.plain kind snippet parts) = .ok s' := by
  rw [Piece.plain, Sketch.addPiece, bind_eq_ok]
  exact ⟨(id, s₁), h, hparts⟩

theorem addPiece_of_leaf {kind : Kind} {text : List Char} {id : Nat}
    (h : leaf parent kind text s = .ok (id, s')) :
    s.addPiece parent (.leaf kind text) = .ok s' := addPiece_of_labeled h

theorem addPieces_of_leaves {kind : Kind} {texts : List (List Char)}
    (h : leaves parent kind texts s = .ok ((), s')) :
    s.addPieces parent (texts.map (.leaf kind)) = .ok s' := by
  induction texts generalizing s with
  | nil =>
    rw [leaves, pure_apply_eq_ok] at h
    rw [List.map_nil, Sketch.addPieces_nil, h.2]
  | cons t ts ih =>
    rw [leaves, bind_apply_eq_ok] at h
    obtain ⟨id, s₁, ht, hts⟩ := h
    exact Sketch.addPieces_cons.2 ⟨s₁, addPiece_of_leaf ht, ih hts⟩

end SketchM

/-! ## 3. Types -/

mutual

/-- The piece of a reference to a type. -/
def typePiece : TypeText → Piece
  | .array text element => .plain .arrayType text [typePiece element]
  | .generic text base arguments =>
    .plain .parameterizedType text (typePiece base :: typePieces arguments)
  | .wildcard text none => .plain .wildcardType text []
  | .wildcard text (some bound) => .plain .wildcardType text [typePiece bound]
  | .primitive text => .leaf .primitiveType text
  | .named text =>
    .plain .simpleType text
      [.leaf (if text.contains '.' then .qualifiedName else .simpleName) text]

/-- The pieces of references to types. -/
def typePieces : List TypeText → List Piece
  | [] => []
  | t :: ts => typePiece t :: typePieces ts

end

namespace SketchM

/-- A part drawn below the node that is then reported. -/
theorem sketch_part {m : SketchM Nat} {s : Sketch} {id : Nat} {p : Piece}
    (h : m.sketch s = s.addPiece id p) :
    (m >>= fun _ => pure id).sketch s = s.addPieces id [p] := by
  rw [sketch_bind_const, h, Sketch.addPieces]
  exact congrArg (s.addPiece id p >>= ·) (funext fun _ => Sketch.addPieces_nil.symm)

mutual

/-- **A reference to a type is drawn as its piece.** -/
theorem sketch_typeText : (t : TypeText) → (s : Sketch) → (parent : Nat) →
    (typeText parent t).sketch s = s.addPiece parent (typePiece t)
  | .array text element, s, parent => by
    rw [typeText, typePiece]
    exact sketch_node fun id s => sketch_part (sketch_typeText element s id)
  | .generic text base arguments, s, parent => by
    rw [typeText, typePiece]
    refine sketch_node fun id s => ?_
    rw [sketch_bind_const, sketch_typeText base s id, Sketch.addPieces]
    refine congrArg (s.addPiece id (typePiece base) >>= ·) (funext fun s => ?_)
    rw [sketch_bind_const, sketch_typeTexts arguments s id]
    exact bind_pure _
  | .wildcard text none, s, parent => by
    rw [typeText, typePiece]
    exact sketch_labeled
  | .wildcard text (some bound), s, parent => by
    rw [typeText, typePiece]
    exact sketch_node fun id s => sketch_part (sketch_typeText bound s id)
  | .primitive text, s, parent => by
    rw [typeText, typePiece]
    exact sketch_leaf
  | .named text, s, parent => by
    rw [typeText, typePiece]
    refine sketch_node fun id s => ?_
    by_cases hdot : text.contains '.' = true
    · rw [if_pos hdot, if_pos hdot]
      exact sketch_part sketch_leaf
    · rw [if_neg hdot, if_neg hdot]
      exact sketch_part sketch_leaf

theorem sketch_typeTexts : (ts : List TypeText) → (s : Sketch) → (parent : Nat) →
    (typeTexts parent ts).sketch s = s.addPieces parent (typePieces ts)
  | [], s, parent => by
    rw [typeTexts, typePieces, Sketch.addPieces_nil, sketch_pure]
  | t :: ts, s, parent => by
    rw [typeTexts, typePieces, sketch_bind_const, sketch_typeText t s parent, Sketch.addPieces]
    exact congrArg (s.addPiece parent (typePiece t) >>= ·)
      (funext fun s => sketch_typeTexts ts s parent)

end

theorem addPiece_of_type {s s' : Sketch} {parent id : Nat} {text : List Char}
    (h : type parent text s = .ok (id, s')) :
    s.addPiece parent (typePiece (.ofChars text)) = .ok s' := by
  rw [← sketch_typeText]
  exact sketch_eq_ok.2 ⟨id, h⟩

end SketchM

/-! ## 4. Declarations -/

/-- The piece of a package declaration. -/
def packagePiece (text : List Char) : Piece :=
  .plain .packageDeclaration ("package ".toList ++ text ++ [';'])
    [.leaf (if text.contains '.' then .qualifiedName else .simpleName) text]

/-- The pieces of a class header up to the word that says what it is, and the word after that. -/
def headerPieces? : List (List Char) → Option (List Piece × List Char)
  | [] => none
  | word :: words =>
    if word = "class".toList ∨ word = "interface".toList then
      words.head?.map fun name => ([.leaf .typeDeclarationKind word], name)
    else (headerPieces? words).map fun (pieces, name) => (.leaf .modifier word :: pieces, name)

/-- The piece of a class or interface declaration, if it has a name. -/
def classPiece? (snippet : List Char) : Option Piece :=
  (headerPieces? (Text.words (Text.beforeChar '\x7b' snippet))).map fun (pieces, word) =>
    .plain .typeDeclaration snippet
      (pieces ++ [.leaf .simpleName (Text.beforeChar '<' word)])

/-- The piece of a declaration of one variable. -/
def variablePiece? (kind : Kind) (snippet : List Char) : Option Piece :=
  let statement := Text.dropEndWhile (· = ';') (Text.trimEnd snippet)
  let declarator := Text.trimEnd (Text.beforeChar '=' statement)
  (splitLastWord declarator).toOption.map fun (head, word) =>
    .plain kind snippet ((splitModifiers head).1.map (.leaf .modifier) ++
      [typePiece (.ofChars (splitModifiers head).2),
        .plain .variableDeclarationFragment
          (Text.trim (statement.drop (declarator.length - word.length)))
          [.leaf .simpleName word]])

/-- The piece of a parameter, or of the variable of a loop. -/
def parameterPiece? (snippet : List Char) : Option Piece :=
  (splitLastWord snippet).toOption.map fun (head, word) =>
    .plain .singleVariableDeclaration snippet
      [typePiece (.ofChars head), .leaf .simpleName word]

/-- The piece of a return type, which a constructor does not have. -/
def returnTypePieces (text : List Char) : List Piece :=
  if text.isEmpty then [] else [typePiece (.ofChars text)]

/-- The piece of a body, from what stands after the parameters. -/
def bodyPieces (tail : List Char) : List Piece :=
  match tail.dropWhile (· ≠ '\x7b') with
  | [] => []
  | block => [.plain .block (Text.trimEnd block) []]

/-- The piece of a method declaration. -/
def methodPiece? (snippet : List Char) : Option Piece := do
  let (front, rest) ← Text.splitAtChar? '(' snippet
  let (inside, tail) ← Text.splitAtChar? ')' rest
  let (head, word) ← (splitLastWord (Text.trimEnd front)).toOption
  let params ← (Text.splitTopLevel inside).mapM parameterPiece?
  return .plain .methodDeclaration snippet ((splitModifiers head).1.map (.leaf .modifier) ++
    (returnTypePieces (splitModifiers head).2 ++
      (.leaf .simpleName word :: (params ++ bodyPieces tail))))

/-- The piece of a loop over the elements of something. -/
def forEachPiece? (snippet : List Char) : Option Piece := do
  let (front, _) ← Text.splitAtChar? '(' snippet
  let (upToColon, _) ← Text.splitAtChar? ':' snippet
  let header ← (Text.cut snippet (Text.bytes front + 1) (Text.bytes upToColon)).toOption
  let param ← parameterPiece? (Text.trim header)
  return .plain .enhancedForStatement snippet [param]

namespace SketchM

variable {s s' : Sketch} {parent : Nat} {snippet : List Char}

theorem addPiece_of_package {text : List Char} {id : Nat}
    (h : package text s = .ok (id, s')) : s.addPiece 0 (packagePiece text) = .ok s' := by
  obtain ⟨decl, s₁, hdecl, h⟩ := bind_apply_eq_ok.1 h
  obtain ⟨_, s₂, hname, h⟩ := bind_apply_eq_ok.1 h
  obtain ⟨-, rfl⟩ := pure_apply_eq_ok.1 h
  exact addPiece_of_node hdecl (Sketch.addPieces_singleton (addPiece_of_leaf hname))

theorem addPieces_of_classHeader {words : List (List Char)} {name : List Char}
    (h : classHeader parent words s = .ok (some name, s')) :
    ∃ ps, headerPieces? words = some (ps, name) ∧ s.addPieces parent ps = .ok s' := by
  induction words generalizing s with
  | nil =>
    obtain ⟨hname, -⟩ := pure_apply_eq_ok.1 h
    cases hname
  | cons word words ih =>
    rw [classHeader] at h
    rw [headerPieces?]
    by_cases hword : word = "class".toList ∨ word = "interface".toList
    · rw [if_pos hword] at h ⊢
      obtain ⟨_, s₁, hkind, h⟩ := bind_apply_eq_ok.1 h
      obtain ⟨hname, rfl⟩ := pure_apply_eq_ok.1 h
      exact ⟨_, by rw [hname]; rfl, Sketch.addPieces_singleton (addPiece_of_leaf hkind)⟩
    · rw [if_neg hword] at h ⊢
      obtain ⟨_, s₁, hmodifier, h⟩ := bind_apply_eq_ok.1 h
      obtain ⟨ps, hps, hadd⟩ := ih h
      exact ⟨_, by rw [hps]; rfl, Sketch.addPieces_cons.2 ⟨s₁, addPiece_of_leaf hmodifier, hadd⟩⟩

theorem addPiece_of_classDecl {nodes : ClassNodes}
    (h : classDecl parent snippet s = .ok (nodes, s')) :
    ∃ p, classPiece? snippet = some p ∧ s.addPiece parent p = .ok s' := by
  obtain ⟨decl, s₁, hdecl, h⟩ := bind_apply_eq_ok.1 h
  obtain ⟨word, s₂, hheader, h⟩ := bind_apply_eq_ok.1 h
  cases word with
  | none => cases (lift_apply_eq_ok.1 h).1
  | some word =>
    obtain ⟨_, s₃, hname, h⟩ := bind_apply_eq_ok.1 h
    obtain ⟨-, rfl⟩ := pure_apply_eq_ok.1 h
    obtain ⟨ps, hps, hadd⟩ := addPieces_of_classHeader hheader
    refine ⟨_, by rw [classPiece?, hps]; rfl, addPiece_of_node hdecl ?_⟩
    exact Sketch.addPieces_append hadd (Sketch.addPieces_singleton (addPiece_of_leaf hname))

theorem addPiece_of_variableDecl {kind : Kind} {nodes : VariableNodes}
    (h : variableDecl parent kind snippet s = .ok (nodes, s')) :
    ∃ p, variablePiece? kind snippet = some p ∧ s.addPiece parent p = .ok s' := by
  obtain ⟨decl, s₁, hdecl, h⟩ := bind_apply_eq_ok.1 h
  obtain ⟨⟨head, word⟩, _, hlift, h⟩ := bind_apply_eq_ok.1 h
  obtain ⟨hsplit, rfl⟩ := lift_apply_eq_ok.1 hlift
  obtain ⟨_, s₂, hmodifiers, h⟩ := bind_apply_eq_ok.1 h
  obtain ⟨_, s₃, htype, h⟩ := bind_apply_eq_ok.1 h
  obtain ⟨fragment, s₄, hfragment, h⟩ := bind_apply_eq_ok.1 h
  obtain ⟨_, s₅, hname, h⟩ := bind_apply_eq_ok.1 h
  obtain ⟨-, rfl⟩ := pure_apply_eq_ok.1 h
  refine ⟨_, by rw [variablePiece?, hsplit]; rfl, addPiece_of_node hdecl ?_⟩
  refine Sketch.addPieces_append (addPieces_of_leaves hmodifiers) ?_
  refine Sketch.addPieces_cons.2 ⟨s₃, addPiece_of_type htype, Sketch.addPieces_singleton ?_⟩
  exact addPiece_of_node hfragment (Sketch.addPieces_singleton (addPiece_of_leaf hname))

theorem addPiece_of_parameter {nodes : ParameterNodes}
    (h : parameter parent snippet s = .ok (nodes, s')) :
    ∃ p, parameterPiece? snippet = some p ∧ s.addPiece parent p = .ok s' := by
  obtain ⟨decl, s₁, hdecl, h⟩ := bind_apply_eq_ok.1 h
  obtain ⟨⟨head, word⟩, _, hlift, h⟩ := bind_apply_eq_ok.1 h
  obtain ⟨hsplit, rfl⟩ := lift_apply_eq_ok.1 hlift
  obtain ⟨_, s₂, htype, h⟩ := bind_apply_eq_ok.1 h
  obtain ⟨_, s₃, hname, h⟩ := bind_apply_eq_ok.1 h
  obtain ⟨-, rfl⟩ := pure_apply_eq_ok.1 h
  refine ⟨_, by rw [parameterPiece?, hsplit]; rfl, addPiece_of_node hdecl ?_⟩
  exact Sketch.addPieces_cons.2
    ⟨s₂, addPiece_of_type htype, Sketch.addPieces_singleton (addPiece_of_leaf hname)⟩

theorem addPieces_of_parameters {snippets : List (List Char)} {nodes : List ParameterNodes}
    (h : parameters parent snippets s = .ok (nodes, s')) :
    ∃ ps, snippets.mapM parameterPiece? = some ps ∧ s.addPieces parent ps = .ok s' := by
  induction snippets generalizing s nodes with
  | nil =>
    obtain ⟨-, rfl⟩ := pure_apply_eq_ok.1 h
    exact ⟨[], rfl, Sketch.addPieces_nil⟩
  | cons snippet snippets ih =>
    obtain ⟨_, s₁, hparam, h⟩ := bind_apply_eq_ok.1 h
    obtain ⟨_, s₂, hrest, h⟩ := bind_apply_eq_ok.1 h
    obtain ⟨-, rfl⟩ := pure_apply_eq_ok.1 h
    obtain ⟨p, hp, hadd⟩ := addPiece_of_parameter hparam
    obtain ⟨ps, hps, hadds⟩ := ih hrest
    exact ⟨p :: ps, by rw [List.mapM_cons, hp, hps]; rfl, Sketch.addPieces_cons.2 ⟨s₁, hadd, hadds⟩⟩

theorem addPiece_of_forEach {nodes : Nat × ParameterNodes}
    (h : forEach parent snippet s = .ok (nodes, s')) :
    ∃ p, forEachPiece? snippet = some p ∧ s.addPiece parent p = .ok s' := by
  obtain ⟨statement, s₁, hstatement, h⟩ := bind_apply_eq_ok.1 h
  rw [forEachPiece?]
  cases hfront : Text.splitAtChar? '(' snippet with
  | none =>
    rw [hfront] at h
    cases (lift_apply_eq_ok.1 h).1
  | some front =>
    cases hcolon : Text.splitAtChar? ':' snippet with
    | none =>
      rw [hfront, hcolon] at h
      cases (lift_apply_eq_ok.1 h).1
    | some upToColon =>
      rw [hfront, hcolon] at h
      obtain ⟨header, _, hlift, h⟩ := bind_apply_eq_ok.1 h
      obtain ⟨hheader, rfl⟩ := lift_apply_eq_ok.1 hlift
      obtain ⟨_, s₂, hparam, h⟩ := bind_apply_eq_ok.1 h
      obtain ⟨-, rfl⟩ := pure_apply_eq_ok.1 h
      obtain ⟨p, hp, hadd⟩ := addPiece_of_parameter hparam
      rw [mapError_eq_ok] at hheader
      have hcut : (Text.cut snippet (Text.bytes front.1 + 1)
          (Text.bytes upToColon.1)).toOption = some header := by
        rw [hheader]
        rfl
      refine ⟨.plain .enhancedForStatement snippet [p], ?_,
        addPiece_of_node hstatement (Sketch.addPieces_singleton hadd)⟩
      simp only [Option.bind_eq_bind, Option.bind_some, hcut, hp]
      rfl

/-- What a method does once its return type is drawn, if it has one. -/
theorem addPieces_of_returnType {β : Type} {text : List Char} {f : Option Nat → SketchM β} {b : β}
    (h : (if text.isEmpty = true then pure none >>= f
      else some <$> type parent text >>= f) s = .ok (b, s')) :
    ∃ r s₁, s.addPieces parent (returnTypePieces text) = .ok s₁ ∧ f r s₁ = .ok (b, s') := by
  rw [returnTypePieces]
  by_cases htext : text.isEmpty = true
  · rw [if_pos htext] at h ⊢
    exact ⟨none, s, Sketch.addPieces_nil, h⟩
  · rw [if_neg htext] at h ⊢
    obtain ⟨r, s₁, hmap, h⟩ := bind_apply_eq_ok.1 h
    obtain ⟨id, htype, -⟩ := map_apply_eq_ok.1 hmap
    exact ⟨r, s₁, Sketch.addPieces_singleton (addPiece_of_type htype), h⟩

theorem addPiece_of_method {nodes : MethodNodes}
    (h : method parent snippet s = .ok (nodes, s')) :
    ∃ p, methodPiece? snippet = some p ∧ s.addPiece parent p = .ok s' := by
  obtain ⟨decl, s₁, hdecl, h⟩ := bind_apply_eq_ok.1 h
  rw [methodPiece?]
  cases hfront : Text.splitAtChar? '(' snippet with
  | none =>
    rw [hfront] at h
    cases (lift_apply_eq_ok.1 h).1
  | some front =>
    rw [hfront] at h
    obtain ⟨front, rest⟩ := front
    dsimp only at h
    cases hinside : Text.splitAtChar? ')' rest with
    | none =>
      rw [hinside] at h
      cases (lift_apply_eq_ok.1 h).1
    | some inside =>
      rw [hinside] at h
      obtain ⟨inside, tail⟩ := inside
      obtain ⟨⟨head, word⟩, _, hlift, h⟩ := bind_apply_eq_ok.1 h
      obtain ⟨hsplit, rfl⟩ := lift_apply_eq_ok.1 hlift
      obtain ⟨_, s₂, hmodifiers, h⟩ := bind_apply_eq_ok.1 h
      obtain ⟨_, s₃, htype, h⟩ := addPieces_of_returnType h
      obtain ⟨_, s₄, hname, h⟩ := bind_apply_eq_ok.1 h
      obtain ⟨_, s₅, hparams, h⟩ := bind_apply_eq_ok.1 h
      obtain ⟨ps, hps, hadds⟩ := addPieces_of_parameters hparams
      have hbody : s₅.addPieces decl (bodyPieces tail) = .ok s' := by
        rw [bodyPieces]
        cases hblock : tail.dropWhile (· ≠ '\x7b') with
        | nil =>
          rw [hblock] at h
          obtain ⟨-, rfl⟩ := pure_apply_eq_ok.1 h
          exact Sketch.addPieces_nil
        | cons c cs =>
          rw [hblock] at h
          obtain ⟨_, s₆, hmap, h⟩ := bind_apply_eq_ok.1 h
          obtain ⟨-, rfl⟩ := pure_apply_eq_ok.1 h
          obtain ⟨id, hnode, -⟩ := map_apply_eq_ok.1 hmap
          exact Sketch.addPieces_singleton (addPiece_of_node hnode Sketch.addPieces_nil)
      refine ⟨_, ?_, addPiece_of_node hdecl (Sketch.addPieces_append
        (addPieces_of_leaves hmodifiers) (Sketch.addPieces_append htype (Sketch.addPieces_cons.2
          ⟨s₄, addPiece_of_leaf hname, Sketch.addPieces_append hadds hbody⟩)))⟩
      have hword : (splitLastWord (Text.trimEnd front)).toOption = some (head, word) := by
        rw [hsplit]
        rfl
      simp only [Option.bind_eq_bind, Option.bind_some, hinside, hword, hps]
      rfl

end SketchM

/-! ## 5. Operations -/

/-- The operations on a sketch. -/
inductive SketchOp where
  | labeled (parent : Nat) (kind : Kind) (label : String) (snippet : List Char)
  | node (parent : Nat) (kind : Kind) (snippet : List Char)
  | leaf (parent : Nat) (kind : Kind) (text : List Char)
  | name (parent : Nat) (text : List Char)
  | type (parent : Nat) (text : List Char)
  | package (text : List Char)
  | classDecl (parent : Nat) (snippet : List Char)
  | field (parent : Nat) (snippet : List Char)
  | localVariable (parent : Nat) (snippet : List Char)
  | method (parent : Nat) (snippet : List Char)
  | parameter (parent : Nat) (snippet : List Char)
  | forEach (parent : Nat) (snippet : List Char)

namespace SketchOp

/-- The sketch after an operation. -/
def run (s : Sketch) : SketchOp → Except SketchError Sketch
  | .labeled parent kind label snippet => (SketchM.labeled parent kind label snippet).sketch s
  | .node parent kind snippet => (SketchM.node parent kind snippet).sketch s
  | .leaf parent kind text => (SketchM.leaf parent kind text).sketch s
  | .name parent text => (SketchM.name parent text).sketch s
  | .type parent text => (SketchM.type parent text).sketch s
  | .package text => (SketchM.package text).sketch s
  | .classDecl parent snippet => (SketchM.classDecl parent snippet).sketch s
  | .field parent snippet => (SketchM.field parent snippet).sketch s
  | .localVariable parent snippet => (SketchM.localVariable parent snippet).sketch s
  | .method parent snippet => (SketchM.method parent snippet).sketch s
  | .parameter parent snippet => (SketchM.parameter parent snippet).sketch s
  | .forEach parent snippet => (SketchM.forEach parent snippet).sketch s

/-- The node below which an operation draws. -/
def parent : SketchOp → Nat
  | .package _ => 0
  | .labeled parent _ _ _ | .node parent _ _ | .leaf parent _ _ | .name parent _ | .type parent _
  | .classDecl parent _ | .field parent _ | .localVariable parent _ | .method parent _
  | .parameter parent _ | .forEach parent _ => parent

/-- The piece an operation draws; `none` for a declaration that cannot be taken apart. -/
def piece? : SketchOp → Option Piece
  | .labeled _ kind label snippet => some (.node ⟨kind, label, snippet⟩ [])
  | .node _ kind snippet => some (.plain kind snippet [])
  | .leaf _ kind text => some (.leaf kind text)
  | .name _ text => some (.leaf .simpleName text)
  | .type _ text => some (typePiece (.ofChars text))
  | .package text => some (packagePiece text)
  | .classDecl _ snippet => classPiece? snippet
  | .field _ snippet => variablePiece? .fieldDeclaration snippet
  | .localVariable _ snippet => variablePiece? .variableDeclarationStatement snippet
  | .method _ snippet => methodPiece? snippet
  | .parameter _ snippet => parameterPiece? snippet
  | .forEach _ snippet => forEachPiece? snippet

/-- **An operation that succeeds has drawn its piece.** -/
theorem run_eq_ok {op : SketchOp} {s s' : Sketch} (h : op.run s = .ok s') :
    ∃ p, op.piece? = some p ∧ s.addPiece op.parent p = .ok s' := by
  cases op with
  | labeled parent kind label snippet =>
    obtain ⟨id, hrun⟩ := SketchM.sketch_eq_ok.1 h
    exact ⟨_, rfl, SketchM.addPiece_of_labeled hrun⟩
  | node parent kind snippet =>
    obtain ⟨id, hrun⟩ := SketchM.sketch_eq_ok.1 h
    exact ⟨_, rfl, SketchM.addPiece_of_node hrun Sketch.addPieces_nil⟩
  | leaf parent kind text =>
    obtain ⟨id, hrun⟩ := SketchM.sketch_eq_ok.1 h
    exact ⟨_, rfl, SketchM.addPiece_of_leaf hrun⟩
  | name parent text =>
    obtain ⟨id, hrun⟩ := SketchM.sketch_eq_ok.1 h
    exact ⟨_, rfl, SketchM.addPiece_of_leaf hrun⟩
  | type parent text =>
    obtain ⟨id, hrun⟩ := SketchM.sketch_eq_ok.1 h
    exact ⟨_, rfl, SketchM.addPiece_of_type hrun⟩
  | package text =>
    obtain ⟨id, hrun⟩ := SketchM.sketch_eq_ok.1 h
    exact ⟨_, rfl, SketchM.addPiece_of_package hrun⟩
  | classDecl parent snippet =>
    obtain ⟨nodes, hrun⟩ := SketchM.sketch_eq_ok.1 h
    exact SketchM.addPiece_of_classDecl hrun
  | field parent snippet =>
    obtain ⟨nodes, hrun⟩ := SketchM.sketch_eq_ok.1 h
    exact (SketchM.addPiece_of_variableDecl hrun :)
  | localVariable parent snippet =>
    obtain ⟨nodes, hrun⟩ := SketchM.sketch_eq_ok.1 h
    exact (SketchM.addPiece_of_variableDecl hrun :)
  | method parent snippet =>
    obtain ⟨nodes, hrun⟩ := SketchM.sketch_eq_ok.1 h
    exact SketchM.addPiece_of_method hrun
  | parameter parent snippet =>
    obtain ⟨nodes, hrun⟩ := SketchM.sketch_eq_ok.1 h
    exact SketchM.addPiece_of_parameter hrun
  | forEach parent snippet =>
    obtain ⟨nodes, hrun⟩ := SketchM.sketch_eq_ok.1 h
    exact SketchM.addPiece_of_forEach hrun

end SketchOp

end Recast
