import Recast.Sketch.TypeText
import Recast.Text.Quoted
import Recast.Tree.Basic

/-!
# Sketches

A sketch builds a tree by hand over a snippet of source text. A node is placed at the first
occurrence of its own text inside its parent, searching from the end of the child added before, so
children are added in source order.

* `Sketch.locate` finds the place, `Sketch.add` adds the node;
* `SketchM` threads a sketch through a series of additions, which the first failure ends;
* `addType` adds a reference to a type with everything inside it.
-/

namespace Recast

/-! ## 1. Sketches and what can go wrong -/

/-- A tree under construction; the span of each node, by its number; and for each node with
    children, where the last of them ends. -/
structure Sketch where
  arena : Arena
  spans : Array Span
  ends : List (Nat × Nat)

/-- Why a node cannot be placed. -/
inductive SketchError where
  /-- There is no node with this number. -/
  | missingNode (size index : Nat)
  /-- The text does not occur in what is left of the parent. -/
  | notFound (snippet : String) (searchStart : Nat) (parent : Span)
  | noTypeName
  | noParameterList
  | openParameterList
  | noHeader
  | noColon
  /-- A text cut where it cannot be cut. -/
  | badCut (e : Text.CutError)
deriving DecidableEq

namespace SketchError

/-- The wording of a sketch error. -/
def message : SketchError → String
  | .missingNode size index => (Fault.missingNode size index).message
  | .notFound snippet searchStart parent =>
    s!"`{snippet}` not found after {searchStart} inside {parent.render}"
  | .noTypeName => "class snippet names the type"
  | .noParameterList => "method snippet has a parameter list"
  | .openParameterList => "parameter list is closed"
  | .noHeader => "for statement has a header"
  | .noColon => "enhanced for has a colon"
  | .badCut e => e.message

end SketchError

namespace Sketch

/-- A sketch over a text: a root that covers all of it. -/
def ofText (text : String) : Sketch where
  arena := .ofText text .compilationUnit
  spans := #[Span.ofLength 0 (Text.length text)]
  ends := []

/-- The span of a node. -/
def span (s : Sketch) (i : Nat) : Except SketchError Span :=
  match s.spans[i]? with
  | some span => .ok span
  | none => .error (.missingNode s.spans.size i)

/-- Where the search for the next child of a node starts. -/
def searchStart (s : Sketch) (parent : Nat) (span : Span) : Nat :=
  ((s.ends.find? fun e => e.1 == parent).map (·.2)).getD span.start

/-- The place of the next child of a node with the given text. -/
def locate (s : Sketch) (parent : Nat) (snippet : List Char) : Except SketchError Span := do
  let span ← s.span parent
  let start := s.searchStart parent span
  match (Text.slice? s.arena.text start span.stop).bind fun rest =>
    Text.offsetOf? snippet rest.toList with
  | some offset => .ok (.ofLength (start + offset) (Text.bytes snippet))
  | none => .error (.notFound (String.ofList snippet) start span)

/-- Adds a node with the given label over the next occurrence of the given text. -/
def add (s : Sketch) (parent : Nat) (kind : Kind) (label : String) (snippet : List Char) :
    Except SketchError (Nat × Sketch) := do
  let span ← s.locate parent snippet
  match s.arena.push parent kind label span with
  | .ok arena => .ok (s.arena.size, ⟨arena, s.spans.push span, (parent, span.stop) :: s.ends⟩)
  | .error _ => .error (.missingNode s.arena.size parent)

/-- The finished tree. -/
def finish (s : Sketch) : Except TreeError Tree := s.arena.finish

end Sketch

/-! ## 2. Series of additions -/

/-- Additions to a sketch, of which the first failure ends the series. -/
abbrev SketchM := StateT Sketch (Except SketchError)

namespace SketchM

/-- Adds a node with a label. -/
def labeled (parent : Nat) (kind : Kind) (label : String) (snippet : List Char) : SketchM Nat :=
  fun s => s.add parent kind label snippet

/-- Adds a node without a label. -/
def node (parent : Nat) (kind : Kind) (snippet : List Char) : SketchM Nat :=
  labeled parent kind "" snippet

/-- Adds a node whose label is its own text. -/
def leaf (parent : Nat) (kind : Kind) (text : List Char) : SketchM Nat :=
  labeled parent kind (String.ofList text) text

/-- Adds a simple name. -/
def name (parent : Nat) (text : List Char) : SketchM Nat := leaf parent .simpleName text

/-- Adds nodes of one kind, each labelled with its own text. -/
def leaves (parent : Nat) (kind : Kind) : List (List Char) → SketchM Unit
  | [] => pure ()
  | t :: ts => do
    let _ ← leaf parent kind t
    leaves parent kind ts

mutual

/-- Adds a reference to a type with what is inside it. -/
def typeText (parent : Nat) : TypeText → SketchM Nat
  | .array text element => do
    let id ← node parent .arrayType text
    let _ ← typeText id element
    return id
  | .generic text base arguments => do
    let id ← node parent .parameterizedType text
    let _ ← typeText id base
    typeTexts id arguments
    return id
  | .wildcard text none => node parent .wildcardType text
  | .wildcard text (some bound) => do
    let id ← node parent .wildcardType text
    let _ ← typeText id bound
    return id
  | .primitive text => leaf parent .primitiveType text
  | .named text => do
    let id ← node parent .simpleType text
    let _ ← if text.contains '.' then leaf id .qualifiedName text else name id text
    return id

/-- Adds references to types, one after the other. -/
def typeTexts (parent : Nat) : List TypeText → SketchM Unit
  | [] => pure ()
  | t :: ts => do
    let _ ← typeText parent t
    typeTexts parent ts

end

/-- Adds the reference to a type that is written in a text. -/
def type (parent : Nat) (text : List Char) : SketchM Nat := typeText parent (.ofChars text)

end SketchM

end Recast
