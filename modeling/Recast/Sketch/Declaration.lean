import Recast.Sketch.Basic

/-!
# Sketching declarations

Packages, classes, fields, local variables, methods, parameters and loops, each from the text of
the whole declaration. The text is taken apart just far enough to find the modifiers, the type, the
name and the body.
-/

namespace Recast

/-! ## 1. Taking declarations apart -/

/-- The words that are modifiers. -/
def modifierWords : List String :=
  ["public", "protected", "private", "static", "final", "abstract", "default", "synchronized",
   "native", "transient", "volatile", "strictfp"]

/-- A text in two, at its last blank: what is before it, and the last word, which is cut off one
    byte after the start of the blank. -/
def splitLastWord (cs : List Char) : Except SketchError (List Char × List Char) :=
  let text := Text.trim cs
  let word := (text.reverse.takeWhile fun c => !Text.isBlank c).reverse
  let rest := text.take (text.length - word.length)
  if rest.isEmpty then .ok ([], word)
  else
    match Text.cut text (Text.bytes rest.dropLast + 1) (Text.bytes text) with
    | .ok word => .ok (Text.trimEnd rest.dropLast, word)
    | .error e => .error (.badCut e)

/-- The modifiers at the front, at most `n` of them, and what is left. -/
def takeModifiers : (n : Nat) → List Char → List (List Char) × List Char
  | 0, cs => ([], cs)
  | n + 1, cs =>
    let word := cs.takeWhile fun c => !Text.isBlank c
    if modifierWords.contains (String.ofList word) then
      let (words, rest) := takeModifiers n (Text.trimStart (cs.drop word.length))
      (word :: words, rest)
    else ([], cs)

/-- The modifiers at the front, and what is left without blanks around it. -/
def splitModifiers (cs : List Char) : List (List Char) × List Char :=
  let (words, rest) := takeModifiers cs.length (Text.trimStart cs)
  (words, Text.trim rest)

/-! ## 2. The nodes of declarations -/

/-- The nodes of a class or interface. -/
structure ClassNodes where
  decl : Nat
  name : Nat

/-- The nodes of a field or local variable with a single fragment. -/
structure VariableNodes where
  decl : Nat
  type : Nat
  fragment : Nat
  name : Nat

/-- The nodes of a parameter or of the variable of a loop. -/
structure ParameterNodes where
  decl : Nat
  type : Nat
  name : Nat

/-- The nodes of a method. -/
structure MethodNodes where
  decl : Nat
  returnType : Option Nat
  name : Nat
  params : List ParameterNodes
  body : Option Nat

namespace SketchM

/-- A failure that does not depend on the sketch. -/
def lift {α : Type} (r : Except SketchError α) : SketchM α := fun s => r.map fun a => (a, s)

/-- A package declaration below the root. -/
def package (text : List Char) : SketchM Nat := do
  let decl ← node 0 .packageDeclaration ("package ".toList ++ text ++ [';'])
  let _ ← leaf decl (if text.contains '.' then .qualifiedName else .simpleName) text
  return decl

/-- Adds the words of a class header up to the word that says what it is, and gives the word after
    that. -/
def classHeader (decl : Nat) : List (List Char) → SketchM (Option (List Char))
  | [] => pure none
  | word :: words => do
    if word = "class".toList ∨ word = "interface".toList then
      let _ ← leaf decl .typeDeclarationKind word
      return words.head?
    else
      let _ ← leaf decl .modifier word
      classHeader decl words

/-- A class or interface declaration. -/
def classDecl (parent : Nat) (snippet : List Char) : SketchM ClassNodes := do
  let decl ← node parent .typeDeclaration snippet
  match ← classHeader decl (Text.words (Text.beforeChar '\x7b' snippet)) with
  | none => lift (.error .noTypeName)
  | some word => return { decl, name := ← name decl (Text.beforeChar '<' word) }

/-- A declaration of one variable, of the given kind. -/
def variableDecl (parent : Nat) (kind : Kind) (snippet : List Char) : SketchM VariableNodes := do
  let decl ← node parent kind snippet
  let statement := Text.dropEndWhile (· = ';') (Text.trimEnd snippet)
  let declarator := Text.trimEnd (Text.beforeChar '=' statement)
  let (head, word) ← lift (splitLastWord declarator)
  let (modifiers, typeText) := splitModifiers head
  leaves decl .modifier modifiers
  let type ← type decl typeText
  let fragmentText := Text.trim (statement.drop (declarator.length - word.length))
  let fragment ← node decl .variableDeclarationFragment fragmentText
  return { decl, type, fragment, name := ← name fragment word }

/-- A field declaration. -/
def field (parent : Nat) (snippet : List Char) : SketchM VariableNodes :=
  variableDecl parent .fieldDeclaration snippet

/-- A declaration of a local variable. -/
def localVariable (parent : Nat) (snippet : List Char) : SketchM VariableNodes :=
  variableDecl parent .variableDeclarationStatement snippet

/-- A parameter, or the variable of a loop. -/
def parameter (parent : Nat) (snippet : List Char) : SketchM ParameterNodes := do
  let decl ← node parent .singleVariableDeclaration snippet
  let (head, word) ← lift (splitLastWord snippet)
  let type ← type decl head
  return { decl, type, name := ← name decl word }

/-- Parameters, one after the other. -/
def parameters (parent : Nat) : List (List Char) → SketchM (List ParameterNodes)
  | [] => pure []
  | p :: ps => do
    let param ← parameter parent p
    return param :: (← parameters parent ps)

/-- A method declaration with its body, if it has one. -/
def method (parent : Nat) (snippet : List Char) : SketchM MethodNodes := do
  let decl ← node parent .methodDeclaration snippet
  match Text.splitAtChar? '(' snippet with
  | none => lift (.error .noParameterList)
  | some (front, rest) =>
    match Text.splitAtChar? ')' rest with
    | none => lift (.error .openParameterList)
    | some (inside, tail) =>
      let (head, word) ← lift (splitLastWord (Text.trimEnd front))
      let (modifiers, typeText) := splitModifiers head
      leaves decl .modifier modifiers
      let returnType ←
        if typeText.isEmpty then pure none else some <$> type decl typeText
      let name ← name decl word
      let params ← parameters decl (Text.splitTopLevel inside)
      let body ← match tail.dropWhile (· ≠ '\x7b') with
        | [] => pure none
        | block => some <$> node decl .block (Text.trimEnd block)
      return { decl, returnType, name, params, body }

/-- A loop over the elements of something, with its variable. -/
def forEach (parent : Nat) (snippet : List Char) : SketchM (Nat × ParameterNodes) := do
  let statement ← node parent .enhancedForStatement snippet
  match Text.splitAtChar? '(' snippet, Text.splitAtChar? ':' snippet with
  | none, _ => lift (.error .noHeader)
  | some _, none => lift (.error .noColon)
  | some (front, _), some (upToColon, _) =>
    let header ← lift <|
      (Text.cut snippet (Text.bytes front + 1) (Text.bytes upToColon)).mapError .badCut
    return (statement, ← parameter statement (Text.trim header))

end SketchM

end Recast
