import Recast.Classify.TypeChange
import Recast.Refactoring.Set
import Recast.ShapeMatch
import Recast.Snapshot
import Recast.Text.Quoted

/-!
# Detection

Running the two passes over one difference, over many, or over two snapshots of a set of files.

* `detect` classifies one difference: renames first, so that they win over type changes with the
  same description.
* `Report.merge` joins the outcomes of many files: the first record for a description stays, and
  what failed is listed in order. A failure of one file never touches another.
* `detectMany` and `diffSnapshots` are the two ways to get there.
-/

namespace Recast

/-! ## 1. One difference -/

/-- Which passes run. -/
structure Passes where
  renames : Bool := true
  typeChanges : Bool := true
deriving DecidableEq

/-- The refactorings of one difference. -/
def detect (path : String) (d : Diff) (passes : Passes) : Except Fault Refactorings := do
  let renames ← if passes.renames then d.renames path else .ok []
  let typeChanges ← if passes.typeChanges then d.typeChanges path else .ok []
  return (Refactorings.ofList renames).extend typeChanges

/-! ## 2. Many differences -/

/-- Why a file contributed nothing. -/
inductive Failure where
  /-- A collaborator refused the file, or it could not be read. -/
  | refused (path message : String)
  /-- Work on the file ended in a fault. -/
  | crashed (path message : String)
deriving DecidableEq

namespace Failure

/-- The file. -/
def path : Failure → String
  | .refused path _ | .crashed path _ => path

/-- The wording of a failure. -/
def message : Failure → String
  | .refused path message => s!"failed to diff `{path}`: {message}"
  | .crashed path message => s!"diffing `{path}` panicked: {message}"

end Failure

/-- Detection in one file, a fault being a failure of that file. -/
def tryDetect (path : String) (d : Diff) (passes : Passes) : Except Failure Refactorings :=
  (detect path d passes).mapError fun fault => .crashed path fault.message

/-- What was found in many files. -/
structure Report where
  refactorings : Refactorings
  failures : List Failure

namespace Report

/-- Nothing yet. -/
def empty : Report := ⟨.empty, []⟩

/-- Adds the outcome of one more file. -/
def add (r : Report) : Except Failure Refactorings → Report
  | .ok found => { r with refactorings := r.refactorings.extend found.records }
  | .error failure => { r with failures := r.failures ++ [failure] }

/-- Joins the outcomes of many files, in order. -/
def merge (outcomes : List (Except Failure Refactorings)) : Report := outcomes.foldl add empty

end Report

/-- Detection in many differences, each with its path. -/
def detectMany (diffs : List (String × Diff)) (passes : Passes) : Report :=
  .merge (diffs.map fun (path, d) => tryDetect path d passes)

/-! ## 3. Two snapshots -/

/-- Why a collaborator gave no answer. -/
inductive Trouble where
  | refused (message : String)
  | fault (f : Fault)

/-- Trouble with one file is a failure of that file. -/
def Trouble.toFailure (path : String) : Trouble → Failure
  | .refused message => .refused path message
  | .fault f => .crashed path f.message

/-- The collaborators: a parser of source texts, and a matcher of trees with its scripts. -/
structure Collaborators where
  parse : String → Except Trouble Tree
  matchTrees : Tree → Tree → Except Trouble Correspondence
  editScript : Tree → Tree → Correspondence → Except Trouble (List Edit)

namespace Collaborators

/-- The difference of two texts: both are parsed, then matched, then the script is made. -/
def diff (c : Collaborators) (old new : String) : Except Trouble Diff := do
  let before ← c.parse old
  let after ← c.parse new
  let mapping ← c.matchTrees before after
  let script ← c.editScript before after mapping
  return { before, after, mapping, script }

/-- Detection in one file of two snapshots. -/
def diffFile (c : Collaborators) (passes : Passes) (path old new : String) :
    Except Failure Refactorings :=
  match c.diff old new with
  | .ok d => tryDetect path d passes
  | .error trouble => .error (trouble.toFailure path)

end Collaborators

/-- Detection in every file that both snapshots have. -/
def diffSnapshots (before after : Snapshot) (c : Collaborators) (passes : Passes) : Report :=
  .merge ((before.common after).map fun (path, old, new) => c.diffFile passes path old new)

/-! ## 4. Collaborators at hand -/

/-- The last tree with a given text. -/
def lookUpTree (trees : List Tree) (text : String) : Except Trouble Tree :=
  match trees.reverse.find? fun t => t.text == text with
  | some t => .ok t
  | none => .error (.refused s!"no fixture tree for {Text.quoted text}")

/-- Trees at hand in place of a parser, matched by shape. -/
def Collaborators.byShape (trees : List Tree) : Collaborators where
  parse := lookUpTree trees
  matchTrees s t := (matchByShape s t).mapError .fault
  editScript s t m := (shapeScript s t m).mapError .fault

end Recast
