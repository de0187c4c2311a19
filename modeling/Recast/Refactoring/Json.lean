import Recast.Json.Decode
import Recast.Json.Printer
import Recast.Json.Reader
import Recast.Refactoring.Basic

/-!
# Refactorings as JSON text

The fields of a record and of its two places, in the order in which they are written, and the text
of a list of records.
-/

namespace Recast

/-- Reads a kind of refactoring. -/
def RefactoringKind.decode? (levels : Nat) (j : Json) : Option RefactoringKind :=
  (j.caseName? levels).bind ofName?

/-- Reads an element type. -/
def ElementType.decode? (levels : Nat) (j : Json) : Option ElementType :=
  (j.caseName? levels).bind ofName?

namespace CodeRange

/-- The fields of a place. -/
def fieldNames : List String :=
  ["filePath", "startLine", "endLine", "startColumn", "endColumn", "codeElementType",
   "description", "codeElement"]

/-- Reads a place. It takes a level. -/
def decode? : (levels : Nat) → Json → Option CodeRange
  | 0, _ => none
  | levels + 1, j => do
    match ← j.record? fieldNames with
    | [some path, some startLine, some endLine, some startColumn, some endColumn, some elementType,
        some description, some codeElement] =>
      return {
        filePath := ← path.string?
        startLine := ← startLine.offset?
        endLine := ← endLine.offset?
        startColumn := ← startColumn.offset?
        endColumn := ← endColumn.offset?
        elementType := ← ElementType.decode? levels elementType
        description := ← description.string?
        codeElement := ← codeElement.string? }
    | _ => none

/-- Writes a place. -/
def encode (r : CodeRange) : Json :=
  .obj [("filePath", .str r.filePath), ("startLine", .nat r.startLine),
    ("endLine", .nat r.endLine), ("startColumn", .nat r.startColumn),
    ("endColumn", .nat r.endColumn), ("codeElementType", .str r.elementType.name),
    ("description", .str r.description), ("codeElement", .str r.codeElement)]

end CodeRange

namespace Refactoring

/-- The fields of a record. -/
def fieldNames : List String := ["description", "kind", "before", "after"]

/-- Reads a record. It takes a level. -/
def decode? : (levels : Nat) → Json → Option Refactoring
  | 0, _ => none
  | levels + 1, j => do
    match ← j.record? fieldNames with
    | [some description, some kind, some before, some after] =>
      return {
        description := ← description.string?
        kind := ← RefactoringKind.decode? levels kind
        before := ← CodeRange.decode? levels before
        after := ← CodeRange.decode? levels after }
    | _ => none

/-- Writes a record. -/
def encode (r : Refactoring) : Json :=
  .obj [("description", .str r.description), ("kind", .str r.kind.name),
    ("before", r.before.encode), ("after", r.after.encode)]

/-- The text of a list of records. -/
def listToText (rs : List Refactoring) : String := (Json.array (rs.map encode)).render

/-- Reads a list of records. It takes a level. -/
def decodeAll? : (levels : Nat) → Json → Option (List Refactoring)
  | levels + 1, .array items => items.mapM (decode? levels)
  | _, _ => none

/-- The list of records written in a text. -/
def listOfText? (text : String) : Option (List Refactoring) :=
  (Json.parse? text).bind (decodeAll? Json.maxLevels)

end Refactoring

end Recast
