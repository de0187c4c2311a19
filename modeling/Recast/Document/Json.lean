import Recast.Document.Basic
import Recast.Json.Decode
import Recast.Json.Printer
import Recast.Json.Reader
import Recast.Text.Blank

/-!
# Documents as JSON text

The fields of a document, a tree and a node, the two spellings of an offset, and the tagged form of
an edit. Reading and writing of each stand side by side.

* `Document.ofText` and `Document.toText`;
* `TreeDocument.ofText?`, `editsOfText?` for a tree or a script on its own.
-/

namespace Recast

/-! ## 1. Kinds and offsets -/

/-- Reads a kind. Any name will do. -/
def Kind.decode? (levels : Nat) (j : Json) : Option Kind := (j.caseName? levels).map Kind.ofName

/-- The offset written in a text: blanks at either end, an optional plus sign, digits. -/
def offsetOfText? (s : String) : Option Nat :=
  let digits :=
    match Text.trim s.toList with
    | '+' :: cs => cs
    | cs => cs
  (Text.decimal? digits).bind fun n => if n ≤ Text.maxOffset then some n else none

/-- Reads an offset, written as a number or as a text. -/
def offsetOfJson? : Json → Option Nat
  | .string s => s.bind offsetOfText?
  | j => j.offset?

/-! ## 2. Trees -/

namespace Outline

/-- The fields of a node. -/
def fieldNames : List String := ["type", "label", "pos", "length", "children"]

/-- A node made of its fields. A label and a list of children may be missing; `below?` reads the
    list. -/
def ofFields? (levels : Nat) (below? : Json → Option (List Outline)) :
    List (Option Json) → Option Outline
  | [some type, label, some pos, some length, children] => do
    let kind ← Kind.decode? levels type
    let label ← Json.optional? "" Json.string? label
    let pos ← offsetOfJson? pos
    let length ← offsetOfJson? length
    let children ← Json.optional? [] below? children
    return .node kind label pos length children
  | _ => none

/-- Reads a node. It takes a level, and the list of its children takes one more. -/
def decode? : (levels : Nat) → Json → Option Outline
  | 0, _ => none
  | 1, j => do ofFields? 0 (fun _ => none) (← j.record? fieldNames)
  | levels + 2, j => do
    let below? : Json → Option (List Outline)
      | .array items => items.mapM (decode? levels)
      | _ => none
    ofFields? (levels + 1) below? (← j.record? fieldNames)

mutual

/-- Writes a node. An empty label and an empty list of children are left out. -/
def encode : Outline → Json
  | .node kind label pos length children =>
    .obj ([("type", .str kind.name)] ++
      (if label.isEmpty then [] else [("label", .str label)]) ++
      [("pos", .nat pos), ("length", .nat length)] ++
      (if children.isEmpty then [] else [("children", .array (encodeAll children))]))

/-- Writes a list of nodes. -/
def encodeAll : List Outline → List Json
  | [] => []
  | o :: os => encode o :: encodeAll os

end

end Outline

namespace TreeDocument

/-- The fields of a tree. -/
def fieldNames : List String := ["text", "root"]

/-- Reads a tree. It takes a level. -/
def decode? : (levels : Nat) → Json → Option TreeDocument
  | 0, _ => none
  | levels + 1, j => do
    match ← j.record? fieldNames with
    | [some text, some root] => return ⟨← text.string?, ← Outline.decode? levels root⟩
    | _ => none

/-- Writes a tree. -/
def encode (d : TreeDocument) : Json := .obj [("text", .str d.text), ("root", d.root.encode)]

/-- The tree written in a text of its own. -/
def ofText? (text : String) : Option TreeDocument :=
  (Json.parse? text).bind (decode? Json.maxLevels)

end TreeDocument

/-! ## 3. Edits -/

namespace Edit

/-- The edit with a given name and the given further fields. -/
def ofFields? (name : String) (node : Option Json) (label : Option Json) : Option Edit :=
  match name, node, label with
  | "insert-node", some node, _ => node.offset?.map .insert
  | "delete-node", some node, _ => node.offset?.map .delete
  | "move-tree", some node, _ => node.offset?.map .move
  | "update-node", some node, some label => do return .update (← node.offset?) (← label.string?)
  | _, _, _ => none

/-- The further fields of an edit with a given name. -/
def fieldNames (name : String) : List String :=
  if name = "update-node" then ["node", "label"] else ["node"]

/-- Reads an edit. An object is held whole until its name is known, so all of it must be holdable;
    an array has the name first and then exactly the further fields. -/
def decode? (levels : Nat) (j : Json) : Option Edit :=
  if j.holdable levels then
    match j with
    | .object fields => do
      let name ← (← Json.field? "action" fields).bind Json.string?
      match fieldNames name with
      | [n] => ofFields? name (← Json.field? n fields) none
      | [n, l] => ofFields? name (← Json.field? n fields) (← Json.field? l fields)
      | _ => none
    | .array [name, node] => do
      let name ← name.string?
      if name = "update-node" then none else ofFields? name (some node) none
    | .array [name, node, label] => do
      let name ← name.string?
      if name = "update-node" then ofFields? name (some node) (some label) else none
    | _ => none
  else none

/-- Writes an edit. -/
def encode (e : Edit) : Json :=
  .obj ([("action", .str e.name), ("node", .nat e.node)] ++
    match e.newLabel? with
    | some label => [("label", .str label)]
    | none => [])

/-- Reads a list of edits. It takes a level. -/
def decodeAll? : (levels : Nat) → Json → Option (List Edit)
  | levels + 1, .array items => items.mapM (decode? levels)
  | _, _ => none

/-- The edits written in a text of their own. -/
def listOfText? (text : String) : Option (List Edit) :=
  (Json.parse? text).bind (decodeAll? Json.maxLevels)

end Edit

/-! ## 4. Documents -/

/-- Reads a pair of node numbers. It takes a level. -/
def decodePair? (levels : Nat) : Json → Option (Nat × Nat)
  | .array [s, d] => if 0 < levels then do return (← s.offset?, ← d.offset?) else none
  | _ => none

/-- Reads a list of pairs. It takes a level. -/
def decodePairs? : (levels : Nat) → Json → Option (List (Nat × Nat))
  | levels + 1, .array items => items.mapM (decodePair? levels)
  | _, _ => none

namespace Document

/-- The fields of a document. -/
def fieldNames : List String := ["path", "before", "after", "mappings", "actions"]

/-- Reads a document. It takes a level. -/
def decode? : (levels : Nat) → Json → Option Document
  | 0, _ => none
  | levels + 1, j => do
    match ← j.record? fieldNames with
    | [some path, some before, some after, mapping, script] =>
      return {
        path := ← path.string?
        before := ← TreeDocument.decode? levels before
        after := ← TreeDocument.decode? levels after
        mapping := ← Json.optional? [] (decodePairs? levels) mapping
        script := ← Json.optional? [] (Edit.decodeAll? levels) script }
    | _ => none

/-- Writes a document. -/
def encode (d : Document) : Json :=
  .obj [("path", .str d.path), ("before", d.before.encode), ("after", d.after.encode),
    ("mappings", .array (d.mapping.map fun (s, t) => .array [.nat s, .nat t])),
    ("actions", .array (d.script.map Edit.encode))]

/-- The document written in a text. -/
def ofText (text : String) : Except DocumentError Document :=
  match (Json.parse? text).bind (decode? Json.maxLevels) with
  | some d => .ok d
  | none => .error .unreadable

/-- The text of a document. -/
def toText (d : Document) : String := d.encode.render

end Document

end Recast
