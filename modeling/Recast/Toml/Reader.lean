import Recast.Toml.Quotation
import Recast.Toml.Scalar

/-!
# Reading TOML

A TOML text is a series of lines: a header that opens a table, or a key with its value. Comments
and blank lines may stand anywhere between them.

* `key?` reads a key, `value?` a value, `statement?` a line;
* `Toml.parse?` reads a text. Arrays and inline tables nest at most `maxDepth` deep.
-/

namespace Recast.Toml

/-! ## 1. Blanks and comments -/

/-- Blanks within a line. -/
def isSpace (c : Char) : Bool := c = ' ' || c = '\t'

/-- Removes blanks at the front. -/
def skipSpace (cs : List Char) : List Char := cs.dropWhile isSpace

/-- What is being skipped between values. -/
inductive Gap where
  | blank
  | comment
  /-- After a carriage return, which must be followed by a line feed. -/
  | carriage

/-- Removes blanks, line breaks and comments at the front; `none` when a comment has a control
    character in it or a carriage return stands alone. -/
def skipGap? (gap : Gap) : List Char → Option (List Char)
  | [] =>
    match gap with
    | .carriage => none
    | _ => some []
  | c :: cs =>
    match gap with
    | .carriage => if c = '\n' then skipGap? .blank cs else none
    | .comment =>
      if c = '\n' then skipGap? .blank cs
      else if c = '\r' then skipGap? .carriage cs
      else if isPlain c then skipGap? .comment cs
      else none
    | .blank =>
      if isSpace c || c = '\n' then skipGap? .blank cs
      else if c = '\r' then skipGap? .carriage cs
      else if c = '#' then skipGap? .comment cs
      else some (c :: cs)

/-- Whether a line may end here: blanks, and then a comment, a line break or nothing. -/
def atLineEnd (cs : List Char) : Bool :=
  match skipSpace cs with
  | [] | '#' :: _ | '\n' :: _ | '\r' :: '\n' :: _ => true
  | _ => false

/-! ## 2. Keys -/

/-- Characters of a key without quotes. -/
def isBareChar (c : Char) : Bool := c.isAlphanum || c = '_' || c = '-'

/-- Reads one part of a key. -/
def simpleKey? (cs : List Char) : Option (String × List Char) :=
  match cs with
  | '"' :: rest => (basic? rest).map fun (k, rest) => (String.ofList k, rest)
  | '\x27' :: rest => (literal? rest).map fun (k, rest) => (String.ofList k, rest)
  | cs =>
    let bare := cs.takeWhile isBareChar
    if bare.isEmpty then none else some (String.ofList bare, cs.drop bare.length)

/-- Reads a key of one or more parts with dots between them; `acc` has the parts so far in
    reverse. -/
def keyAux (acc : List String) (cs : List Char) : Option (List String × List Char) :=
  match simpleKey? (skipSpace cs) with
  | none => none
  | some (k, rest) =>
    match skipSpace rest with
    | '.' :: rest =>
      if rest.length < cs.length then keyAux (k :: acc) rest else none
    | rest => some ((k :: acc).reverse, rest)
termination_by cs.length

/-- How many parts a key may have. -/
def maxParts : Nat := 79

/-- Reads a key, and the blanks around it. -/
def key? (cs : List Char) : Option (List String × List Char) :=
  (keyAux [] cs).bind fun (path, rest) => if path.length ≤ maxParts then some (path, rest) else none

/-! ## 3. Values -/

/-- How deeply arrays and inline tables may nest. -/
def maxDepth : Nat := 79

mutual

/-- Reads a value. -/
def value? (depth : Nat) (cs : List Char) : Option (Toml × List Char) :=
  match cs with
  | '"' :: _ | '\x27' :: _ =>
    (quotation? cs).map fun (s, rest) => (.string (String.ofList s), rest)
  | '[' :: rest =>
    match depth with
    | 0 => none
    | depth + 1 => items? depth [] rest
  | '\x7b' :: rest =>
    match depth with
    | 0 => none
    | depth + 1 =>
      match skipSpace rest with
      | '\x7d' :: rest => some (.table .inline [], rest)
      | rest => fields? depth (.table .inline []) rest
  | cs => scalar? cs
termination_by (depth, 0)

/-- Reads the items of an array up to its closing bracket; `acc` has those so far in reverse. -/
def items? (depth : Nat) (acc : List Toml) (cs : List Char) : Option (Toml × List Char) :=
  match skipGap? .blank cs with
  | none => none
  | some (']' :: rest) => some (.array acc.reverse, rest)
  | some rest =>
    match value? depth rest with
    | none => none
    | some (v, rest) =>
      match skipGap? .blank rest with
      | some (',' :: rest) =>
        if rest.length < cs.length then items? depth (v :: acc) rest else none
      | some (']' :: rest) => some (.array (v :: acc).reverse, rest)
      | _ => none
termination_by (depth, cs.length + 1)

/-- Reads the fields of an inline table up to its closing brace. -/
def fields? (depth : Nat) (t : Toml) (cs : List Char) : Option (Toml × List Char) :=
  match key? cs with
  | some (path, '=' :: rest) =>
    match value? depth (skipSpace rest) with
    | none => none
    | some (v, rest) =>
      match t.insert? path v with
      | none => none
      | some t =>
        match skipSpace rest with
        | ',' :: rest => if rest.length < cs.length then fields? depth t rest else none
        | '\x7d' :: rest => some (t, rest)
        | _ => none
  | _ => none
termination_by (depth, cs.length + 1)

end

/-! ## 4. Texts -/

/-- A text as far as it has been read: the whole table, and the path of the table that is open. -/
structure Reading where
  table : Toml
  path : List String

/-- Adds a key to the table that is open. -/
def Reading.insert? (r : Reading) (key : List String) (v : Toml) : Option Reading :=
  (modify? false (fun t => t.insert? key v) r.path r.table).map fun t => { r with table := t }

/-- Reads a header or a key with its value. -/
def statement? (r : Reading) (cs : List Char) : Option (Reading × List Char) :=
  match cs with
  | '[' :: '[' :: rest =>
    match key? rest with
    | some (path, ']' :: ']' :: rest) => (append? path r.table).map fun t => (⟨t, path⟩, rest)
    | _ => none
  | '[' :: rest =>
    match key? rest with
    | some (path, ']' :: rest) => (define? path r.table).map fun t => (⟨t, path⟩, rest)
    | _ => none
  | cs =>
    match key? cs with
    | some (path, '=' :: rest) => do
      let (v, rest) ← value? maxDepth (skipSpace rest)
      return (← r.insert? path v, rest)
    | _ => none

/-- Reads the lines of a text. -/
def statements? (r : Reading) (cs : List Char) : Option Reading :=
  match skipGap? .blank cs with
  | none => none
  | some [] => some r
  | some (c :: rest) =>
    match statement? r (c :: rest) with
    | none => none
    | some (r, rest) =>
      if atLineEnd rest && rest.length < cs.length then statements? r rest else none
termination_by cs.length
decreasing_by simp_all

/-- Removes the mark that some editors put before a text. -/
def dropMark : List Char → List Char
  | '\uFEFF' :: cs => cs
  | cs => cs

/-- The table written in a text. -/
def parse? (text : String) : Option Toml :=
  (statements? ⟨root, []⟩ (dropMark text.toList)).map (·.table)

end Recast.Toml
