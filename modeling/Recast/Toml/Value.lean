/-!
# TOML values

Values as a TOML text gives them, and tables while they grow. How a table came about decides what
may still be added to it.

* `Toml.insert?` adds a key with its value to a table, `Toml.define?` opens a table by its header,
  `Toml.append?` an element of an array of tables;
* a key that is there already is never replaced: the text is refused.
-/

namespace Recast

/-- How a table came about. -/
inductive Toml.Form where
  /-- Written between braces, and complete. -/
  | inline
  /-- Opened by its own header. -/
  | defined
  /-- Implied by the header of a table inside it; its own header may still come. -/
  | implied
  /-- Made by dotted keys, which may go on adding to it. -/
  | dotted
deriving DecidableEq

/-- A TOML value. -/
inductive Toml where
  | string (s : String)
  | integer (n : Int)
  | bool (b : Bool)
  /-- A number with a fraction or a date, which nothing here looks into. -/
  | other
  | array (items : List Toml)
  /-- An array of tables, opened by its headers, last one first. -/
  | tables (items : List Toml)
  | table (form : Toml.Form) (entries : List (String × Toml))

namespace Toml

/-- The table without entries. -/
def root : Toml := .table .defined []

/-- Replaces the value of a key that is there. -/
def replace (key : String) (v : Toml) (entries : List (String × Toml)) : List (String × Toml) :=
  entries.map fun e => if e.1 = key then (key, v) else e

/-- Changes what stands at a path below a table, making the tables on the way when they are not
    there. The path of dotted keys may lead only through tables that have no header of their own;
    the path of a header may lead through any table, and through the last of an array of tables. -/
def modify? (dotted : Bool) (f : Toml → Option Toml) : List String → Toml → Option Toml
  | [], t => f t
  | k :: ks, .table form entries =>
    match entries.lookup k with
    | none => do
      let t ← modify? dotted f ks (.table (if dotted then .dotted else .implied) [])
      return .table form (entries ++ [(k, t)])
    | some (.table form' entries') =>
      if form' = .inline ∨ (dotted ∧ form' = .defined) then none
      else do
        let t ← modify? dotted f ks (.table form' entries')
        return .table form (replace k t entries)
    | some (.tables (last :: earlier)) => do
      let t ← modify? dotted f ks last
      return .table form (replace k (.tables (t :: earlier)) entries)
    | some _ => none
  | _ :: _, _ => none

/-- Adds a key to a table. A table made by dotted keys takes only keys that came by a dotted path,
    and any other table only plain ones. -/
def addKey? (plain : Bool) (key : String) (v : Toml) : Toml → Option Toml
  | .table form entries =>
    if (form = .dotted) = (plain = true) ∨ (entries.lookup key).isSome then none
    else some (.table form (entries ++ [(key, v)]))
  | _ => none

/-- Adds a key, dotted or plain, to a table. -/
def insert? (t : Toml) (path : List String) (v : Toml) : Option Toml :=
  match path.getLast? with
  | none => none
  | some key => modify? true (addKey? path.dropLast.isEmpty key v) path.dropLast t

/-- Opens a table inside another by its header. -/
def openTable? (key : String) : Toml → Option Toml
  | .table form entries =>
    match entries.lookup key with
    | none => some (.table form (entries ++ [(key, .table .defined [])]))
    | some (.table .implied entries') =>
      some (.table form (replace key (.table .defined entries') entries))
    | some _ => none
  | _ => none

/-- Opens an element of an array of tables inside a table. -/
def openElement? (key : String) : Toml → Option Toml
  | .table form entries =>
    match entries.lookup key with
    | none => some (.table form (entries ++ [(key, .tables [.table .defined []])]))
    | some (.tables items) =>
      some (.table form (replace key (.tables (.table .defined [] :: items)) entries))
    | some _ => none
  | _ => none

/-- Opens the table with a given path. -/
def define? (path : List String) (t : Toml) : Option Toml :=
  path.getLast?.bind fun key => modify? false (openTable? key) path.dropLast t

/-- Opens an element of the array of tables with a given path. -/
def append? (path : List String) (t : Toml) : Option Toml :=
  path.getLast?.bind fun key => modify? false (openElement? key) path.dropLast t

end Toml

end Recast
