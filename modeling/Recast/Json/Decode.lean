import Recast.Json.Value
import Recast.Text.Bytes

/-!
# From JSON to records

How a record with named fields is written in JSON, and what is refused:

* a record is an object, or an array of its fields in order, from which trailing fields may be
  missing;
* a known field stands at most once; unknown fields are ignored, whatever they hold, but their
  names must be proper strings;
* an array or object takes one level of the nesting that a document may have. `levels` counts what
  is left: a value that is read may open an array or object only while it is not zero.
-/

namespace Recast.Json

/-- The nesting a document may have. -/
def maxLevels : Nat := 127

/-- A string. -/
def string? : Json → Option String
  | .string s => s
  | _ => none

/-- A number that is an offset. -/
def offset? : Json → Option Nat
  | .number n => n.nat?.bind fun k => if k ≤ Text.maxOffset then some k else none
  | _ => none

/-- The items of an array. -/
def items? : Json → Option (List Json)
  | .array items => some items
  | _ => none

/-- The values under a name, in order. -/
def valuesOf (name : String) (fields : List (Option String × Json)) : List Json :=
  fields.filterMap fun (k, v) => if k = some name then some v else none

/-- The value under a name that stands at most once; `none` when it stands twice. -/
def field? (name : String) (fields : List (Option String × Json)) : Option (Option Json) :=
  match valuesOf name fields with
  | [] => some none
  | [v] => some (some v)
  | _ => none

/-- The fields of a record, in the given order; `none` inside for one that is missing. -/
def record? (names : List String) : Json → Option (List (Option Json))
  | .object fields =>
    if fields.all fun (k, _) => k.isSome then names.mapM fun name => field? name fields else none
  | .array items =>
    if items.length ≤ names.length then
      some (items.map some ++ List.replicate (names.length - items.length) none)
    else none
  | _ => none

/-- Reads a field that may be missing. -/
def optional? {α : Type} (default : α) (read? : Json → Option α) : Option Json → Option α
  | some j => read? j
  | none => some default

/-- The name of a case: a string, or an object with that name as its only key and `null` as its
    value, which takes a level. -/
def caseName? (levels : Nat) : Json → Option String
  | .string s => s
  | .object [(k, .null)] => if 0 < levels then k else none
  | _ => none

/-- Whether a value can be held whole before anyone reads it: every string means something, every
    number is finite, and the nesting fits. -/
def holdable (levels : Nat) : Json → Bool
  | .null | .bool _ => true
  | .number n => n.finite
  | .string s => s.isSome
  | .array items => 0 < levels && holdableItems (levels - 1) items
  | .object fields => 0 < levels && holdableFields (levels - 1) fields
where
  holdableItems (levels : Nat) : List Json → Bool
    | [] => true
    | v :: vs => holdable levels v && holdableItems levels vs
  holdableFields (levels : Nat) : List (Option String × Json) → Bool
    | [] => true
    | (k, v) :: fs => k.isSome && holdable levels v && holdableFields levels fs

end Recast.Json
