import Recast.Json.Token

/-!
# Reading JSON

Values are put together from words by a machine with a stack of the arrays and objects that are
open. It needs no recursion, so a value may be nested as deeply as the text likes.

* `Builder.step` reads a word, `Builder.run` a list of them;
* `Json.parse?` reads a text: exactly one value, blanks around it, and nothing else.
-/

namespace Recast.Json

/-- An array or an object that is open, with what has been read of it, last item first. -/
inductive Frame where
  | array (items : List Json)
  /-- The value of the field `key` is being read. -/
  | object (fields : List (Option String × Json)) (key : Option String)

/-- What the machine has read, and what may come next. -/
inductive Builder where
  /-- A value must follow. -/
  | value (stack : List Frame)
  /-- An array has just been opened: a value or its end must follow. -/
  | firstItem (stack : List Frame)
  /-- An object has just been opened: a key or its end must follow. -/
  | firstKey (stack : List Frame)
  /-- A key must follow. -/
  | key (fields : List (Option String × Json)) (stack : List Frame)
  /-- A colon must follow. -/
  | colon (fields : List (Option String × Json)) (key : Option String) (stack : List Frame)
  /-- A value has been read: a separator or the end of what is open must follow. -/
  | settled (v : Json) (stack : List Frame)

namespace Builder

/-- The machine before a text. -/
def init : Builder := .value []

/-- Reads a word where a value must follow. -/
def open? (stack : List Frame) : Token → Option Builder
  | .openObject => some (.firstKey stack)
  | .openArray => some (.firstItem stack)
  | .null => some (.settled .null stack)
  | .bool b => some (.settled (.bool b) stack)
  | .number n => some (.settled (.number n) stack)
  | .string s => some (.settled (.string s) stack)
  | .closeObject | .closeArray | .comma | .colon => none

/-- Reads a word after a value. -/
def close? (v : Json) : List Frame → Token → Option Builder
  | .array items :: stack, .comma => some (.value (.array (v :: items) :: stack))
  | .array items :: stack, .closeArray => some (.settled (.array (v :: items).reverse) stack)
  | .object fields k :: stack, .comma => some (.key ((k, v) :: fields) stack)
  | .object fields k :: stack, .closeObject =>
    some (.settled (.object ((k, v) :: fields).reverse) stack)
  | _, _ => none

/-- Reads a word; `none` when no JSON text goes on like that. -/
def step : Builder → Token → Option Builder
  | .value stack, t => open? stack t
  | .firstItem stack, .closeArray => some (.settled (.array []) stack)
  | .firstItem stack, t => open? (.array [] :: stack) t
  | .firstKey stack, .closeObject => some (.settled (.object []) stack)
  | .firstKey stack, .string k => some (.colon [] k stack)
  | .firstKey _, _ => none
  | .key fields stack, .string k => some (.colon fields k stack)
  | .key _ _, _ => none
  | .colon fields k stack, .colon => some (.value (.object fields k :: stack))
  | .colon _ _ _, _ => none
  | .settled v stack, t => close? v stack t

/-- Reads words one after the other. -/
def run (b : Builder) : List Token → Option Builder
  | [] => some b
  | t :: ts =>
    match b.step t with
    | some b => b.run ts
    | none => none

theorem run_append (b : Builder) (xs ys : List Token) :
    b.run (xs ++ ys) = (b.run xs).bind fun b => b.run ys := by
  induction xs generalizing b with
  | nil => rfl
  | cons t ts ih =>
    simp only [List.cons_append, run]
    split
    · exact ih _
    · rfl

/-- The value of a text that ends here. -/
def finish? : Builder → Option Json
  | .settled v [] => some v
  | _ => none

end Builder

/-- The value made of the given words. -/
def ofTokens? (ts : List Token) : Option Json := (Builder.init.run ts).bind Builder.finish?

/-- The value written in a text. -/
def parse? (text : String) : Option Json := (tokens? text.toList).bind ofTokens?

end Recast.Json
