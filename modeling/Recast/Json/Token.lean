import Recast.Json.Value
import Recast.Text.Digit

/-!
# JSON tokens

The words of a JSON text, and the machine that finds them. The machine reads one character at a
time and remembers only what it is in the middle of, so that a run over a text is a run over its
first part followed by a run over its second.

* `Token`: brackets, separators, words, numbers and strings;
* `Draft`, `Numeral`: a string and a number in the making;
* `Lexer.step` and `tokens?`: one character, and a whole text.
-/

namespace Recast.Json

/-- A word of a JSON text. -/
inductive Token where
  | openObject | closeObject | openArray | closeArray | comma | colon
  | null
  | bool (b : Bool)
  | number (n : Number)
  | string (s : Option String)

/-! ## 1. Strings in the making -/

/-- A string that is being read. -/
structure Draft where
  /-- The characters so far, last one first. -/
  chars : List Char
  /-- The first half of a surrogate pair, when it came just before. -/
  half : Option Nat
  /-- Whether every half so far found its other half. -/
  sound : Bool

namespace Draft

/-- Nothing read yet. -/
def empty : Draft := ⟨[], none, true⟩

/-- One more character. -/
def push (t : Draft) (c : Char) : Draft := ⟨c :: t.chars, none, t.sound && t.half.isNone⟩

/-- One more code unit, as an escape names it. -/
def pushUnit (t : Draft) (u : Nat) : Draft :=
  if 0xD800 ≤ u ∧ u < 0xDC00 then { t with half := some u, sound := t.sound && t.half.isNone }
  else if 0xDC00 ≤ u ∧ u < 0xE000 then
    match t.half with
    | some h => ⟨Char.ofNat (0x10000 + (h - 0xD800) * 0x400 + (u - 0xDC00)) :: t.chars, none, t.sound⟩
    | none => { t with sound := false }
  else t.push (Char.ofNat u)

/-- The finished string. -/
def finish (t : Draft) : Option String :=
  if t.sound && t.half.isNone then some (String.ofList t.chars.reverse) else none

end Draft

/-- What a letter after a backslash stands for. -/
def escapedChar? (c : Char) : Option Char :=
  if c = '"' then some '"'
  else if c = '\\' then some '\\'
  else if c = '/' then some '/'
  else if c = 'b' then some (Char.ofNat 8)
  else if c = 'f' then some (Char.ofNat 12)
  else if c = 'n' then some '\n'
  else if c = 'r' then some '\r'
  else if c = 't' then some '\t'
  else none

/-! ## 2. Numbers in the making -/

/-- The part of a number that is being read. -/
inductive Part where
  /-- A minus sign has been read, and a digit must follow. -/
  | minus
  /-- A leading zero has been read, and no digit may follow. -/
  | zero
  | whole
  /-- A point has been read, and a digit must follow. -/
  | point
  | fraction
  /-- The mark of an exponent has been read, and a sign or a digit must follow. -/
  | mark
  /-- The sign of an exponent has been read, and a digit must follow. -/
  | sign
  | exponent
deriving DecidableEq

/-- A number that is being read. -/
structure Numeral where
  part : Part
  negative : Bool
  /-- The digits so far, of whole part and fraction together. -/
  mantissa : Nat
  /-- How many of them are in the fraction. -/
  places : Nat
  expNegative : Bool
  exponent : Nat

namespace Numeral

/-- A number that begins with the given character. -/
def start? (c : Char) : Option Numeral :=
  if c = '-' then some ⟨.minus, true, 0, 0, false, 0⟩
  else if c = '0' then some ⟨.zero, false, 0, 0, false, 0⟩
  else (Text.digit? c).map fun d => ⟨.whole, false, d, 0, false, 0⟩

/-- The marks of an exponent. -/
def isMark (c : Char) : Bool := c = 'e' || c = 'E'

/-- What may follow the whole part. -/
def afterWhole? (n : Numeral) (c : Char) : Option Numeral :=
  if c = '.' then some { n with part := .point }
  else if isMark c then some { n with part := .mark }
  else none

/-- A digit of the fraction. -/
def fractionDigit? (n : Numeral) (c : Char) : Option Numeral :=
  (Text.digit? c).map fun d =>
    { n with part := .fraction, mantissa := n.mantissa * 10 + d, places := n.places + 1 }

/-- A digit of the exponent. -/
def exponentDigit? (n : Numeral) (c : Char) : Option Numeral :=
  (Text.digit? c).map fun d => { n with part := .exponent, exponent := n.exponent * 10 + d }

/-- One more character; `none` when it does not continue the number. -/
def push? (n : Numeral) (c : Char) : Option Numeral :=
  match n.part with
  | .minus =>
    if c = '0' then some { n with part := .zero }
    else (Text.digit? c).map fun d => { n with part := .whole, mantissa := d }
  | .zero => n.afterWhole? c
  | .whole =>
    match Text.digit? c with
    | some d => some { n with mantissa := n.mantissa * 10 + d }
    | none => n.afterWhole? c
  | .point => n.fractionDigit? c
  | .fraction => if isMark c then some { n with part := .mark } else n.fractionDigit? c
  | .mark =>
    if c = '+' then some { n with part := .sign }
    else if c = '-' then some { n with part := .sign, expNegative := true }
    else n.exponentDigit? c
  | .sign | .exponent => n.exponentDigit? c

/-- The finished number; `none` when a digit is still owed. -/
def finish? (n : Numeral) : Option Number :=
  let exponent : Int := if n.expNegative then -(n.exponent : Int) else n.exponent
  match n.part with
  | .zero | .whole => some ⟨n.negative, n.mantissa, 0, 0, true⟩
  | .fraction | .exponent => some ⟨n.negative, n.mantissa, n.places, exponent, false⟩
  | .minus | .point | .mark | .sign => none

end Numeral

/-! ## 3. The machine -/

/-- What the machine is in the middle of. -/
inductive Mode where
  /-- Between words. -/
  | idle
  | text (t : Draft)
  /-- Just after a backslash. -/
  | escape (t : Draft)
  /-- Inside a four-digit code, with `left` digits to come after the next. -/
  | code (t : Draft) (left : Nat) (unit : Nat)
  | numeral (n : Numeral)
  /-- Inside `true`, `false` or `null`, with these letters to come. -/
  | word (rest : List Char) (token : Token)

/-- The machine: the words found so far, last one first, and its mode. -/
structure Lexer where
  found : List Token
  mode : Mode

namespace Lexer

/-- The machine before a text. -/
def init : Lexer := ⟨[], .idle⟩

/-- A word has been completed. -/
def emit (l : Lexer) (t : Token) : Lexer := ⟨t :: l.found, .idle⟩

/-- Blanks between words. -/
def isSpace (c : Char) : Bool := c = ' ' || c = '\t' || c = '\n' || c = '\r'

/-- Reads a character between words. -/
def idleStep (l : Lexer) (c : Char) : Option Lexer :=
  if isSpace c then some { l with mode := .idle }
  else if c = '\x7b' then some (l.emit .openObject)
  else if c = '\x7d' then some (l.emit .closeObject)
  else if c = '[' then some (l.emit .openArray)
  else if c = ']' then some (l.emit .closeArray)
  else if c = ',' then some (l.emit .comma)
  else if c = ':' then some (l.emit .colon)
  else if c = '"' then some { l with mode := .text .empty }
  else if c = 't' then some { l with mode := .word ['r', 'u', 'e'] (.bool true) }
  else if c = 'f' then some { l with mode := .word ['a', 'l', 's', 'e'] (.bool false) }
  else if c = 'n' then some { l with mode := .word ['u', 'l', 'l'] .null }
  else (Numeral.start? c).map fun n => { l with mode := .numeral n }

/-- Reads a character; `none` when no JSON text goes on like that. -/
def step (l : Lexer) (c : Char) : Option Lexer :=
  match l.mode with
  | .idle => l.idleStep c
  | .text t =>
    if c = '"' then some (l.emit (.string t.finish))
    else if c = '\\' then some { l with mode := .escape t }
    else if c.toNat < 0x20 then none
    else some { l with mode := .text (t.push c) }
  | .escape t =>
    if c = 'u' then some { l with mode := .code t 3 0 }
    else (escapedChar? c).map fun e => { l with mode := .text (t.push e) }
  | .code t left unit =>
    (Text.hexDigit? c).map fun d =>
      let unit := unit * 16 + d
      match left with
      | 0 => { l with mode := .text (t.pushUnit unit) }
      | left + 1 => { l with mode := .code t left unit }
  | .numeral n =>
    match n.push? c with
    | some n => some { l with mode := .numeral n }
    | none => n.finish?.bind fun n => (l.emit (.number n)).idleStep c
  | .word rest token =>
    match rest with
    | [] => none
    | [e] => if c = e then some (l.emit token) else none
    | e :: rest => if c = e then some { l with mode := .word rest token } else none

/-- Reads characters one after the other. -/
def run (l : Lexer) : List Char → Option Lexer
  | [] => some l
  | c :: cs =>
    match l.step c with
    | some l => l.run cs
    | none => none

theorem run_append (l : Lexer) (xs ys : List Char) :
    l.run (xs ++ ys) = (l.run xs).bind fun l => l.run ys := by
  induction xs generalizing l with
  | nil => rfl
  | cons c cs ih =>
    simp only [List.cons_append, run]
    split
    · exact ih _
    · rfl

/-- The words of a text that ends here; `none` in the middle of one, unless it is a number that may
    end here. -/
def finish? (l : Lexer) : Option (List Token) :=
  match l.mode with
  | .idle => some l.found.reverse
  | .numeral n => n.finish?.map fun n => (Token.number n :: l.found).reverse
  | _ => none

end Lexer

/-- The words of a text. -/
def tokens? (cs : List Char) : Option (List Token) := (Lexer.init.run cs).bind Lexer.finish?

end Recast.Json
