import Recast.Text.Digit

/-!
# TOML strings: reading

The four ways to write a string, each read from just after its opening quotes: what it means, and
the text after its closing quotes.

* basic strings stand on one line and have escapes; literal strings stand on one line and have none;
* both have a form with three quotes that may run over several lines. A line break in it is read as
  a line feed, and one just after the opening quotes does not count.
-/

namespace Recast.Toml

/-! ## 1. Characters -/

/-- Control characters: those below the space, and delete. -/
def isControl (c : Char) : Bool := c.toNat < 0x20 || c.toNat = 0x7F

/-- Characters that may stand in a string as they are. -/
def isPlain (c : Char) : Bool := c = '\t' || !isControl c

/-- What a letter after a backslash stands for. -/
def escapedChar? (c : Char) : Option Char :=
  if c = 'b' then some (Char.ofNat 8)
  else if c = 't' then some '\t'
  else if c = 'n' then some '\n'
  else if c = 'f' then some (Char.ofNat 12)
  else if c = 'r' then some '\r'
  else if c = '"' then some '"'
  else if c = '\\' then some '\\'
  else none

/-- The character with a code; surrogates and numbers past the last character have none. -/
def charOfCode? (n : Nat) : Option Char :=
  if n < 0xD800 ∨ (0xDFFF < n ∧ n < 0x110000) then some (Char.ofNat n) else none

/-- The number of digits in a code that starts with the given letter. -/
def codeDigits? (c : Char) : Option Nat :=
  if c = 'u' then some 4 else if c = 'U' then some 8 else none

/-! ## 2. One line -/

/-- What is being read inside a basic string. -/
inductive Mode where
  | plain
  /-- Just after a backslash. -/
  | escape
  /-- Inside a code, with `left` digits to come. -/
  | code (left : Nat) (value : Nat)

/-- Reads one character of an escape: the next mode, and the character it stands for if it is
    complete. -/
def escapeStep? (mode : Mode) (c : Char) : Option (Mode × Option Char) :=
  match mode with
  | .plain => none
  | .escape =>
    match codeDigits? c with
    | some n => some (.code n 0, none)
    | none => (escapedChar? c).map fun e => (.plain, some e)
  | .code left value =>
    (Text.hexDigit? c).bind fun d =>
      let value := value * 16 + d
      if left ≤ 1 then (charOfCode? value).map fun e => (.plain, some e)
      else some (.code (left - 1) value, none)

/-- Puts a character in front, if there is one. -/
def pushChar? (c : Option Char) (cs : List Char) : List Char :=
  match c with
  | some c => c :: cs
  | none => cs

/-- Reads a basic string; `acc` is what it means so far, in reverse. -/
def basicAux (mode : Mode) (acc : List Char) : List Char → Option (List Char × List Char)
  | [] => none
  | c :: cs =>
    match mode with
    | .plain =>
      if c = '"' then some (acc.reverse, cs)
      else if c = '\\' then basicAux .escape acc cs
      else if isPlain c then basicAux .plain (c :: acc) cs
      else none
    | mode =>
      match escapeStep? mode c with
      | some (mode, e) => basicAux mode (pushChar? e acc) cs
      | none => none

/-- Reads a basic string. -/
def basic? (cs : List Char) : Option (List Char × List Char) := basicAux .plain [] cs

/-- Reads a literal string; `acc` is what it means so far, in reverse. -/
def literalAux (acc : List Char) : List Char → Option (List Char × List Char)
  | [] => none
  | c :: cs =>
    if c = '\x27' then some (acc.reverse, cs)
    else if isPlain c then literalAux (c :: acc) cs
    else none

/-- Reads a literal string. -/
def literal? (cs : List Char) : Option (List Char × List Char) := literalAux [] cs

/-! ## 3. Several lines -/

/-- What is being read inside a string of several lines. -/
inductive LongMode where
  /-- After `quotes` quotes in a row. Three of them close the string, and up to two more may stand
      before those. -/
  | plain (quotes : Nat)
  /-- Inside an escape. -/
  | escape (mode : Mode)
  /-- After a carriage return, which must be followed by a line feed. -/
  | carriage
  /-- After a backslash at the end of a line, with blanks up to the line feed. -/
  | lineEnd
  /-- After that line feed: blanks and line feeds do not count. -/
  | margin
  /-- Inside the margin, after a carriage return. -/
  | marginCarriage

/-- Reads a string of several lines between triple `quote`s, with escapes or without; `acc` is what
    it means so far, in reverse. -/
def longAux (quote : Char) (escapes : Bool) (mode : LongMode) (acc : List Char) :
    List Char → Option (List Char × List Char)
  | [] =>
    match mode with
    | .plain quotes => if 3 ≤ quotes then some ((List.replicate (quotes - 3) quote ++ acc).reverse, []) else none
    | _ => none
  | c :: cs =>
    match mode with
    | .plain quotes =>
      if c = quote then
        if quotes = 4 then some ((List.replicate 2 quote ++ acc).reverse, cs)
        else longAux quote escapes (.plain (quotes + 1)) acc cs
      else if 3 ≤ quotes then
        some ((List.replicate (quotes - 3) quote ++ acc).reverse, c :: cs)
      else
        let acc := List.replicate quotes quote ++ acc
        if c = '\\' ∧ escapes then longAux quote escapes (.escape .escape) acc cs
        else if c = '\n' then longAux quote escapes (.plain 0) ('\n' :: acc) cs
        else if c = '\r' then longAux quote escapes .carriage acc cs
        else if isPlain c then longAux quote escapes (.plain 0) (c :: acc) cs
        else none
    | .carriage => if c = '\n' then longAux quote escapes (.plain 0) ('\n' :: acc) cs else none
    | .escape .escape =>
      if c = ' ' ∨ c = '\t' then longAux quote escapes .lineEnd acc cs
      else if c = '\n' then longAux quote escapes .margin acc cs
      else if c = '\r' then longAux quote escapes .marginCarriage acc cs
      else
        match escapeStep? .escape c with
        | some (.plain, e) => longAux quote escapes (.plain 0) (pushChar? e acc) cs
        | some (mode, e) => longAux quote escapes (.escape mode) (pushChar? e acc) cs
        | none => none
    | .escape mode =>
      match escapeStep? mode c with
      | some (.plain, e) => longAux quote escapes (.plain 0) (pushChar? e acc) cs
      | some (mode, e) => longAux quote escapes (.escape mode) (pushChar? e acc) cs
      | none => none
    | .lineEnd =>
      if c = ' ' ∨ c = '\t' then longAux quote escapes .lineEnd acc cs
      else if c = '\n' then longAux quote escapes .margin acc cs
      else if c = '\r' then longAux quote escapes .marginCarriage acc cs
      else none
    | .marginCarriage => if c = '\n' then longAux quote escapes .margin acc cs else none
    | .margin =>
      if c = ' ' ∨ c = '\t' ∨ c = '\n' then longAux quote escapes .margin acc cs
      else if c = '\r' then longAux quote escapes .marginCarriage acc cs
      else if c = quote then longAux quote escapes (.plain 1) acc cs
      else if c = '\\' then longAux quote escapes (.escape .escape) acc cs
      else if isPlain c then longAux quote escapes (.plain 0) (c :: acc) cs
      else none

/-- Removes a line break at the front. -/
def dropBreak : List Char → List Char
  | '\n' :: cs => cs
  | '\r' :: '\n' :: cs => cs
  | cs => cs

/-- Reads a basic string of several lines. -/
def longBasic? (cs : List Char) : Option (List Char × List Char) :=
  longAux '"' true (.plain 0) [] (dropBreak cs)

/-- Reads a literal string of several lines. -/
def longLiteral? (cs : List Char) : Option (List Char × List Char) :=
  longAux '\x27' false (.plain 0) [] (dropBreak cs)

/-- Reads a string from its opening quotes on. -/
def quotation? : List Char → Option (List Char × List Char)
  | '"' :: '"' :: '"' :: cs => longBasic? cs
  | '\x27' :: '\x27' :: '\x27' :: cs => longLiteral? cs
  | '"' :: cs => basic? cs
  | '\x27' :: cs => literal? cs
  | _ => none

end Recast.Toml
