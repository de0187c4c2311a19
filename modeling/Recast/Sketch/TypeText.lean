import Recast.Text.Search

/-!
# Types as they are written

The text of a reference to a type, taken apart: arrays, generic types with their arguments,
wildcards with their bounds, primitive types and names. Any text at all is a type of some shape;
what makes no sense is a name.

Every part is shorter than the whole, which is why taking apart comes to an end.
-/

namespace Recast

/-- The shape of a reference to a type, each part with its text. -/
inductive TypeText where
  | array (text : List Char) (element : TypeText)
  | generic (text : List Char) (base : TypeText) (arguments : List TypeText)
  | wildcard (text : List Char) (bound : Option TypeText)
  | primitive (text : List Char)
  | named (text : List Char)

namespace TypeText

/-- The names of the primitive types. -/
def primitives : List String :=
  ["boolean", "byte", "char", "double", "float", "int", "long", "short", "void"]

/-- The text of a generic type in two: what is before the first angle bracket, and what is between
    it and the last character, which must be the closing one. -/
def splitGeneric? (cs : List Char) : Option (List Char × List Char) :=
  match Text.splitAtChar? '<' cs with
  | none => none
  | some (base, rest) => if rest.getLast? = some '>' then some (base, rest.dropLast) else none

theorem length_of_splitGeneric? {cs base inner : List Char}
    (h : splitGeneric? cs = some (base, inner)) : base.length + inner.length < cs.length := by
  simp only [splitGeneric?] at h
  split at h
  · simp at h
  · rename_i b r hs
    split at h
    · obtain ⟨rfl, rfl⟩ := Prod.mk.inj (Option.some.inj h)
      have := Text.splitAtChar?_eq_some hs
      simp only [this, List.length_append, List.length_cons, List.length_dropLast]
      omega
    · simp at h

/-- The bound of a wildcard, from what stands after its question mark. -/
def bound? (cs : List Char) : Option (List Char) :=
  let cs := Text.trimStart cs
  match Text.dropFront? "extends".toList cs with
  | some bound => some bound
  | none => Text.dropFront? "super".toList cs

theorem length_of_bound? {cs bound : List Char} (h : bound? cs = some bound) :
    bound.length ≤ cs.length := by
  have ht := Text.length_trimStart_le cs
  simp only [bound?] at h
  split at h
  · rename_i b hb
    have := Text.length_of_dropFront? hb
    cases h
    omega
  · have := Text.length_of_dropFront? h
    omega

mutual

/-- Takes the text of a type apart. Blanks at its ends do not belong to it. -/
def ofChars (cs : List Char) : TypeText :=
  match _h : Text.dropBack? "[]".toList (Text.trim cs) with
  | some element => .array (Text.trim cs) (ofChars element)
  | none =>
    match _h : splitGeneric? (Text.trim cs) with
    | some (base, inner) =>
      .generic (Text.trim cs) (ofChars base)
        ((Text.splitTopLevel inner).attach.map fun ⟨a, _⟩ => ofArgument a)
    | none =>
      if primitives.contains (String.ofList (Text.trim cs)) then .primitive (Text.trim cs)
      else .named (Text.trim cs)
termination_by (cs.length, 0)
decreasing_by
  all_goals
    have ht : (Text.trim cs).length ≤ cs.length := Text.length_trim_le cs
    apply Prod.Lex.left
  · have := Text.length_of_dropBack? _h
    have h2 : "[]".toList.length = 2 := rfl
    omega
  · have := length_of_splitGeneric? _h
    omega
  · have h1 := length_of_splitGeneric? _h
    have h2 := Text.length_of_mem_splitTopLevel ‹_›
    omega

/-- Takes a type argument apart: a wildcard, or a type. -/
def ofArgument (cs : List Char) : TypeText :=
  match cs with
  | '?' :: rest =>
    match _h : bound? rest with
    | some bound => .wildcard ('?' :: rest) (some (ofChars bound))
    | none => .wildcard ('?' :: rest) none
  | cs => ofChars cs
termination_by (cs.length, 1)
decreasing_by
  · have := length_of_bound? _h
    apply Prod.Lex.left
    simp only [List.length_cons]
    omega
  · apply Prod.Lex.right
    omega

end

/-- The text of a type. -/
def text : TypeText → List Char
  | .array text _ | .generic text _ _ | .wildcard text _ | .primitive text | .named text => text

end TypeText

end Recast
