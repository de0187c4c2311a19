/-!
# Spans

A span is a half-open range of byte offsets. Its start is never past its end: that is part of the
type, and `Span.of?` is the one place where two loose offsets become a span.
-/

namespace Recast

/-- A half-open range of byte offsets. -/
structure Span where
  start : Nat
  stop : Nat
  start_le_stop : start ≤ stop
deriving DecidableEq

namespace Span

/-- The span between two offsets, if they are in order. -/
def of? (start stop : Nat) : Option Span :=
  if h : start ≤ stop then some ⟨start, stop, h⟩ else none

/-- The span of `length` bytes from `start` on. -/
def ofLength (start length : Nat) : Span := ⟨start, start + length, Nat.le_add_right _ _⟩

/-- The number of bytes in a span. -/
def length (s : Span) : Nat := s.stop - s.start

/-- Whether every offset of `inner` is one of `outer`, the two ends included. -/
def contains (outer inner : Span) : Bool := outer.start ≤ inner.start && inner.stop ≤ outer.stop

/-- `start..stop`, as messages show it. -/
def render (s : Span) : String := s!"{s.start}..{s.stop}"

theorem contains_iff {outer inner : Span} :
    outer.contains inner = true ↔ outer.start ≤ inner.start ∧ inner.stop ≤ outer.stop := by
  simp [contains]

theorem contains_trans {a b c : Span} (h₁ : a.contains b = true) (h₂ : b.contains c = true) :
    a.contains c = true := by
  simp only [contains_iff] at *
  omega

@[simp] theorem ofLength_length (start length : Nat) : (ofLength start length).length = length := by
  simp [ofLength, Span.length]

theorem ofLength_start_length (s : Span) : ofLength s.start s.length = s := by
  obtain ⟨a, b, h⟩ := s
  simp only [ofLength, Span.length, mk.injEq, true_and]
  omega

end Span

end Recast
