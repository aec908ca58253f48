/-!
# Source spans

A `Span` is the byte range of the source text that a statement, function or diagnostic belongs
to. The span `Span.none`, which is `0..0`, stands for "no source location", and `Span.merge`
treats it as neutral: `merge_none` and `none_merge`.
-/

set_option autoImplicit false
set_option relaxedAutoImplicit false

namespace IteratorLowering

/-- A byte range of the source text. -/
structure Span where
  start : Nat
  stop : Nat
  deriving DecidableEq, Repr, Inhabited

namespace Span

/-- The span of code without a source location. -/
def none : Span := ⟨0, 0⟩

/-- Whether the span carries no source location. -/
def isNone (span : Span) : Bool := span == none

/-- The smallest span that covers both. A span without a location adds nothing. -/
def merge (first second : Span) : Span :=
  if first.isNone then second
  else if second.isNone then first
  else ⟨min first.start second.start, max first.stop second.stop⟩

/-- The written form `start..stop`. -/
def text (span : Span) : String := s!"{span.start}..{span.stop}"

@[simp] theorem none_merge (span : Span) : none.merge span = span := by
  simp [merge, isNone]

@[simp] theorem merge_none (span : Span) : span.merge none = span := by
  by_cases h : span = none <;> simp [merge, isNone, h]

end Span

end IteratorLowering
