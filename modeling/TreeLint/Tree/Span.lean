/-! Byte ranges of a source text. Both ends are exact for texts shorter than 2^32 bytes, where
numbers of 32 bits can hold them. -/

namespace TreeLint

/-- The bytes from `start` up to, but not including, `stop`. -/
structure Span where
  start : Nat
  stop : Nat
  deriving DecidableEq

namespace Span

def length (span : Span) : Nat :=
  span.stop - span.start

def contains (span : Span) (offset : Nat) : Bool :=
  span.start ≤ offset && offset < span.stop

/-- Two spans overlap when each starts before the other ends. -/
def overlaps (first second : Span) : Bool :=
  first.start < second.stop && second.start < first.stop

def display (span : Span) : String :=
  s!"{span.start}..{span.stop}"

end Span

end TreeLint
