/-!
# Spans

A span is a half-open range of byte offsets in a source text.
-/

namespace Swimlane

/-- The bytes from `start` up to, but not including, `stop`. -/
structure Span where
  start : Nat
  stop : Nat
  deriving Repr, DecidableEq, Inhabited

namespace Span

/-- Number of bytes; a span that stops before its start has none. -/
def length (s : Span) : Nat := s.stop - s.start

def isEmpty (s : Span) : Bool := s.length = 0

end Span

end Swimlane
