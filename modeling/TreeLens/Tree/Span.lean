/-!
# Byte spans

Positions and sizes are natural numbers; the program's own sizes never exceed `maxSize`,
and sums that would pass it stop there.
-/

namespace TreeLens

/-- The greatest size: sizes and times are unsigned 64-bit numbers. -/
def maxSize : Nat := 0xFFFFFFFFFFFFFFFF

/-- A sum that stops at `maxSize`. -/
def addSize (a b : Nat) : Nat :=
  min (a + b) maxSize

/-- The bytes from `start` up to but not including `stop`. -/
structure Span where
  start : Nat
  stop : Nat
deriving DecidableEq, Repr, Inhabited

/-- The number of bytes; a span that stops before it starts has none. -/
def Span.length (s : Span) : Nat :=
  s.stop - s.start

def Span.isEmpty (s : Span) : Bool :=
  s.length == 0

end TreeLens
