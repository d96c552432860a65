/-!
# White space

The characters that stand for empty space in any script: the controls from tab to
carriage return, the next-line control, and the space, separator and fixed-width space
characters. Joiners and the zero-width space are not among them.
-/

namespace TreeLens

/-- The code points of white space, as ranges with their ends, in ascending order. -/
def whiteSpaceRanges : List (Nat × Nat) :=
  [(0x0009, 0x000D), (0x0020, 0x0020), (0x0085, 0x0085), (0x00A0, 0x00A0), (0x1680, 0x1680),
   (0x2000, 0x200A), (0x2028, 0x2029), (0x202F, 0x202F), (0x205F, 0x205F), (0x3000, 0x3000)]

def isWhiteSpace (c : Char) : Bool :=
  whiteSpaceRanges.any fun range => range.1 ≤ c.toNat && c.toNat ≤ range.2

end TreeLens
