import TreeLens.Tree.Span

/-!
# Byte and character offsets

Spans count bytes of the encoded source and an editor counts characters, in one of two
units. An `OffsetTable` has an entry for every byte: the number of units before the
character that the byte belongs to. `OffsetTable.offsetAt` and `OffsetTable.rangeOf`
clamp whatever lies past the text.
-/

namespace TreeLens

/-- What an editor counts. -/
inductive TextUnit where
  | scalar
  /-- Sixteen-bit code units: a character beyond the basic plane is two. -/
  | utf16
deriving DecidableEq, Repr, Inhabited

/-- What the second bound of a span means. -/
inductive SpanConvention where
  /-- The first byte after the span. -/
  | halfOpen
  /-- The last byte of the span. -/
  | inclusive
deriving DecidableEq, Repr, Inhabited

/-- The units from `start` up to but not including `stop`. -/
structure CharRange where
  start : Nat
  stop : Nat
deriving DecidableEq, Repr

def encodedBytes (text : String) : List UInt8 :=
  text.toUTF8.data.toList

/-- Bytes of the form `10xxxxxx` continue a character. -/
def isContinuation (b : UInt8) : Bool :=
  b &&& 0xC0 == 0x80

/-- The width of the character that a byte starts. Characters beyond the basic plane are
the ones of four bytes, whose first byte is at least `0xF0`. -/
def TextUnit.widthOfLead : TextUnit → UInt8 → Nat
  | .scalar, _ => 1
  | .utf16, lead => if 0xF0 ≤ lead then 2 else 1

structure OffsetTable where
  offsets : Array Nat
  charLength : Nat
  unit : TextUnit
deriving DecidableEq, Repr, Inhabited

/-- A table under construction: the units before the current character, and that
character's width. -/
structure OffsetScan where
  offsets : Array Nat
  before : Nat
  width : Nat

/-- Takes one byte: a byte that starts a character first counts the character before
it. -/
def OffsetScan.push (unit : TextUnit) (scan : OffsetScan) (b : UInt8) : OffsetScan :=
  if isContinuation b then { scan with offsets := scan.offsets.push scan.before }
  else
    let before := scan.before + scan.width
    ⟨scan.offsets.push before, before, unit.widthOfLead b⟩

namespace OffsetTable

def build (unit : TextUnit) (text : String) : OffsetTable :=
  let scan := (encodedBytes text).foldl (OffsetScan.push unit) ⟨#[], 0, 0⟩
  ⟨scan.offsets, scan.before + scan.width, unit⟩

def byteLength (t : OffsetTable) : Nat :=
  t.offsets.size

def isEmpty (t : OffsetTable) : Bool :=
  t.byteLength == 0

/-- The entry of a byte of the text. -/
def get? (t : OffsetTable) (byte : Nat) : Option Nat :=
  t.offsets[byte]?

/-- The entry of a byte, or of the last one for a byte past the text; zero for an empty
text. -/
def offsetAt (t : OffsetTable) (byte : Nat) : Nat :=
  (t.get? (min byte (t.byteLength - 1))).getD 0

/-- The first byte after a span. -/
def stopByte : SpanConvention → Span → Nat
  | .halfOpen, span => span.stop
  | .inclusive, span => addSize span.stop 1

/-- The units of a span; a span that stops before it starts is empty. -/
def rangeOf (t : OffsetTable) (convention : SpanConvention) (span : Span) : CharRange :=
  let start := t.offsetAt span.start
  ⟨start, max ((t.get? (stopByte convention span)).getD t.charLength) start⟩

end OffsetTable

end TreeLens
