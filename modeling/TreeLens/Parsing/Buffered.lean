import TreeLens.Json.Reader
import TreeLens.Parsing.Parser
import TreeLens.Source.Offsets

/-!
# Parsers behind a linear memory

A parser module has a memory of its own and three calls: one that reserves a buffer, one
that gives a buffer back, and one that parses the text of a buffer. Pointers are 64-bit
words and zero means failure. The caller copies the source into a buffer it has
reserved, and gives back that buffer and the one with the answer, which ends at the
first zero byte.
-/

namespace TreeLens

abbrev Memory := List UInt8

/-- The calls of a parser module with state `σ`. Every call may change the state and the
memory. -/
class ParserModule (σ : Type) where
  alloc : σ → Memory → Nat → UInt64 × σ × Memory
  free : σ → Memory → UInt64 → Nat → σ × Memory
  parse : σ → Memory → UInt64 → Nat → UInt64 × σ × Memory

namespace Memory

/-- Bytes copied over those from a position on. -/
def write (memory : Memory) (position : Nat) (bytes : List UInt8) : Memory :=
  memory.take position ++ bytes ++ memory.drop (position + bytes.length)

/-- Whether a buffer lies in the memory; the end of a buffer is a word, so it may wrap
around. -/
def holds (memory : Memory) (pointer : UInt64) (length : Nat) : Bool :=
  let stop := pointer + UInt64.ofNat length
  pointer ≤ stop && stop.toNat ≤ memory.length

/-- The bytes from a pointer up to the first zero byte, if there is one. -/
def readZeroEnded? (memory : Memory) (pointer : UInt64) : Option (List UInt8) :=
  let tail := memory.drop pointer.toNat
  if pointer.toNat ≤ memory.length ∧ tail.contains 0 then some (tail.takeWhile (· != 0)) else none

end Memory

/-- A parser module with its memory, used as a source parser. -/
structure BufferedParser (σ : Type) where
  state : σ
  memory : Memory

namespace BufferedParser

variable {σ : Type} [ParserModule σ]

def free (p : BufferedParser σ) (pointer : UInt64) (length : Nat) : BufferedParser σ :=
  let (state, memory) := ParserModule.free p.state p.memory pointer length
  ⟨state, memory⟩

/-- Takes the answer at a pointer out of the memory and gives its buffer back. -/
def takeAnswer (p : BufferedParser σ) (pointer : UInt64) :
    Except ParseFailure (List UInt8) × BufferedParser σ :=
  if pointer = 0 then (.error .noResult, p)
  else
    match p.memory.readZeroEnded? pointer with
    | none => (.error .noResult, p)
    | some answer => (.ok answer, p.free pointer (answer.length + 1))

/-- Sends a source to the module and takes its answer. -/
def exchange (p : BufferedParser σ) (source : String) :
    Except ParseFailure (List UInt8) × BufferedParser σ :=
  let bytes := encodedBytes source
  let length := bytes.length
  let (pointer, state, memory) := ParserModule.alloc p.state p.memory length
  if pointer = 0 then (.error (.allocationFailed length), ⟨state, memory⟩)
  else if memory.holds pointer length then
    let (answer, state, memory) :=
      ParserModule.parse state (memory.write pointer.toNat bytes) pointer length
    (free ⟨state, memory⟩ pointer length).takeAnswer answer
  else (.error (.allocationFailed length), free ⟨state, memory⟩ pointer length)

/-- The result that the bytes of an answer stand for. -/
def decode (answer : List UInt8) : Except ParseFailure Json :=
  match String.fromUTF8? ⟨answer.toArray⟩ with
  | none => .error .invalidEncoding
  | some text =>
    match Json.read? text with
    | none => .error (.malformedJson "不符合 JSON 语法")
    | some result => result.accepted

instance : SourceParser (BufferedParser σ) where
  parse p source :=
    match p.exchange source with
    | (.error failure, p) => (.error failure, p)
    | (.ok answer, p) => (decode answer, p)

end BufferedParser

end TreeLens
