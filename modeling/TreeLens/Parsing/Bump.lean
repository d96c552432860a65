import TreeLens.Json.Writer
import TreeLens.Parsing.Buffered
import TreeLens.Text.Lossy

/-!
# A module that never reuses memory

`BumpModule` reserves buffers at the end of its memory and ignores what is given back.
Its answers and pointers can be prepared; without a prepared answer it echoes the
source. It keeps a log of its calls.
-/

namespace TreeLens

/-- A call of a module, with its arguments and result. -/
inductive ModuleCall where
  | alloc (length : Nat) (pointer : UInt64)
  | free (pointer : UInt64) (length : Nat)
  | parse (pointer : UInt64) (length : Nat) (request : List UInt8) (answer : UInt64)
deriving DecidableEq, Repr

/-- A prepared answer. -/
inductive BumpAnswer where
  /-- A pointer as it is. -/
  | pointer (p : UInt64)
  /-- Bytes, with a zero byte after them or without. -/
  | body (bytes : List UInt8) (ended : Bool)
  /-- The source itself, as data, with a zero byte after it or without. -/
  | echo (ended : Bool)

/-- What is prepared, and the calls so far, latest first. -/
structure BumpModule where
  pointers : List (Option UInt64)
  answers : List BumpAnswer
  log : List ModuleCall

namespace BumpModule

def fresh : BumpModule :=
  ⟨[], [], []⟩

/-- Reserves bytes at the end of the memory; position zero is never given out. -/
def bump (memory : Memory) (length : Nat) : UInt64 × Memory :=
  let memory := if memory.isEmpty then [0] else memory
  (UInt64.ofNat memory.length, memory ++ List.replicate length 0)

/-- Puts an answer at the end of the memory. -/
def place (memory : Memory) (bytes : List UInt8) (ended : Bool) : UInt64 × Memory :=
  let (pointer, memory) := bump memory (bytes.length + if ended then 1 else 0)
  (pointer, memory.write pointer.toNat bytes)

/-- The echo of a request: an object with the request's text, also if its bytes are no
text as a whole. -/
def echoBody (request : List UInt8) : List UInt8 :=
  encodedBytes (Json.obj [("source", .str (lossyText request))]).compact

/-- Reserves a buffer, or gives out the next prepared pointer. -/
def alloc (m : BumpModule) (memory : Memory) (length : Nat) : UInt64 × BumpModule × Memory :=
  let (pointer, memory) :=
    match m.pointers with
    | some pointer :: _ => (pointer, memory)
    | _ => bump memory length
  (pointer, { m with pointers := m.pointers.tail, log := .alloc length pointer :: m.log }, memory)

/-- Gives the next prepared answer, or the echo of the request. -/
def parse (m : BumpModule) (memory : Memory) (pointer : UInt64) (length : Nat) :
    UInt64 × BumpModule × Memory :=
  let request := (memory.drop pointer.toNat).take length
  let (answer, memory) :=
    match m.answers.head? with
    | some (.pointer p) => (p, memory)
    | some (.body bytes ended) => place memory bytes ended
    | some (.echo ended) => place memory (echoBody request) ended
    | none => place memory (echoBody request) true
  (answer,
    { m with answers := m.answers.tail, log := .parse pointer length request answer :: m.log },
    memory)

end BumpModule

instance : ParserModule BumpModule where
  alloc := BumpModule.alloc
  free m memory pointer length := ({ m with log := .free pointer length :: m.log }, memory)
  parse := BumpModule.parse

end TreeLens
