import Mathlib.Data.List.Forall2
import TreeLens.Parsing.Bump

/-!
# Ownership of buffers

What a parser behind a linear memory does to its module. The module is arbitrary: it may give
out any pointers and change its memory in every call. For each source the parser reserves a
buffer and then does one of four things, told apart by the memory that the module leaves
(`Exchange`): nothing, if it was given no buffer; give the buffer back, if that is not in the
memory; have it parsed and give it back, if no answer can be read; or have it parsed and give
back both this buffer and that of the answer.

So every buffer is given back exactly once and with its own length, whatever becomes of the
source (`BufferedParser.calls_parseAll`). The calls are those that a `WatchedModule` writes
down; watching changes no answer (`BufferedParser.parseAll_unwatched`).
-/

namespace TreeLens

/-! ## Reading and writing memory -/

namespace Memory

/-- Whether a range of bytes lies in the memory. Its end is a word, so it may wrap around. -/
def Spans (memory : Memory) (pointer : UInt64) (length : Nat) : Prop :=
  let stop := (pointer.toNat + length) % UInt64.size
  pointer.toNat ≤ stop ∧ stop ≤ memory.length

theorem Spans.le_length {memory : Memory} {pointer : UInt64} {length : Nat}
    (inside : memory.Spans pointer length) : pointer.toNat ≤ memory.length :=
  Nat.le_trans inside.1 inside.2

theorem holds_iff (memory : Memory) (pointer : UInt64) (length : Nat) :
    memory.holds pointer length = true ↔ memory.Spans pointer length := by
  have stop : (pointer + UInt64.ofNat length).toNat =
      (pointer.toNat + length) % UInt64.size := by
    rw [UInt64.toNat_add, UInt64.toNat_ofNat', Nat.add_mod_mod]
  simp only [holds, Spans, Bool.and_eq_true, decide_eq_true_eq, UInt64.le_iff_toNat_le, stop]

/-- Bytes that were written are there. -/
theorem take_drop_write {memory : Memory} {position : Nat} (inside : position ≤ memory.length)
    (bytes : List UInt8) :
    ((memory.write position bytes).drop position).take bytes.length = bytes := by
  have front : (memory.take position).length = position := List.length_take_of_le inside
  rw [write, List.append_assoc, List.drop_left' front, List.take_left]

/-- Nothing can be read from a pointer past the memory, or if no zero byte follows. -/
theorem readZeroEnded?_eq_none_iff (memory : Memory) (pointer : UInt64) :
    memory.readZeroEnded? pointer = none ↔
      memory.length < pointer.toNat ∨ 0 ∉ memory.drop pointer.toNat := by
  simp only [readZeroEnded?, List.contains_iff_mem, ite_eq_right_iff, reduceCtorEq, imp_false,
    Decidable.not_and_iff_or_not, Nat.not_le]

/-- The bytes before the first zero byte are read. -/
theorem readZeroEnded?_of_drop {memory : Memory} {pointer : UInt64} {text rest : List UInt8}
    (cut : memory.drop pointer.toNat = text ++ 0 :: rest) (first : 0 ∉ text) :
    memory.readZeroEnded? pointer = some text := by
  have inside : pointer.toNat ≤ memory.length := by
    have longer := congrArg List.length cut
    simp only [List.length_drop, List.length_append, List.length_cons] at longer
    omega
  have kept : ∀ b ∈ text, (b != 0) = true := by
    intro b member
    rw [bne_iff_ne]
    rintro rfl
    exact first member
  have taken : (text ++ 0 :: rest).takeWhile (· != 0) = text := by
    rw [List.takeWhile_append_of_pos kept, List.takeWhile_cons_of_neg (by decide), List.append_nil]
  simp only [readZeroEnded?, cut, taken]
  rw [if_pos ⟨inside, by simp⟩]

/-- What is read stands before the first zero byte. -/
theorem exists_drop_of_readZeroEnded? {memory : Memory} {pointer : UInt64} {text : List UInt8}
    (read : memory.readZeroEnded? pointer = some text) :
    0 ∉ text ∧ ∃ rest, memory.drop pointer.toNat = text ++ 0 :: rest := by
  have zero : 0 ∈ memory.drop pointer.toNat := by
    by_contra missing
    rw [(readZeroEnded?_eq_none_iff memory pointer).2 (.inr missing)] at read
    cases read
  obtain ⟨other, rest, cut, first⟩ := List.eq_append_cons_of_mem zero
  obtain rfl := Option.some.inj ((readZeroEnded?_of_drop cut first).symm.trans read)
  exact ⟨first, rest, cut⟩

end Memory

/-! ## Watching a module -/

/-- A module together with its calls so far, each with the memory that it left. -/
structure WatchedModule (σ : Type) where
  module : σ
  calls : List (ModuleCall × Memory)

namespace WatchedModule

variable {σ : Type} [ParserModule σ]

instance : ParserModule (WatchedModule σ) where
  alloc m memory length :=
    let (pointer, state, after) := ParserModule.alloc m.module memory length
    (pointer, ⟨state, m.calls ++ [(.alloc length pointer, after)]⟩, after)
  free m memory pointer length :=
    let (state, after) := ParserModule.free m.module memory pointer length
    (⟨state, m.calls ++ [(.free pointer length, after)]⟩, after)
  parse m memory pointer length :=
    let request := (memory.drop pointer.toNat).take length
    let (answer, state, after) := ParserModule.parse m.module memory pointer length
    (answer, ⟨state, m.calls ++ [(.parse pointer length request answer, after)]⟩, after)

/-- Reserving a buffer is one more call. -/
theorem exists_alloc_eq (m : WatchedModule σ) (memory : Memory) (length : Nat) :
    ∃ pointer state after, ParserModule.alloc m memory length =
      (pointer, ⟨state, m.calls ++ [(.alloc length pointer, after)]⟩, after) :=
  ⟨_, _, _, rfl⟩

/-- Parsing is one more call, with what stands in the buffer. -/
theorem exists_parse_eq (m : WatchedModule σ) (memory : Memory) (pointer : UInt64)
    (length : Nat) :
    ∃ answer state after, ParserModule.parse m memory pointer length =
      (answer,
        ⟨state, m.calls ++
          [(.parse pointer length ((memory.drop pointer.toNat).take length) answer, after)]⟩,
        after) :=
  ⟨_, _, _, rfl⟩

end WatchedModule

/-- Giving a buffer back is one more call. -/
theorem BufferedParser.exists_free_eq {σ : Type} [ParserModule σ]
    (p : BufferedParser (WatchedModule σ)) (pointer : UInt64) (length : Nat) :
    ∃ state after, p.free pointer length =
      ⟨⟨state, p.state.calls ++ [(.free pointer length, after)]⟩, after⟩ :=
  ⟨_, _, rfl⟩

/-- The answers of a parser to sources, one after the other, and the parser after them. -/
def SourceParser.parseAll {π : Type} [SourceParser π] (p : π) :
    List String → List (Except ParseFailure Json) × π
  | [] => ([], p)
  | source :: rest =>
    let (answer, p) := SourceParser.parse p source
    let (answers, p) := parseAll p rest
    (answer :: answers, p)

/-! ## The calls for one source -/

/-- The calls for a source of the given bytes, each with the memory it leaves, and the bytes
of the answer or the failure they end with. -/
inductive Exchange (bytes : List UInt8) :
    List (ModuleCall × Memory) → Except ParseFailure (List UInt8) → Prop
  /-- No buffer was given out. -/
  | unallocated {reserved : Memory} :
      Exchange bytes [(.alloc bytes.length 0, reserved)]
        (.error (.allocationFailed bytes.length))
  /-- The buffer that was given out is not in the memory. -/
  | outside {pointer : UInt64} {reserved freed : Memory} (allocated : pointer ≠ 0)
      (outside : ¬ reserved.Spans pointer bytes.length) :
      Exchange bytes
        [(.alloc bytes.length pointer, reserved), (.free pointer bytes.length, freed)]
        (.error (.allocationFailed bytes.length))
  /-- There is no answer, or it cannot be read. -/
  | unanswered {pointer answer : UInt64} {reserved parsed freed : Memory}
      (allocated : pointer ≠ 0) (inside : reserved.Spans pointer bytes.length)
      (unreadable : answer = 0 ∨ freed.length < answer.toNat ∨ 0 ∉ freed.drop answer.toNat) :
      Exchange bytes
        [(.alloc bytes.length pointer, reserved),
          (.parse pointer bytes.length bytes answer, parsed),
          (.free pointer bytes.length, freed)]
        (.error .noResult)
  /-- The answer ends at the first zero byte from its pointer on. -/
  | answered {pointer answer : UInt64} {reserved parsed freed done : Memory}
      {text rest : List UInt8} (allocated : pointer ≠ 0)
      (inside : reserved.Spans pointer bytes.length) (given : answer ≠ 0)
      (cut : freed.drop answer.toNat = text ++ 0 :: rest) (first : 0 ∉ text) :
      Exchange bytes
        [(.alloc bytes.length pointer, reserved),
          (.parse pointer bytes.length bytes answer, parsed),
          (.free pointer bytes.length, freed), (.free answer (text.length + 1), done)]
        (.ok text)

/-- The buffers that calls give back. -/
def freedBuffers (calls : List (ModuleCall × Memory)) : List (UInt64 × Nat) :=
  calls.filterMap fun
    | (.free pointer length, _) => some (pointer, length)
    | _ => none

/-- The buffers that are to be given back after calls: the one that was reserved, unless it
was refused, and the one of the answer with its zero byte, if that was read. -/
def owedBuffers (calls : List (ModuleCall × Memory)) (answer : Except ParseFailure (List UInt8)) :
    List (UInt64 × Nat) :=
  calls.flatMap fun
    | (.alloc length pointer, _) => if pointer = 0 then [] else [(pointer, length)]
    | (.parse _ _ _ pointer, _) => answer.toOption.toList.map fun text => (pointer, text.length + 1)
    | (.free _ _, _) => []

/-- All buffers that are owed are given back, each once and with its length. -/
theorem Exchange.freedBuffers_eq {bytes : List UInt8} {calls : List (ModuleCall × Memory)}
    {answer : Except ParseFailure (List UInt8)} (exchange : Exchange bytes calls answer) :
    freedBuffers calls = owedBuffers calls answer := by
  cases exchange with
  | unallocated => rfl
  | outside allocated => simp [freedBuffers, owedBuffers, allocated]
  | unanswered allocated => simp [freedBuffers, owedBuffers, allocated, Except.toOption]
  | answered allocated => simp [freedBuffers, owedBuffers, allocated, Except.toOption]

namespace BufferedParser

section

variable {σ : Type} [ParserModule σ]

/-- Taking an answer: there is none that can be read, or it is given back as well. -/
theorem takeAnswer_cases (p : BufferedParser σ) (answer : UInt64) :
    ((answer = 0 ∨ p.memory.length < answer.toNat ∨ 0 ∉ p.memory.drop answer.toNat) ∧
        p.takeAnswer answer = (.error .noResult, p)) ∨
      (answer ≠ 0 ∧ ∃ text rest, p.memory.drop answer.toNat = text ++ 0 :: rest ∧ 0 ∉ text ∧
        p.takeAnswer answer = (.ok text, p.free answer (text.length + 1))) := by
  unfold takeAnswer
  by_cases zero : answer = 0
  · exact .inl ⟨.inl zero, if_pos zero⟩
  · rw [if_neg zero]
    cases read : p.memory.readZeroEnded? answer with
    | none =>
        exact .inl ⟨.inr ((Memory.readZeroEnded?_eq_none_iff p.memory answer).1 read), rfl⟩
    | some text =>
        obtain ⟨first, rest, cut⟩ := Memory.exists_drop_of_readZeroEnded? read
        exact .inr ⟨zero, text, rest, cut, first, rfl⟩

/-- A source adds one exchange to the calls of a watched module. -/
theorem exists_calls_exchange (p : BufferedParser (WatchedModule σ)) (source : String) :
    ∃ calls, (p.exchange source).2.state.calls = p.state.calls ++ calls ∧
      Exchange (encodedBytes source) calls (p.exchange source).1 := by
  unfold exchange
  generalize encodedBytes source = bytes
  obtain ⟨pointer, state, reserved, allocates⟩ :=
    WatchedModule.exists_alloc_eq p.state p.memory bytes.length
  simp only [allocates]
  split
  · next zero =>
      subst zero
      exact ⟨_, rfl, .unallocated⟩
  · next allocated =>
      split
      · next holds =>
          have inside := (Memory.holds_iff reserved pointer bytes.length).1 holds
          obtain ⟨answer, state, parsed, parses⟩ := WatchedModule.exists_parse_eq
            ⟨state, p.state.calls ++ [(.alloc bytes.length pointer, reserved)]⟩
            (reserved.write pointer.toNat bytes) pointer bytes.length
          -- The module finds the bytes of the source in its buffer.
          rw [Memory.take_drop_write inside.le_length] at parses
          simp only [parses]
          obtain ⟨state, freed, frees⟩ := exists_free_eq ⟨⟨state, _⟩, parsed⟩ pointer bytes.length
          rw [frees]
          rcases takeAnswer_cases (σ := WatchedModule σ) ⟨_, freed⟩ answer with
            ⟨unreadable, fails⟩ | ⟨given, text, rest, cut, first, taken⟩
          · rw [fails]
            exact ⟨[(.alloc bytes.length pointer, reserved),
              (.parse pointer bytes.length bytes answer, parsed),
              (.free pointer bytes.length, freed)], by simp,
              .unanswered allocated inside unreadable⟩
          · obtain ⟨state, done, frees⟩ := exists_free_eq ⟨⟨state, _⟩, freed⟩ answer
              (text.length + 1)
            rw [taken, frees]
            exact ⟨[(.alloc bytes.length pointer, reserved),
              (.parse pointer bytes.length bytes answer, parsed),
              (.free pointer bytes.length, freed), (.free answer (text.length + 1), done)],
              by simp, .answered allocated inside given cut first⟩
      · next outside =>
          obtain ⟨state, freed, frees⟩ := exists_free_eq ⟨⟨state, _⟩, reserved⟩ pointer bytes.length
          rw [frees]
          exact ⟨[(.alloc bytes.length pointer, reserved), (.free pointer bytes.length, freed)],
            by simp, .outside allocated fun inside =>
              outside ((Memory.holds_iff reserved pointer bytes.length).2 inside)⟩

/-! ## Many sources -/

theorem parse_eq (p : BufferedParser σ) (source : String) :
    SourceParser.parse p source =
      ((p.exchange source).1.bind decode, (p.exchange source).2) := by
  simp only [SourceParser.parse]
  cases p.exchange source with
  | mk answer after => cases answer <;> rfl

/-- The parser over the module itself. -/
def unwatched (p : BufferedParser (WatchedModule σ)) : BufferedParser σ :=
  ⟨p.state.module, p.memory⟩

theorem takeAnswer_unwatched (p : BufferedParser (WatchedModule σ)) (answer : UInt64) :
    p.unwatched.takeAnswer answer =
      ((p.takeAnswer answer).1, (p.takeAnswer answer).2.unwatched) := by
  unfold takeAnswer
  rw [show p.unwatched.memory = p.memory from rfl]
  split
  · rfl
  · split <;> rfl

theorem exchange_unwatched (p : BufferedParser (WatchedModule σ)) (source : String) :
    p.unwatched.exchange source =
      ((p.exchange source).1, (p.exchange source).2.unwatched) := by
  unfold exchange
  obtain ⟨⟨pointer, state, memory⟩, allocates⟩ : ∃ reserved,
      ParserModule.alloc p.state.module p.memory (encodedBytes source).length = reserved :=
    ⟨_, rfl⟩
  simp only [ParserModule.alloc, ParserModule.parse, unwatched, allocates]
  by_cases zero : pointer = 0
  · simp only [if_pos zero]
  · simp only [if_neg zero]
    by_cases inside : memory.holds pointer (encodedBytes source).length
    · simp only [if_pos inside]
      exact takeAnswer_unwatched (free ⟨⟨_, _⟩, _⟩ pointer _) _
    · simp only [if_neg inside]
      rfl

/-- Watching changes no answer. -/
theorem parseAll_unwatched (p : BufferedParser (WatchedModule σ)) (sources : List String) :
    SourceParser.parseAll p.unwatched sources =
      ((SourceParser.parseAll p sources).1, (SourceParser.parseAll p sources).2.unwatched) := by
  induction sources generalizing p with
  | nil => rfl
  | cons source rest ih =>
      simp only [SourceParser.parseAll, parse_eq, exchange_unwatched]
      rw [ih]

/-- The sources add one exchange each to the calls of a watched module. -/
theorem exists_exchanges (p : BufferedParser (WatchedModule σ)) (sources : List String) :
    ∃ exchanges : List (List (ModuleCall × Memory) × Except ParseFailure (List UInt8)),
      List.Forall₂ (fun source e => Exchange (encodedBytes source) e.1 e.2) sources exchanges ∧
        (SourceParser.parseAll p sources).2.state.calls =
          p.state.calls ++ exchanges.flatMap (·.1) ∧
        (SourceParser.parseAll p sources).1 = exchanges.map fun e => e.2.bind decode := by
  induction sources generalizing p with
  | nil => exact ⟨[], .nil, (List.append_nil _).symm, rfl⟩
  | cons source rest ih =>
      obtain ⟨calls, now, exchange⟩ := exists_calls_exchange p source
      obtain ⟨exchanges, later, logged, answers⟩ := ih (p.exchange source).2
      refine ⟨(calls, (p.exchange source).1) :: exchanges, .cons exchange later, ?_, ?_⟩
      · simp only [SourceParser.parseAll, parse_eq, logged, now, List.flatMap_cons,
          List.append_assoc]
      · simp only [SourceParser.parseAll, parse_eq, answers, List.map_cons]

/-- The calls that sources lead to, each with the memory that it leaves. -/
def calls (p : BufferedParser σ) (sources : List String) : List (ModuleCall × Memory) :=
  (SourceParser.parseAll (⟨⟨p.state, []⟩, p.memory⟩ : BufferedParser (WatchedModule σ))
    sources).2.state.calls

/-- **Ownership of buffers.** Whatever the module does, the calls for some sources, one after
the other, are one exchange for each of them, and the answer to a source is what the bytes of
its exchange stand for, if there are any. All in all exactly the buffers that are owed are
given back, each once and with its own length: those that were reserved, and those of the
answers that were read, with their zero bytes. -/
theorem calls_parseAll (p : BufferedParser σ) (sources : List String) :
    ∃ exchanges : List (List (ModuleCall × Memory) × Except ParseFailure (List UInt8)),
      List.Forall₂ (fun source e => Exchange (encodedBytes source) e.1 e.2) sources exchanges ∧
        p.calls sources = exchanges.flatMap (·.1) ∧
        (SourceParser.parseAll p sources).1 = (exchanges.map fun e => e.2.bind decode) ∧
        freedBuffers (p.calls sources) = exchanges.flatMap fun e => owedBuffers e.1 e.2 := by
  let watched : BufferedParser (WatchedModule σ) := ⟨⟨p.state, []⟩, p.memory⟩
  obtain ⟨exchanges, each, logged, answers⟩ := exists_exchanges watched sources
  have all : p.calls sources = exchanges.flatMap (·.1) := logged
  refine ⟨exchanges, each, all, ?_, ?_⟩
  · rw [show p = watched.unwatched from rfl, parseAll_unwatched]
    exact answers
  · -- By induction on the exchanges: each of them settles its own buffers.
    rw [all]
    clear all logged answers
    induction each with
    | nil => rfl
    | cons exchange _ ih =>
        rw [List.flatMap_cons, List.flatMap_cons, ← ih, ← exchange.freedBuffers_eq]
        exact List.filterMap_append

end

end BufferedParser

end TreeLens
