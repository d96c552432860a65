import TreeLens.Proofs.Json.Quoting
import TreeLens.Proofs.Parsing.Buffers
import TreeLens.Proofs.Source.Offsets

/-!
# Sources through a module and back

A module that puts every buffer at the end of its memory and echoes its requests. For one source
the bytes of the request, the bytes of the answer and a zero byte go to the end of the memory
(`BumpModule.echoed`), and nothing that was there changes. The answer holds no zero byte, since
control characters are escaped in it, so that it ends where it should and is read back as the
source (`BufferedParser.exists_exchange_echo`). This holds again for the memory after it, and so
for any number of sources (`BufferedParser.parseAll_echo`). The module reads any bytes as text,
and those of a text as that text (`lossyText_encodedBytes`).
-/

namespace TreeLens

/-! ## Bytes other than zero -/

theorem zero_not_mem_utf8EncodeChar {c : Char} (other : c ≠ '\x00') :
    0 ∉ String.utf8EncodeChar c := by
  have code : 0 < c.val.toNat := by
    refine Nat.pos_of_ne_zero fun zero => other ?_
    exact Char.toNat_inj.1 zero
  have nonzero : ∀ ns : List Nat, (∀ n ∈ ns, 0 < n ∧ n < 256) → 0 ∉ ns.map UInt8.ofNat := by
    intro ns bounds zero
    obtain ⟨n, member, same⟩ := List.mem_map.1 zero
    obtain ⟨positive, small⟩ := bounds n member
    have values := congrArg UInt8.toNat same
    rw [UInt8.toNat_ofNat', Nat.mod_eq_of_lt small] at values
    exact Nat.ne_of_gt positive values
  unfold String.utf8EncodeChar
  simp only
  -- One case for each number of bytes; of several bytes all have their highest bit set.
  split
  · exact nonzero [_] (List.forall_mem_singleton.2 ⟨code, by omega⟩)
  · split
    · exact nonzero [_, _] (by simp; omega)
    · split
      · exact nonzero [_, _, _] (by simp; omega)
      · exact nonzero [_, _, _, _] (by simp; omega)

/-- Only the zero character is encoded with a zero byte. -/
theorem zero_not_mem_encodedBytes {text : String} (other : '\x00' ∉ text.toList) :
    0 ∉ encodedBytes text := by
  rw [encodedBytes_eq]
  intro zero
  obtain ⟨c, member, inside⟩ := List.mem_flatMap.1 zero
  refine zero_not_mem_utf8EncodeChar ?_ inside
  rintro rfl
  exact other member

/-! ## Requests read as text -/

section

variable {bits low high n lead : Nat} {begun : BegunChar} (rest : List UInt8)

theorem lossyChars_lead (large : 0x80 ≤ lead) (small : lead < 256)
    (begins : BegunChar.ofLead? lead = some begun) :
    lossyChars none (UInt8.ofNat lead :: rest) = lossyChars (some begun) rest := by
  rw [lossyChars, UInt8.toNat_ofNat', Nat.mod_eq_of_lt small]
  simp only [BegunChar.start, if_neg (Nat.not_lt.2 large), begins, List.nil_append]

/-- A byte that goes on with a character adds six bits. -/
theorem lossyChars_goOn (due : Nat) (small : n < 64) (inside : low ≤ n + 128 ∧ n + 128 ≤ high) :
    lossyChars (some ⟨bits, due + 2, low, high⟩) (UInt8.ofNat (n + 128) :: rest) =
      lossyChars (some ⟨64 * bits + n, due + 1, 0x80, 0xBF⟩) rest := by
  have six : (n + 128) % 64 = n := by omega
  rw [lossyChars, UInt8.toNat_ofNat', Nat.mod_eq_of_lt (by omega)]
  simp only [BegunChar.goOn, if_pos inside, six, if_neg (show ¬ due + 2 ≤ 1 by omega),
    List.nil_append, Nat.add_succ_sub_one]

/-- The last byte of a character completes it. -/
theorem lossyChars_last (small : n < 64) (inside : low ≤ n + 128 ∧ n + 128 ≤ high) :
    lossyChars (some ⟨bits, 1, low, high⟩) (UInt8.ofNat (n + 128) :: rest) =
      Char.ofNat (64 * bits + n) :: lossyChars none rest := by
  have six : (n + 128) % 64 = n := by omega
  rw [lossyChars, UInt8.toNat_ofNat', Nat.mod_eq_of_lt (by omega)]
  simp only [BegunChar.goOn, if_pos inside, six, Nat.le_refl, if_true, List.singleton_append]

theorem lossyChars_utf8EncodeChar (c : Char) :
    lossyChars none (String.utf8EncodeChar c ++ rest) = c :: lossyChars none rest := by
  have valid : c.val.toNat < 0xD800 ∨ 0xDFFF < c.val.toNat ∧ c.val.toNat < 0x110000 := c.valid
  have whole {v : Nat} (same : v = c.val.toNat) : Char.ofNat v = c := by
    rw [same]
    exact Char.ofNat_toNat c
  unfold String.utf8EncodeChar
  simp only
  -- One case for each number of bytes; the bounds of the second one are those of its lead.
  split
  · rw [List.singleton_append, lossyChars, UInt8.toNat_ofNat', Nat.mod_eq_of_lt (by omega)]
    simp only [BegunChar.start, if_pos (show c.val.toNat < 0x80 by omega), whole rfl,
      List.singleton_append]
  · split
    · rw [List.cons_append, List.singleton_append,
        lossyChars_lead _ (by omega) (by omega)
          (by rw [BegunChar.ofLead?, if_neg (by omega), if_pos (by omega)]),
        lossyChars_last _ (by omega) (by omega), whole (by omega)]
    · split
      · rw [List.cons_append, List.cons_append, List.singleton_append,
          lossyChars_lead _ (by omega) (by omega)
            (by rw [BegunChar.ofLead?, if_neg (by omega), if_neg (by omega), if_pos (by omega)]),
          lossyChars_goOn _ 0 (by omega) (by split <;> split <;> omega),
          lossyChars_last _ (by omega) (by omega), whole (by omega)]
      · rw [List.cons_append, List.cons_append, List.cons_append, List.singleton_append,
          lossyChars_lead _ (by omega) (by omega)
            (by rw [BegunChar.ofLead?, if_neg (by omega), if_neg (by omega), if_neg (by omega),
              if_pos (by omega)]),
          lossyChars_goOn _ 1 (by omega) (by split <;> split <;> omega),
          lossyChars_goOn _ 0 (by omega) (by omega),
          lossyChars_last _ (by omega) (by omega), whole (by omega)]

end

/-- Nothing is lost of bytes that are text. -/
theorem lossyText_encodedBytes (text : String) : lossyText (encodedBytes text) = text := by
  have chars (cs : List Char) : lossyChars none (cs.flatMap String.utf8EncodeChar) = cs := by
    induction cs with
    | nil => rfl
    | cons c rest ih => rw [List.flatMap_cons, lossyChars_utf8EncodeChar, ih]
  rw [lossyText, encodedBytes_eq, chars, String.ofList_toList]

/-! ## The end of a memory -/

namespace Memory

/-- The end of a memory is a pointer if the memory is small enough. -/
theorem toNat_ofNat_length {memory : Memory} (fits : memory.length ≤ maxSize) :
    (UInt64.ofNat memory.length).toNat = memory.length :=
  UInt64.toNat_ofNat_of_lt (Nat.lt_succ_of_le fits)

theorem ofNat_length_ne_zero {memory : Memory} (nonempty : memory ≠ [])
    (fits : memory.length ≤ maxSize) : UInt64.ofNat memory.length ≠ 0 := by
  intro zero
  have empty : memory.length = 0 := by
    rw [← toNat_ofNat_length fits, zero]
    rfl
  exact nonempty (List.eq_nil_of_length_eq_zero empty)

/-- Bytes written over as many others. -/
theorem write_append (front : Memory) {old bytes : List UInt8} (back : List UInt8)
    (same : old.length = bytes.length) :
    Memory.write (front ++ (old ++ back)) front.length bytes = front ++ (bytes ++ back) := by
  rw [write, List.take_left, ← List.drop_drop, List.drop_left, ← same, List.drop_left,
    List.append_assoc]

/-- Bytes written into a buffer at the end. -/
theorem write_replicate (front : Memory) (bytes : List UInt8) :
    Memory.write (front ++ List.replicate bytes.length 0) front.length bytes = front ++ bytes := by
  simpa using write_append front [] (List.length_replicate (n := bytes.length) (a := 0))

/-- A buffer at the end lies in the memory. -/
theorem holds_replicate (front : Memory) {length : Nat} (fits : front.length + length ≤ maxSize) :
    Memory.holds (front ++ List.replicate length 0) (UInt64.ofNat front.length) length = true := by
  have unwrapped : front.length + length < UInt64.size := Nat.lt_succ_of_le fits
  rw [holds_iff, Spans, toNat_ofNat_length (by omega), Nat.mod_eq_of_lt unwrapped]
  simp

end Memory

/-- An answer that is there is taken. -/
theorem BufferedParser.takeAnswer_of_drop {σ : Type} [ParserModule σ] {p : BufferedParser σ}
    {answer : UInt64} {text rest : List UInt8} (given : answer ≠ 0)
    (cut : p.memory.drop answer.toNat = text ++ 0 :: rest) (first : 0 ∉ text) :
    p.takeAnswer answer = (.ok text, p.free answer (text.length + 1)) := by
  rw [takeAnswer, if_neg given, Memory.readZeroEnded?_of_drop cut first]

/-! ## Echoes -/

namespace BumpModule

/-- The echo of a source, as data. -/
def echo (source : String) : Json :=
  .obj [("source", .str source)]

theorem echoBody_encodedBytes (source : String) :
    echoBody (encodedBytes source) = encodedBytes (echo source).compact := by
  rw [echoBody, lossyText_encodedBytes]
  rfl

/-- An echo holds no zero byte, also if the source does. -/
theorem zero_not_mem_echo (source : String) : 0 ∉ encodedBytes (echo source).compact := by
  refine zero_not_mem_encodedBytes fun member => ?_
  have printed : 0x20 ≤ '\x00'.toNat := Json.le_toNat_of_mem_compact_text member
  exact absurd printed (by decide)

theorem decode_echo (source : String) :
    BufferedParser.decode (encodedBytes (echo source).compact) = .ok (echo source) := by
  rw [BufferedParser.decode, fromUTF8?_encodedBytes]
  simp only [echo, Json.read?_compact_text]
  rfl

/-- A memory in which position zero is taken. -/
def reserved (memory : Memory) : Memory :=
  if memory.isEmpty then [0] else memory

theorem reserved_ne_nil (memory : Memory) : reserved memory ≠ [] := by
  unfold reserved
  split
  · simp
  · next nonempty => simpa using nonempty

/-- The memory after a source was echoed. -/
def echoed (memory : Memory) (source : String) : Memory :=
  reserved memory ++ encodedBytes source ++ (encodedBytes (echo source).compact ++ [0])

theorem length_echoed (memory : Memory) (source : String) :
    (echoed memory source).length = (reserved memory ++ encodedBytes source).length +
      ((encodedBytes (echo source).compact).length + 1) := by
  simp [echoed, Nat.add_assoc]

theorem length_le_foldl_echoed (memory : Memory) (sources : List String) :
    memory.length ≤ (sources.foldl echoed memory).length := by
  induction sources generalizing memory with
  | nil => exact Nat.le_refl _
  | cons source rest ih =>
      have kept : memory.length ≤ (reserved memory).length := by
        unfold reserved
        split
        · next empty => simp [List.isEmpty_iff.1 empty]
        · exact Nat.le_refl _
      have grown := length_echoed memory source
      have later := ih (echoed memory source)
      rw [List.length_append] at grown
      rw [List.foldl_cons]
      omega

/-- An answer at the end of a memory that is not empty, with a zero byte after it. -/
theorem place_of_ne_nil {memory : Memory} (nonempty : memory ≠ [])
    (fits : memory.length ≤ maxSize) (bytes : List UInt8) :
    place memory bytes true = (UInt64.ofNat memory.length, memory ++ (bytes ++ [0])) := by
  have kept : reserved memory = memory := if_neg (by simpa using nonempty)
  have grown : bump memory (bytes.length + 1) =
      (UInt64.ofNat memory.length, memory ++ (List.replicate bytes.length 0 ++ [0])) := by
    rw [← List.replicate_succ']
    show (UInt64.ofNat (reserved memory).length, reserved memory ++ _) = _
    rw [kept]
  simp only [place, if_true, grown]
  rw [Memory.toNat_ofNat_length fits, Memory.write_append _ _ (by simp)]

theorem exists_alloc_echo (log : List ModuleCall) (memory : Memory) (length : Nat) :
    ∃ calls, ParserModule.alloc (⟨[], [], log⟩ : BumpModule) memory length =
      (UInt64.ofNat (reserved memory).length, ⟨[], [], calls⟩,
        reserved memory ++ List.replicate length 0) :=
  ⟨_, rfl⟩

/-- The module finds the source in its buffer and puts the echo after it. -/
theorem exists_parse_echo (log : List ModuleCall) (memory : Memory) (source : String)
    (fits : (reserved memory ++ encodedBytes source).length ≤ maxSize) :
    ∃ calls, ParserModule.parse (⟨[], [], log⟩ : BumpModule)
        (reserved memory ++ encodedBytes source) (UInt64.ofNat (reserved memory).length)
        (encodedBytes source).length =
      (UInt64.ofNat (reserved memory ++ encodedBytes source).length, ⟨[], [], calls⟩,
        echoed memory source) := by
  have pointer : (UInt64.ofNat (reserved memory).length).toNat = (reserved memory).length := by
    rw [List.length_append] at fits
    exact Memory.toNat_ofNat_length (by omega)
  have request : ((reserved memory ++ encodedBytes source).drop
      (UInt64.ofNat (reserved memory).length).toNat).take (encodedBytes source).length =
        encodedBytes source := by
    rw [pointer, List.drop_left, List.take_length]
  have nonempty := List.append_ne_nil_of_left_ne_nil (reserved_ne_nil memory)
    (encodedBytes source)
  have placed := place_of_ne_nil nonempty fits (encodedBytes (echo source).compact)
  simp only [ParserModule.parse, BumpModule.parse, request, List.head?_nil,
    echoBody_encodedBytes, placed]
  exact ⟨_, rfl⟩

end BumpModule

/-! ## Sources -/

namespace BufferedParser

open BumpModule

/-- One exchange leaves the source and its echo at the end of the memory. -/
theorem exists_exchange_echo (log : List ModuleCall) (memory : Memory) (source : String)
    (fits : (echoed memory source).length ≤ maxSize) :
    ∃ calls, exchange (⟨⟨[], [], log⟩, memory⟩ : BufferedParser BumpModule) source =
      (.ok (encodedBytes (echo source).compact), ⟨⟨[], [], calls⟩, echoed memory source⟩) := by
  have bufferFits : (reserved memory ++ encodedBytes source).length ≤ maxSize := by
    rw [length_echoed] at fits
    omega
  have bothFit : (reserved memory).length + (encodedBytes source).length ≤ maxSize := by
    rwa [List.length_append] at bufferFits
  have frontFits : (reserved memory).length ≤ maxSize := by omega
  have nonempty := reserved_ne_nil memory
  have allocated := Memory.ofNat_length_ne_zero nonempty frontFits
  have inside := Memory.holds_replicate (reserved memory) bothFit
  obtain ⟨allocCalls, allocates⟩ := exists_alloc_echo log memory (encodedBytes source).length
  obtain ⟨parseCalls, parses⟩ := exists_parse_echo allocCalls memory source bufferFits
  have given := Memory.ofNat_length_ne_zero
    (List.append_ne_nil_of_left_ne_nil nonempty (encodedBytes source)) bufferFits
  have cut : (echoed memory source).drop
      (UInt64.ofNat (reserved memory ++ encodedBytes source).length).toNat =
        encodedBytes (echo source).compact ++ [0] := by
    rw [Memory.toNat_ofNat_length bufferFits, echoed, List.drop_left]
  unfold exchange
  simp only [allocates, if_neg allocated, if_pos inside, Memory.toNat_ofNat_length frontFits,
    Memory.write_replicate, parses]
  rw [takeAnswer_of_drop given cut (zero_not_mem_echo source)]
  exact ⟨_, rfl⟩

/-- **Echoes.** A module that echoes its requests at the end of its memory answers every source
with this source, whatever the memory holds at the start, whatever the sources hold and however
many there are, as long as the memory stays small enough for its pointers. -/
theorem parseAll_echo (log : List ModuleCall) (memory : Memory) (sources : List String)
    (fits : (sources.foldl echoed memory).length ≤ maxSize) :
    ∃ calls, SourceParser.parseAll (⟨⟨[], [], log⟩, memory⟩ : BufferedParser BumpModule) sources =
      (sources.map fun source => .ok (.obj [("source", .str source)]),
        ⟨⟨[], [], calls⟩, sources.foldl echoed memory⟩) := by
  induction sources generalizing log memory with
  | nil => exact ⟨log, rfl⟩
  | cons source rest ih =>
      rw [List.foldl_cons] at fits ⊢
      have grown := length_le_foldl_echoed (echoed memory source) rest
      obtain ⟨exchangeCalls, exchanged⟩ :=
        exists_exchange_echo log memory source (Nat.le_trans grown fits)
      obtain ⟨calls, answered⟩ := ih exchangeCalls (echoed memory source) fits
      simp only [SourceParser.parseAll, parse_eq, exchanged, Except.bind, decode_echo, answered]
      exact ⟨calls, rfl⟩

/-- An empty source at the end of a memory without bytes, then a zero byte, quotes and control
characters, and a character of three bytes. -/
theorem parseAll_echo_zero :
    let sources := ["", "\x00\"\\\n\x1f", "let € = 1;"]
    (sources.foldl echoed []).length ≤ maxSize ∧
      ∃ calls, SourceParser.parseAll (⟨fresh, []⟩ : BufferedParser BumpModule) sources =
        ([.ok (.obj [("source", .str "")]), .ok (.obj [("source", .str "\x00\"\\\n\x1f")]),
          .ok (.obj [("source", .str "let € = 1;")])],
          ⟨⟨[], [], calls⟩, sources.foldl echoed []⟩) := by
  intro sources
  have fits : (sources.foldl echoed []).length ≤ maxSize := by decide +kernel
  exact ⟨fits, parseAll_echo [] [] sources fits⟩

end BufferedParser

end TreeLens
