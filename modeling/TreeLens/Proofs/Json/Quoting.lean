import TreeLens.Json.Reader
import TreeLens.Json.Writer

/-!
# Reading quoted text

What the writer puts between quotes is read back: each character leaves the reader inside the
text with this character added (`Reader.run_quoteChar`), whichever of the escapes it is written
with, so that the whole text is taken as it was (`Reader.run_quote`). An object with a text as
its only member is therefore read back from its compact form (`read?_compact_text`), which holds
no control characters (`le_toNat_of_mem_compact_text`).
-/

namespace TreeLens

theorem hexValue?_hexDigit : ∀ {n : Nat}, n < 16 → hexValue? (hexDigit n) = some n := by
  decide

namespace Json

theorem toList_quote (s : String) :
    (quote s).toList = '"' :: (s.toList.flatMap quoteChar ++ ['"']) := by
  simp [quote]

namespace Reader

theorem run_append (r : Reader) (front back : List Char) :
    r.run (front ++ back) = (r.run front).bind fun next => next.run back := by
  induction front generalizing r with
  | nil => rfl
  | cons c rest ih =>
      rw [List.cons_append, run, run, Option.bind_assoc]
      exact Option.bind_congr fun next _ => ih next

theorem run_singleton (r : Reader) (c : Char) : r.run [c] = r.step c := by
  rw [run]
  exact Option.bind_fun_some _

/-- A control character, written with its code. -/
theorem run_code (frames : List Frame) (expect : Expect) (read : List Char) {c : Char}
    (control : c.toNat < 0x20) :
    run ⟨frames, expect, .text read⟩
        ['\\', 'u', '0', '0', hexDigit (c.toNat / 16), hexDigit (c.toNat % 16)] =
      some ⟨frames, expect, .text (c :: read)⟩ := by
  have high := hexValue?_hexDigit (n := c.toNat / 16) (by omega)
  have low := hexValue?_hexDigit (n := c.toNat % 16) (by omega)
  have unit : 16 * (c.toNat / 16) + c.toNat % 16 = c.toNat := Nat.div_add_mod _ _
  have zero : hexValue? '0' = some 0 := rfl
  have whole : ∀ r : Reader, r.completeCode read none c.toNat =
      some { r with mode := .text (c :: read) } := by
    intro r
    have notLow : ¬ (0xDC00 ≤ c.toNat ∧ c.toNat < 0xE000) := by omega
    have notHigh : ¬ (0xD800 ≤ c.toNat ∧ c.toNat < 0xDC00) := by omega
    simp [completeCode, notLow, notHigh]
  simp [run, step, zero, high, low, unit, whole]

/-- A character is read back, however it is written. -/
theorem run_quoteChar (frames : List Frame) (expect : Expect) (read : List Char) (c : Char) :
    run ⟨frames, expect, .text read⟩ (quoteChar c) =
      some ⟨frames, expect, .text (c :: read)⟩ := by
  unfold quoteChar
  -- The characters with escapes of one letter, one after the other.
  repeat
    split
    · next same => subst same; rfl
  split
  · next control => exact run_code frames expect read control
  · next quote backslash _ _ _ _ _ printed =>
      rw [run_singleton]
      simp [step, quote, backslash, printed]

theorem run_flatMap_quoteChar (frames : List Frame) (expect : Expect) (read chars : List Char) :
    run ⟨frames, expect, .text read⟩ (chars.flatMap quoteChar) =
      some ⟨frames, expect, .text (chars.reverse ++ read)⟩ := by
  induction chars generalizing read with
  | nil => rfl
  | cons c rest ih =>
      rw [List.flatMap_cons, run_append, run_quoteChar, Option.bind_some, ih]
      simp

/-- A quoted text is taken as it was, as a value or as a key. -/
theorem run_quote (frames : List Frame) (expect : Expect) (s : String) :
    run ⟨frames, expect, .free⟩ (quote s).toList =
      completeText ⟨frames, expect, .text s.toList.reverse⟩ s.toList.reverse := by
  have opened : step ⟨frames, expect, .free⟩ '"' = some ⟨frames, expect, .text []⟩ := rfl
  rw [toList_quote, run, opened, Option.bind_some, run_append, run_flatMap_quoteChar,
    List.append_nil, Option.bind_some, run_singleton]
  rfl

theorem run_quote_key (members : List (String × Json)) (outer : List Frame) (key : String) :
    run ⟨.object members none :: outer, .firstKey, .free⟩ (quote key).toList =
      some ⟨.object members (some key) :: outer, .colon, .free⟩ := by
  simp [run_quote, completeText]

theorem run_quote_value (frames : List Frame) (s : String) :
    run ⟨frames, .value, .free⟩ (quote s).toList = complete frames (.str s) := by
  simp [run_quote, completeText]

end Reader

/-! ## Objects of one text -/

theorem toList_compact_text (key s : String) :
    (compact (.obj [(key, .str s)])).toList =
      ['\x7b'] ++ (quote key).toList ++ [':'] ++ (quote s).toList ++ ['\x7d'] := by
  simp [compact, compactOnto, compactMembers]

/-- An object with a text as its only member is read back. -/
theorem read?_compact_text (key s : String) :
    read? (compact (.obj [(key, .str s)])) = some (.obj [(key, .str s)]) := by
  have opened : Reader.start.run ['\x7b'] = some ⟨[.object [] none], .firstKey, .free⟩ := rfl
  have separated : Reader.run ⟨[.object [] (some key)], .colon, .free⟩ [':'] =
      some ⟨[.object [] (some key)], .value, .free⟩ := rfl
  have closed : Reader.run ⟨[.object [(key, .str s)] none], .separator, .free⟩ ['\x7d'] =
      some ⟨[], .nothing (.obj [(key, .str s)]), .free⟩ := rfl
  have ended : Reader.start.run (compact (.obj [(key, .str s)])).toList =
      some ⟨[], .nothing (.obj [(key, .str s)]), .free⟩ := by
    rw [toList_compact_text]
    simp only [Reader.run_append, opened, Option.bind_some, Reader.run_quote_key, separated,
      Reader.run_quote_value, Reader.complete, closed]
  rw [read?, readRaw?, ended]
  rfl

/-- No character is written with a control character. -/
theorem le_toNat_of_mem_quoteChar {c d : Char} (member : d ∈ quoteChar c) : 0x20 ≤ d.toNat := by
  have digit : ∀ n < 16, 0x20 ≤ (hexDigit n).toNat := by decide
  unfold quoteChar at member
  repeat
    split at member
    · simp only [List.mem_cons, List.not_mem_nil, or_false] at member
      rcases member with rfl | rfl <;> decide
  split at member
  · have high := digit (c.toNat / 16) (by omega)
    have low := digit (c.toNat % 16) (by omega)
    have all : ∀ d ∈ ['\\', 'u', '0', '0', hexDigit (c.toNat / 16), hexDigit (c.toNat % 16)],
        0x20 ≤ d.toNat := by
      simp [high, low]
    exact all d member
  · next printed =>
      rw [List.mem_singleton.1 member]
      exact Nat.le_of_not_lt printed

theorem le_toNat_of_mem_quote {s : String} {d : Char} (member : d ∈ (quote s).toList) :
    0x20 ≤ d.toNat := by
  rw [toList_quote, List.mem_cons, List.mem_append, List.mem_singleton] at member
  rcases member with rfl | written | rfl
  · decide
  · obtain ⟨c, -, inside⟩ := List.mem_flatMap.1 written
    exact le_toNat_of_mem_quoteChar inside
  · decide

/-- The compact form of an object of one text has no control characters. -/
theorem le_toNat_of_mem_compact_text {key s : String} {d : Char}
    (member : d ∈ (compact (.obj [(key, .str s)])).toList) : 0x20 ≤ d.toNat := by
  simp only [toList_compact_text, List.mem_append, List.mem_singleton] at member
  rcases member with (((rfl | inKey) | rfl) | inText) | rfl
  · decide
  · exact le_toNat_of_mem_quote inKey
  · decide
  · exact le_toNat_of_mem_quote inText
  · decide

end Json

end TreeLens
