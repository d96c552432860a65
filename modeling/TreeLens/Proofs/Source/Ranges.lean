import Mathlib.Data.List.Pairwise
import TreeLens.Proofs.Source.Offsets

/-!
# Ranges of spans

Both ends of a range come from one function of the byte: `OffsetTable.unitsBefore` is the entry
of a byte, and all units for a byte past the text. It never falls from a byte to a later one
(`unitsBefore_build_mono`). The end of a range is looked up with it, and so is the start, but
for any byte past the text the start is that of the last byte (`offsetAt_build`).

So the ranges of nested spans are nested (`rangeOf_build_nested`), and an empty span that starts
at a byte of the text has an empty range. At the end of the text no byte starts: there the start
goes back to the last character, and the range of an empty span is this character
(`rangeOf_build_emptySpan`).
-/

namespace TreeLens

/-! ## Entries in order -/

theorem TextUnit.width_pos (unit : TextUnit) (c : Char) : 0 < unit.width c := by
  cases unit with
  | scalar => exact Nat.one_pos
  | utf16 =>
      show 0 < if _ then 1 else 2
      split <;> decide

theorem TextUnit.before_le_of_mem_table (unit : TextUnit) {before entry : Nat} {chars : List Char}
    (member : entry ∈ unit.table before chars) : before ≤ entry := by
  induction chars generalizing before with
  | nil => cases member
  | cons c rest ih =>
      rcases List.mem_append.1 member with here | later
      · exact Nat.le_of_eq (List.eq_of_mem_replicate here).symm
      · exact Nat.le_trans (Nat.le_add_right before _) (ih later)

/-- Later bytes have no smaller entries. -/
theorem TextUnit.pairwise_table (unit : TextUnit) (before : Nat) (chars : List Char) :
    (unit.table before chars).Pairwise (· ≤ ·) := by
  induction chars generalizing before with
  | nil => exact .nil
  | cons c rest ih =>
      refine List.pairwise_append.2 ⟨?_, ih _, ?_⟩
      · exact List.pairwise_replicate.2 (.inr (Nat.le_refl _))
      · intro entry here other later
        rw [List.eq_of_mem_replicate here]
        exact Nat.le_trans (Nat.le_add_right before _) (unit.before_le_of_mem_table later)

namespace OffsetTable

/-- The units before the character of a byte; all units for a byte past the text. -/
def unitsBefore (t : OffsetTable) (byte : Nat) : Nat :=
  (t.get? byte).getD t.charLength

theorem unitsBefore_of_lt {t : OffsetTable} {byte : Nat} (inside : byte < t.offsets.size) :
    t.unitsBefore byte = t.offsets[byte] := by
  rw [unitsBefore, get?, Array.getElem?_eq_getElem inside, Option.getD_some]

theorem unitsBefore_of_le {t : OffsetTable} {byte : Nat} (past : t.byteLength ≤ byte) :
    t.unitsBefore byte = t.charLength := by
  rw [unitsBefore, get?, Array.getElem?_eq_none past, Option.getD_none]

theorem unitsBefore_build_le (unit : TextUnit) (text : String) (byte : Nat) :
    (build unit text).unitsBefore byte ≤ (build unit text).charLength := by
  unfold unitsBefore
  cases found : (build unit text).get? byte with
  | none => exact Nat.le_refl _
  | some entry => exact get?_build_le found

/-- A later byte has at least as many units before it. -/
theorem unitsBefore_build_mono (unit : TextUnit) (text : String) {byte later : Nat}
    (ordered : byte ≤ later) :
    (build unit text).unitsBefore byte ≤ (build unit text).unitsBefore later := by
  by_cases inside : later < (build unit text).offsets.size
  · have sorted := unit.pairwise_table 0 text.toList
    rw [← toList_offsets_build] at sorted
    have inside' : byte < (build unit text).offsets.size := Nat.lt_of_le_of_lt ordered inside
    rw [unitsBefore_of_lt inside, unitsBefore_of_lt inside']
    exact sorted.rel_get_of_le (a := ⟨byte, inside'⟩) (b := ⟨later, inside⟩) ordered
  · rw [unitsBefore_of_le (Nat.le_of_not_lt inside)]
    exact unitsBefore_build_le unit text byte

/-- The start of a range is looked up no later than at the last byte. -/
theorem offsetAt_build (unit : TextUnit) (text : String) (byte : Nat) :
    (build unit text).offsetAt byte =
      (build unit text).unitsBefore (min byte ((build unit text).byteLength - 1)) := by
  unfold offsetAt unitsBefore
  cases found : (build unit text).get? (min byte ((build unit text).byteLength - 1)) with
  | some entry => rfl
  | none =>
      -- Only the empty text has no last byte, and it has no units either.
      have none : (build unit text).byteLength ≤ min byte ((build unit text).byteLength - 1) :=
        Array.getElem?_eq_none_iff.1 found
      have size : text.utf8ByteSize = 0 := by
        rw [byteLength_build] at none
        omega
      rw [charLength_build, String.utf8ByteSize_eq_zero_iff.1 size]
      rfl

theorem offsetAt_build_mono (unit : TextUnit) (text : String) {byte later : Nat}
    (ordered : byte ≤ later) :
    (build unit text).offsetAt byte ≤ (build unit text).offsetAt later := by
  rw [offsetAt_build, offsetAt_build]
  exact unitsBefore_build_mono unit text (by omega)

theorem offsetAt_build_le_unitsBefore (unit : TextUnit) (text : String) {byte later : Nat}
    (ordered : byte ≤ later) :
    (build unit text).offsetAt byte ≤ (build unit text).unitsBefore later := by
  rw [offsetAt_build]
  exact unitsBefore_build_mono unit text (by omega)

/-! ## Nested spans -/

theorem stopByte_mono (convention : SpanConvention) {inner outer : Span}
    (ordered : inner.stop ≤ outer.stop) :
    stopByte convention inner ≤ stopByte convention outer := by
  cases convention with
  | halfOpen => exact ordered
  | inclusive =>
      show min _ _ ≤ min _ _
      omega

theorem le_stopByte (convention : SpanConvention) {span : Span} (bounded : span.stop ≤ maxSize) :
    span.stop ≤ stopByte convention span := by
  cases convention with
  | halfOpen => exact Nat.le_refl _
  | inclusive =>
      show _ ≤ min _ _
      omega

/-- **Nested spans have nested ranges.** Whatever the bounds of a span are, also if it stops
before it starts or lies past the text, its range is in order and inside the text. If a span
that is in order lies in another one, then its range lies in the other's range. -/
theorem rangeOf_build_nested (unit : TextUnit) (text : String) (convention : SpanConvention) :
    (∀ span,
      ((build unit text).rangeOf convention span).start ≤
          ((build unit text).rangeOf convention span).stop ∧
        ((build unit text).rangeOf convention span).stop ≤ (build unit text).charLength) ∧
    ∀ inner outer : Span, outer.start ≤ inner.start → inner.start ≤ inner.stop →
      inner.stop ≤ outer.stop → outer.stop ≤ maxSize →
      ((build unit text).rangeOf convention outer).start ≤
          ((build unit text).rangeOf convention inner).start ∧
        ((build unit text).rangeOf convention inner).stop ≤
          ((build unit text).rangeOf convention outer).stop := by
  refine ⟨rangeOf_build_le unit text convention, ?_⟩
  intro inner outer starts ordered stops bounded
  refine ⟨offsetAt_build_mono unit text starts, ?_⟩
  -- Both candidates for the inner end are at most the units before the outer end.
  have stop := unitsBefore_build_mono unit text (stopByte_mono convention stops)
  have start : (build unit text).offsetAt inner.start ≤
      (build unit text).unitsBefore (stopByte convention outer) := by
    have reached := le_stopByte convention bounded
    exact offsetAt_build_le_unitsBefore unit text (by omega)
  exact Nat.le_trans (Nat.max_le.2 ⟨stop, start⟩) (Nat.le_max_left _ _)

/-- A span inside a character of four bytes, in one that goes up to the greatest size. -/
theorem rangeOf_build_nested_saturated :
    let t := build .utf16 "é😀z"
    t.rangeOf .inclusive ⟨4, 5⟩ = ⟨1, 3⟩ ∧ t.rangeOf .inclusive ⟨3, maxSize⟩ = ⟨1, 4⟩ ∧
      (t.rangeOf .inclusive ⟨9, 0⟩).stop ≤ t.charLength ∧
      (t.rangeOf .inclusive ⟨3, maxSize⟩).start ≤ (t.rangeOf .inclusive ⟨4, 5⟩).start ∧
      (t.rangeOf .inclusive ⟨4, 5⟩).stop ≤ (t.rangeOf .inclusive ⟨3, maxSize⟩).stop := by
  obtain ⟨inside, nested⟩ := rangeOf_build_nested .utf16 "é😀z" .inclusive
  exact ⟨by decide +kernel, by decide +kernel, (inside ⟨9, 0⟩).2,
    nested ⟨4, 5⟩ ⟨3, maxSize⟩ (by decide) (by decide) (by decide) (by decide)⟩

/-! ## Empty spans -/

/-- Both ends of the range of an empty span are looked up at the same byte. -/
theorem rangeOf_build_self (unit : TextUnit) (text : String) (byte : Nat) :
    (build unit text).rangeOf .halfOpen ⟨byte, byte⟩ =
      ⟨(build unit text).offsetAt byte, (build unit text).unitsBefore byte⟩ := by
  have ordered := offsetAt_build_le_unitsBefore unit text (Nat.le_refl byte)
  exact congrArg (CharRange.mk _) (Nat.max_eq_left ordered)

/-- At a byte of the text both lookups give its entry; in the empty text they give zero. -/
theorem rangeOf_build_self_of_lt (unit : TextUnit) (text : String) {byte : Nat}
    (inside : byte < (build unit text).byteLength ∨ text = "") :
    (build unit text).rangeOf .halfOpen ⟨byte, byte⟩ =
      ⟨(build unit text).unitsBefore byte, (build unit text).unitsBefore byte⟩ := by
  rw [rangeOf_build_self, offsetAt_build]
  rcases inside with inside | rfl
  · rw [Nat.min_eq_left (by omega)]
  · rfl

theorem exists_eq_append_singleton {text : String} (nonempty : text ≠ "") :
    ∃ front c, text = front ++ String.singleton c := by
  rcases List.eq_nil_or_concat text.toList with none | ⟨chars, c, cut⟩
  · exact absurd (String.toList_eq_nil_iff.1 none) nonempty
  · refine ⟨String.ofList chars, c, String.toList_inj.1 ?_⟩
    simpa using cut

/-- Past the last byte the start goes back to the last character, and the end does not. -/
theorem rangeOf_build_self_of_le (unit : TextUnit) (front : String) (c : Char) {byte : Nat}
    (past : (build unit (front ++ String.singleton c)).byteLength ≤ byte) :
    (build unit (front ++ String.singleton c)).rangeOf .halfOpen ⟨byte, byte⟩ =
      ⟨unit.units front.toList, unit.units front.toList + unit.width c⟩ := by
  have last : c.utf8Size - 1 < c.utf8Size := Nat.sub_lt c.utf8Size_pos Nat.one_pos
  have entry := get?_build_singleton unit front "" c last
  rw [String.append_empty] at entry
  have size : (build unit (front ++ String.singleton c)).byteLength =
      front.utf8ByteSize + c.utf8Size := by
    rw [byteLength_build, String.utf8ByteSize_append, String.utf8ByteSize_singleton]
  have clamped : min byte ((build unit (front ++ String.singleton c)).byteLength - 1) =
      front.utf8ByteSize + (c.utf8Size - 1) := by
    omega
  rw [rangeOf_build_self, offsetAt_build, unitsBefore_of_le past, clamped, unitsBefore, entry,
    charLength_build]
  simp [TextUnit.units_append, TextUnit.units]

/-- **Empty spans.** The range of an empty span is empty exactly if the span lies before a byte
of the text, or the text is empty; if it lies between two characters, its range is at the units
before it. At the end of a text, and past it, the range is the last character. -/
theorem rangeOf_build_emptySpan (unit : TextUnit) (text : String) (byte : Nat) :
    let range := (build unit text).rangeOf .halfOpen ⟨byte, byte⟩
    (range.start = range.stop ↔ byte < (build unit text).byteLength ∨ text = "") ∧
    (∀ front back, text = front ++ back → byte = front.utf8ByteSize → back ≠ "" ∨ text = "" →
      range.start = unit.units front.toList) ∧
    ∀ front c, text = front ++ String.singleton c → (build unit text).byteLength ≤ byte →
      range = ⟨unit.units front.toList, unit.units front.toList + unit.width c⟩ := by
  intro range
  have atEnd : ∀ front c, text = front ++ String.singleton c →
      (build unit text).byteLength ≤ byte →
      range = ⟨unit.units front.toList, unit.units front.toList + unit.width c⟩ := by
    rintro front c rfl past
    exact rangeOf_build_self_of_le unit front c past
  refine ⟨⟨?_, ?_⟩, ?_, atEnd⟩
  · intro empty
    by_contra outside
    obtain ⟨past, nonempty⟩ := not_or.1 outside
    obtain ⟨front, c, cut⟩ := exists_eq_append_singleton nonempty
    have wide := unit.width_pos c
    rw [atEnd front c cut (Nat.le_of_not_lt past)] at empty
    simp only at empty
    omega
  · intro inside
    rw [show range = _ from rangeOf_build_self_of_lt unit text inside]
  · rintro front back rfl rfl inside
    rcases inside with nonempty | empty
    · have whole := rangeOf_append unit front "" back (by simpa using nonempty)
      rw [String.append_empty] at whole
      exact congrArg CharRange.start whole
    · obtain ⟨rfl, rfl⟩ := String.append_eq_empty_iff.1 empty
      rfl

/-- Between two characters, and inside one of four bytes and two units. -/
theorem rangeOf_build_emptySpan_between :
    let t := build .utf16 "é😀"
    (t.rangeOf .halfOpen ⟨2, 2⟩).start = 1 ∧
      (t.rangeOf .halfOpen ⟨2, 2⟩).start = (t.rangeOf .halfOpen ⟨2, 2⟩).stop ∧
      (t.rangeOf .halfOpen ⟨5, 5⟩).start = (t.rangeOf .halfOpen ⟨5, 5⟩).stop ∧
      t.rangeOf .halfOpen ⟨6, 6⟩ = ⟨1, 3⟩ := by
  obtain ⟨between, units, -⟩ := rangeOf_build_emptySpan .utf16 "é😀" 2
  obtain ⟨within, -, -⟩ := rangeOf_build_emptySpan .utf16 "é😀" 5
  obtain ⟨-, -, last⟩ := rangeOf_build_emptySpan .utf16 "é😀" 6
  have size : (build .utf16 "é😀").byteLength = 6 := byteLength_build .utf16 "é😀"
  exact ⟨units "é" "😀" rfl rfl (.inl (by decide)), between.2 (.inl (by omega)),
    within.2 (.inl (by omega)), last "é" '😀' rfl (by omega)⟩

/-- An empty span at the end of a text does not have an empty range. -/
theorem rangeOf_build_emptySpan_last :
    ¬ ∀ unit text byte, byte ≤ (build unit text).byteLength →
      ((build unit text).rangeOf .halfOpen ⟨byte, byte⟩).start =
        ((build unit text).rangeOf .halfOpen ⟨byte, byte⟩).stop := by
  intro empty
  have last : (build .scalar "a€").rangeOf .halfOpen ⟨4, 4⟩ = ⟨1, 2⟩ := by decide +kernel
  have same := empty .scalar "a€" 4 (by decide +kernel)
  rw [last] at same
  cases same

end OffsetTable

end TreeLens
