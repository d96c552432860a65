import TreeLens.Source.Offsets

/-!
# Offset tables of texts

The table of a text read as a function of its characters: every byte of a character has
the number of units before this character (`toList_offsets_build`). A span that begins
and ends between characters therefore has the range of units of the text it covers
(`rangeOf_append`). `OffsetTable.build_units` says all this of one table, for spans with and
without their last byte.
-/

namespace TreeLens

/-! ## Units of characters -/

/-- How many units a character takes. -/
def TextUnit.width : TextUnit → Char → Nat
  | .scalar, _ => 1
  | .utf16, c => if c.val.toNat ≤ 0xFFFF then 1 else 2

/-- How many units characters take together. -/
def TextUnit.units (unit : TextUnit) : List Char → Nat
  | [] => 0
  | c :: rest => unit.width c + unit.units rest

theorem TextUnit.units_append (unit : TextUnit) (front back : List Char) :
    unit.units (front ++ back) = unit.units front + unit.units back := by
  induction front with
  | nil => simp [units]
  | cons c rest ih => simp only [List.cons_append, units, ih, Nat.add_assoc]

theorem TextUnit.units_scalar (chars : List Char) : TextUnit.scalar.units chars = chars.length := by
  induction chars with
  | nil => rfl
  | cons c rest ih => simp only [units, width, ih, List.length_cons, Nat.add_comm]

/-! ## Bytes of characters -/

/-- The bytes that continue a character are those from 128 up to 191. -/
theorem isContinuation_iff (b : UInt8) : isContinuation b = true ↔ b.toNat / 64 = 2 := by
  have table : ∀ n < 256, (n &&& 192 = 128) ↔ n / 64 = 2 := by decide +kernel
  rw [isContinuation, beq_iff_eq, ← UInt8.toNat_inj, UInt8.toNat_and]
  exact table b.toNat b.toNat_lt

/-- A character is encoded as a byte that starts it and tells its width, and bytes that
continue it. -/
theorem exists_utf8EncodeChar_eq_cons (c : Char) :
    ∃ lead rest, String.utf8EncodeChar c = lead :: rest ∧ isContinuation lead = false ∧
      (∀ unit : TextUnit, unit.widthOfLead lead = unit.width c) ∧
      ∀ b ∈ rest, isContinuation b = true := by
  have starts : ∀ n < 256, n / 64 ≠ 2 → isContinuation (UInt8.ofNat n) = false := by
    intro n small other
    rw [Bool.eq_false_iff]
    intro continues
    rw [isContinuation_iff, UInt8.toNat_ofNat', Nat.mod_eq_of_lt small] at continues
    exact other continues
  have continues : ∀ n, isContinuation (UInt8.ofNat (n % 64 + 128)) = true := by
    intro n
    rw [isContinuation_iff, UInt8.toNat_ofNat', Nat.mod_eq_of_lt (by omega)]
    omega
  have continuesAll : ∀ ns : List Nat,
      ∀ b ∈ ns.map (fun n => UInt8.ofNat (n % 64 + 128)), isContinuation b = true := by
    intro ns b member
    obtain ⟨n, -, rfl⟩ := List.mem_map.1 member
    exact continues n
  have narrow : ∀ n < 240, c.val.toNat ≤ 0xFFFF →
      ∀ unit : TextUnit, unit.widthOfLead (UInt8.ofNat n) = unit.width c := by
    intro n small basic unit
    cases unit with
    | scalar => rfl
    | utf16 =>
        rw [TextUnit.widthOfLead, TextUnit.width, if_pos basic, if_neg]
        rw [UInt8.le_iff_toNat_le, UInt8.toNat_ofNat', Nat.mod_eq_of_lt (by omega)]
        exact Nat.not_le.2 small
  unfold String.utf8EncodeChar
  simp only
  -- One case for each number of bytes; only the last one lies beyond the basic plane.
  split
  · exact ⟨_, [], rfl, starts _ (by omega) (by omega), narrow _ (by omega) (by omega), by simp⟩
  · split
    · exact ⟨_, _, rfl, starts _ (by omega) (by omega), narrow _ (by omega) (by omega),
        continuesAll [_]⟩
    · split
      · exact ⟨_, _, rfl, starts _ (by omega) (by omega), narrow _ (by omega) (by omega),
          continuesAll [_, _]⟩
      · next beyond =>
          refine ⟨_, _, rfl, starts _ (by omega) (by omega), ?_, continuesAll [_, _, _]⟩
          intro unit
          cases unit with
          | scalar => rfl
          | utf16 =>
              rw [TextUnit.widthOfLead, TextUnit.width, if_neg beyond, if_pos]
              rw [UInt8.le_iff_toNat_le, UInt8.toNat_ofNat', Nat.mod_eq_of_lt (by omega)]
              exact Nat.le_add_left 240 _

theorem encodedBytes_eq (text : String) :
    encodedBytes text = text.toList.flatMap String.utf8EncodeChar := by
  rw [encodedBytes, String.toUTF8_eq_toByteArray, ← String.utf8Encode_toList, List.utf8Encode]
  exact List.toList_data_toByteArray

theorem length_flatMap_utf8EncodeChar (text : String) :
    (text.toList.flatMap String.utf8EncodeChar).length = text.utf8ByteSize := by
  rw [← encodedBytes_eq, encodedBytes, String.toUTF8_eq_toByteArray, ← String.size_toByteArray]
  rfl

/-- The bytes of a text are decoded to the text. -/
theorem fromUTF8?_encodedBytes (text : String) :
    String.fromUTF8? ⟨(encodedBytes text).toArray⟩ = some text := by
  rw [encodedBytes, Array.toArray_toList, String.toUTF8_eq_toByteArray, String.fromUTF8?,
    dif_pos text.isValidUTF8]
  rfl

/-! ## The table -/

/-- The table of characters after so many units: an entry for every byte. -/
def TextUnit.table (unit : TextUnit) (before : Nat) : List Char → List Nat
  | [] => []
  | c :: rest =>
    List.replicate (String.utf8EncodeChar c).length before ++
      unit.table (before + unit.width c) rest

theorem TextUnit.table_append (unit : TextUnit) (before : Nat) (front back : List Char) :
    unit.table before (front ++ back) =
      unit.table before front ++ unit.table (before + unit.units front) back := by
  induction front generalizing before with
  | nil => rfl
  | cons c rest ih =>
      simp only [List.cons_append, table, ih, units, List.append_assoc, Nat.add_assoc]

theorem TextUnit.length_table (unit : TextUnit) (before : Nat) (chars : List Char) :
    (unit.table before chars).length = (chars.flatMap String.utf8EncodeChar).length := by
  induction chars generalizing before with
  | nil => rfl
  | cons c rest ih => simp [table, ih]

/-- No entry is past the units of all characters. -/
theorem TextUnit.le_of_mem_table (unit : TextUnit) {before entry : Nat} {chars : List Char}
    (member : entry ∈ unit.table before chars) : entry ≤ before + unit.units chars := by
  induction chars generalizing before with
  | nil => cases member
  | cons c rest ih =>
      rw [units]
      rcases List.mem_append.1 member with here | later
      · have same : entry = before := List.eq_of_mem_replicate here
        omega
      · have bound := ih later
        omega

/-- Every byte of a character is entered with the units before it. -/
theorem TextUnit.getElem?_table_append (unit : TextUnit) (before : Nat) (front : List Char)
    (c : Char) (back : List Char) {byte : Nat} (inside : byte < c.utf8Size) :
    (unit.table before (front ++ c :: back))[(front.flatMap String.utf8EncodeChar).length +
      byte]? = some (before + unit.units front) := by
  have before_eq := unit.length_table before front
  rw [table_append, List.getElem?_append_right (by omega), before_eq, Nat.add_sub_cancel_left,
    table, String.length_utf8EncodeChar, List.getElem?_append_left (by simpa using inside),
    List.getElem?_replicate, if_pos inside]

namespace OffsetScan

/-- Bytes that continue a character are entered like the one that starts it. -/
theorem foldl_push_continuation (unit : TextUnit) {bytes : List UInt8}
    (continues : ∀ b ∈ bytes, isContinuation b = true) (scan : OffsetScan) :
    (bytes.foldl (push unit) scan).offsets.toList =
        scan.offsets.toList ++ List.replicate bytes.length scan.before ∧
      (bytes.foldl (push unit) scan).before = scan.before ∧
      (bytes.foldl (push unit) scan).width = scan.width := by
  induction bytes generalizing scan with
  | nil => simp
  | cons b rest ih =>
      obtain ⟨offsets, before, width⟩ :=
        ih (fun b' member => continues b' (List.mem_cons_of_mem _ member))
          { scan with offsets := scan.offsets.push scan.before }
      rw [List.foldl_cons, push, if_pos (continues b List.mem_cons_self)]
      refine ⟨?_, before, width⟩
      rw [offsets, Array.toList_push, List.append_assoc, List.length_cons, List.replicate_succ]
      rfl

/-- The bytes of one character are entered with the units before it. -/
theorem foldl_push_utf8EncodeChar (unit : TextUnit) (c : Char) (scan : OffsetScan) :
    ((String.utf8EncodeChar c).foldl (push unit) scan).offsets.toList =
        scan.offsets.toList ++
          List.replicate (String.utf8EncodeChar c).length (scan.before + scan.width) ∧
      ((String.utf8EncodeChar c).foldl (push unit) scan).before = scan.before + scan.width ∧
      ((String.utf8EncodeChar c).foldl (push unit) scan).width = unit.width c := by
  obtain ⟨lead, more, encoded, starts, leadWidth, continues⟩ := exists_utf8EncodeChar_eq_cons c
  obtain ⟨offsets, before, width⟩ := foldl_push_continuation unit continues
    ⟨scan.offsets.push (scan.before + scan.width), scan.before + scan.width,
      unit.widthOfLead lead⟩
  rw [encoded, List.foldl_cons, push, if_neg (by simp [starts])]
  refine ⟨?_, before, width.trans (leadWidth unit)⟩
  rw [offsets, Array.toList_push, List.append_assoc, List.length_cons, List.replicate_succ]
  rfl

/-- A scan of characters enters their table and counts their units. -/
theorem foldl_push_flatMap (unit : TextUnit) (chars : List Char) (scan : OffsetScan) :
    ((chars.flatMap String.utf8EncodeChar).foldl (push unit) scan).offsets.toList =
        scan.offsets.toList ++ unit.table (scan.before + scan.width) chars ∧
      ((chars.flatMap String.utf8EncodeChar).foldl (push unit) scan).before +
          ((chars.flatMap String.utf8EncodeChar).foldl (push unit) scan).width =
        scan.before + scan.width + unit.units chars := by
  induction chars generalizing scan with
  | nil => simp [TextUnit.table, TextUnit.units]
  | cons c rest ih =>
      obtain ⟨offsets, before, width⟩ := foldl_push_utf8EncodeChar unit c scan
      obtain ⟨restOffsets, total⟩ := ih ((String.utf8EncodeChar c).foldl (push unit) scan)
      rw [List.flatMap_cons, List.foldl_append]
      rw [before, width] at restOffsets total
      constructor
      · rw [restOffsets, offsets, TextUnit.table, List.append_assoc]
      · rw [total, TextUnit.units, Nat.add_assoc _ (unit.width c)]

end OffsetScan

namespace OffsetTable

/-- The table of a text has the units before a character for each of its bytes. -/
theorem toList_offsets_build (unit : TextUnit) (text : String) :
    (build unit text).offsets.toList = unit.table 0 text.toList := by
  have scanned := (OffsetScan.foldl_push_flatMap unit text.toList ⟨#[], 0, 0⟩).1
  rw [← encodedBytes_eq] at scanned
  simp [build, scanned]

theorem charLength_build (unit : TextUnit) (text : String) :
    (build unit text).charLength = unit.units text.toList := by
  have scanned := (OffsetScan.foldl_push_flatMap unit text.toList ⟨#[], 0, 0⟩).2
  rw [← encodedBytes_eq] at scanned
  simpa [build] using scanned

theorem byteLength_build (unit : TextUnit) (text : String) :
    (build unit text).byteLength = text.utf8ByteSize := by
  rw [byteLength, ← Array.length_toList, toList_offsets_build, TextUnit.length_table,
    length_flatMap_utf8EncodeChar]

theorem get?_build_le {unit : TextUnit} {text : String} {byte entry : Nat}
    (found : (build unit text).get? byte = some entry) : entry ≤ (build unit text).charLength := by
  rw [get?, ← Array.getElem?_toList, toList_offsets_build] at found
  have bound := unit.le_of_mem_table (List.mem_of_getElem? found)
  rwa [Nat.zero_add, ← charLength_build] at bound

/-- Whatever its bounds are, the range of a span lies in the text. -/
theorem rangeOf_build_le (unit : TextUnit) (text : String) (convention : SpanConvention)
    (span : Span) :
    ((build unit text).rangeOf convention span).start ≤
        ((build unit text).rangeOf convention span).stop ∧
      ((build unit text).rangeOf convention span).stop ≤ (build unit text).charLength := by
  have inside : ∀ byte fallback, fallback ≤ (build unit text).charLength →
      ((build unit text).get? byte).getD fallback ≤ (build unit text).charLength := by
    intro byte fallback small
    cases found : (build unit text).get? byte with
    | none => exact small
    | some entry => exact get?_build_le found
  refine ⟨Nat.le_max_right _ _, Nat.max_le.2 ⟨?_, ?_⟩⟩
  · exact inside _ _ (Nat.le_refl _)
  · exact inside _ _ (Nat.zero_le _)

/-- The entry at a boundary inside a text, and at its end. -/
theorem get?_build_append (unit : TextUnit) (front back : String) :
    (build unit (front ++ back)).get? front.utf8ByteSize =
      if back = "" then none else some (unit.units front.toList) := by
  rw [get?, ← Array.getElem?_toList, toList_offsets_build, String.toList_append]
  -- The end of the text has no entry; any other boundary is where a character starts.
  split
  next empty =>
    subst empty
    rw [List.getElem?_eq_none_iff, TextUnit.length_table, ← length_flatMap_utf8EncodeChar]
    simp
  next nonempty =>
    cases chars : back.toList with
    | nil => exact absurd (String.toList_eq_nil_iff.1 chars) nonempty
    | cons c rest =>
        rw [← length_flatMap_utf8EncodeChar, ← Nat.add_zero (List.length _),
          TextUnit.getElem?_table_append _ _ _ _ _ c.utf8Size_pos, Nat.zero_add]

/-- The range of a span between characters, unless that is empty at the end of the text:
the units before it and those of the text it covers. -/
theorem rangeOf_append (unit : TextUnit) (front inner back : String)
    (nonempty : inner ++ back ≠ "") :
    (build unit (front ++ inner ++ back)).rangeOf .halfOpen
        ⟨front.utf8ByteSize, (front ++ inner).utf8ByteSize⟩ =
      ⟨unit.units front.toList, unit.units front.toList + unit.units inner.toList⟩ := by
  have start : (build unit (front ++ inner ++ back)).offsetAt front.utf8ByteSize =
      unit.units front.toList := by
    have entry := get?_build_append unit front (inner ++ back)
    rw [if_neg nonempty, ← String.append_assoc] at entry
    have inside : front.utf8ByteSize < (front ++ inner ++ back).utf8ByteSize := by
      have positive : 0 < (inner ++ back).utf8ByteSize :=
        Nat.pos_of_ne_zero fun zero => nonempty (String.utf8ByteSize_eq_zero_iff.1 zero)
      simp only [String.utf8ByteSize_append] at positive ⊢
      omega
    rw [offsetAt, byteLength_build, Nat.min_eq_left (by omega), entry]
    rfl
  have stop : ((build unit (front ++ inner ++ back)).get? (front ++ inner).utf8ByteSize).getD
      (build unit (front ++ inner ++ back)).charLength =
        unit.units front.toList + unit.units inner.toList := by
    rw [get?_build_append, charLength_build]
    split
    next empty => simp [empty, TextUnit.units_append]
    next => simp [TextUnit.units_append]
  simp only [rangeOf, stopByte]
  rw [start, stop, Nat.max_eq_left (Nat.le_add_right _ _)]

/-- The entry of every byte of a character. -/
theorem get?_build_singleton (unit : TextUnit) (front back : String) (c : Char) {byte : Nat}
    (inside : byte < c.utf8Size) :
    (build unit (front ++ String.singleton c ++ back)).get? (front.utf8ByteSize + byte) =
      some (unit.units front.toList) := by
  rw [get?, ← Array.getElem?_toList, toList_offsets_build, ← length_flatMap_utf8EncodeChar]
  simp only [String.toList_append, String.toList_singleton, List.append_assoc,
    List.singleton_append]
  rw [unit.getElem?_table_append 0 _ c _ inside, Nat.zero_add]

/-- A span with its last byte has the range of the one that stops after that byte. -/
theorem rangeOf_inclusive (t : OffsetTable) {start last : Nat} (bounded : last < maxSize) :
    t.rangeOf .inclusive ⟨start, last⟩ = t.rangeOf .halfOpen ⟨start, last + 1⟩ := by
  have stop : addSize last 1 = last + 1 := Nat.min_eq_left bounded
  simp only [rangeOf, stopByte, stop]

/-- **The table of a text.** It has one entry for every byte. Every byte of a character has the
units before this character, and the length is the number of all units. So the range of a
part of the text that is not empty, given by its first byte and the byte after it, or by its
first and its last byte, is exactly the units of this part. -/
theorem build_units (unit : TextUnit) (text : String) :
    (build unit text).byteLength = text.utf8ByteSize ∧
      (∀ front c back, text = front ++ String.singleton c ++ back → ∀ byte < c.utf8Size,
        (build unit text).get? (front.utf8ByteSize + byte) = some (unit.units front.toList)) ∧
      (build unit text).charLength = unit.units text.toList ∧
      ∀ front inner back, text = front ++ inner ++ back → inner ≠ "" →
        let stop := (front ++ inner).utf8ByteSize
        let range : CharRange :=
          ⟨unit.units front.toList, unit.units front.toList + unit.units inner.toList⟩
        (build unit text).rangeOf .halfOpen ⟨front.utf8ByteSize, stop⟩ = range ∧
          (stop ≤ maxSize →
            (build unit text).rangeOf .inclusive ⟨front.utf8ByteSize, stop - 1⟩ = range) := by
  refine ⟨byteLength_build unit text, ?_, charLength_build unit text, ?_⟩
  · rintro front c back rfl byte inside
    exact get?_build_singleton unit front back c inside
  · rintro front inner back rfl nonempty stop range
    have covered : inner ++ back ≠ "" := by
      intro empty
      exact nonempty (String.append_eq_empty_iff.1 empty).1
    have positive : 0 < stop := by
      have size : 0 < inner.utf8ByteSize :=
        Nat.pos_of_ne_zero fun zero => nonempty (String.utf8ByteSize_eq_zero_iff.1 zero)
      simp only [stop, String.utf8ByteSize_append]
      omega
    have half := rangeOf_append unit front inner back covered
    refine ⟨half, ?_⟩
    intro bounded
    rw [rangeOf_inclusive _ (by omega), Nat.sub_add_cancel positive]
    exact half

/-- A character of two bytes, one of four bytes and two units, and one of one byte, which ends
the text. -/
theorem build_units_beyond :
    let t := build .utf16 "é😀z"
    t.byteLength = 7 ∧ t.get? 4 = some 1 ∧ t.charLength = 4 ∧
      t.rangeOf .halfOpen ⟨2, 6⟩ = ⟨1, 3⟩ ∧ t.rangeOf .inclusive ⟨2, 5⟩ = ⟨1, 3⟩ ∧
      t.rangeOf .halfOpen ⟨2, 7⟩ = ⟨1, 4⟩ ∧ t.rangeOf .inclusive ⟨2, 6⟩ = ⟨1, 4⟩ := by
  obtain ⟨bytes, entries, length, ranges⟩ := build_units .utf16 "é😀z"
  obtain ⟨half, inclusive⟩ := ranges "é" "😀" "z" rfl (by decide)
  obtain ⟨halfEnd, inclusiveEnd⟩ := ranges "é" "😀z" "" rfl (by decide)
  exact ⟨bytes, entries "é" '😀' "z" rfl 2 (by decide), length, half, inclusive (by decide),
    halfEnd, inclusiveEnd (by decide)⟩

end OffsetTable

/-! ## Spans between characters -/

namespace Span

/-- The text of a span: its bytes, decoded. -/
def text? (span : Span) (source : String) : Option String :=
  String.fromUTF8? (source.toUTF8.extract span.start span.stop)

/-- A span starts and ends on boundaries between the characters of a source, and is not
empty at the very end of it. -/
structure OnBoundaries (source : String) (span : Span) : Prop where
  start_valid : (String.Pos.Raw.mk span.start).IsValid source
  stop_valid : (String.Pos.Raw.mk span.stop).IsValid source
  not_empty_at_end : span.start = span.stop → span.stop ≠ source.utf8ByteSize

theorem text?_append (front inner back : String) :
    text? ⟨front.utf8ByteSize, (front ++ inner).utf8ByteSize⟩ (front ++ inner ++ back) =
      some inner := by
  have bytes : (front ++ inner ++ back).toUTF8.extract front.utf8ByteSize
      (front ++ inner).utf8ByteSize = inner.toByteArray := by
    rw [String.toUTF8_eq_toByteArray, String.toByteArray_append, ← String.size_toByteArray,
      ← String.size_toByteArray, ByteArray.extract_append_size_left, String.toByteArray_append,
      ByteArray.extract_append_eq_right rfl ByteArray.size_append]
  rw [text?, bytes, String.fromUTF8?, dif_pos inner.isValidUTF8]
  rfl

/-- A span in order between boundaries cuts the source into three texts. -/
theorem exists_append_eq {source : String} {span : Span}
    (start : (String.Pos.Raw.mk span.start).IsValid source)
    (stop : (String.Pos.Raw.mk span.stop).IsValid source) (ordered : span.start ≤ span.stop) :
    ∃ front inner back, source = front ++ inner ++ back ∧
      span = ⟨front.utf8ByteSize, (front ++ inner).utf8ByteSize⟩ := by
  obtain ⟨front, rest, rfl, first⟩ := String.Pos.Raw.isValid_iff_exists_append.1 start
  have first : span.start = front.utf8ByteSize := congrArg String.Pos.Raw.byteIdx first
  rcases String.Pos.Raw.isValid_append.1 stop with inside | ⟨-, inside⟩
  · -- The span stops where it starts.
    have last : span.stop ≤ front.utf8ByteSize := inside.le_utf8ByteSize
    have same : span.stop = front.utf8ByteSize := by omega
    refine ⟨front, "", rest, by rw [String.append_empty], ?_⟩
    show Span.mk span.start span.stop = _
    rw [String.append_empty, first, same]
  · obtain ⟨inner, back, rfl, last⟩ := String.Pos.Raw.isValid_iff_exists_append.1 inside
    have last : span.stop - front.utf8ByteSize = inner.utf8ByteSize :=
      congrArg String.Pos.Raw.byteIdx last
    have whole : span.stop = (front ++ inner).utf8ByteSize := by
      rw [String.utf8ByteSize_append]
      omega
    refine ⟨front, inner, back, String.append_assoc.symm, ?_⟩
    show Span.mk span.start span.stop = _
    rw [first, whole]

end Span

end TreeLens
