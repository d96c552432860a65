import TreeLens.Proofs.Tree.Data
import TreeLens.Proofs.Tree.Spans

/-!
# Normal forms are sound

A normal form has valid spans, distinct keys and leaves that are what they look like: numbers
are finite, and no text is left that spells another leaf. The raw data has to be such as the
data format allows: no object repeats a key, and numbers are integers of 64 bits or finite
doubles.

Spans and keys are treated where they are made; here the leaves are added (`keeps_settled`). A
number may be an integer with more digits than a double has. It is rounded, and
`Double.isFinite_ofRatio` says that this does not lead out of the finite doubles.
-/

namespace TreeLens

/-! ## Numbers -/

namespace Double

/-- A significand with a small scale is finite, however it is rounded. -/
theorem isFinite_ofScaled (negative : Bool) (significand : Nat) {scale : Int}
    (small : scale < 971) : (ofScaled negative significand scale).isFinite := by
  have inside : (if significand = 2 * leadingBit then scale + 1 else scale) + 1075 < 2047 := by
    split <;> omega
  unfold ofScaled
  split
  · rfl
  · simp only [if_neg (Int.not_le.2 inside)]
    rw [isFinite, bne_iff_ne]
    show Int.toNat _ % 2048 ≠ 2047
    omega

theorem isFinite_ofRatio (negative : Bool) {num : Nat} (small : num.log2 < 1000) :
    (ofRatio negative num 1).isFinite := by
  unfold ofRatio
  split
  · rfl
  · refine isFinite_ofScaled negative _ ?_
    have one : Nat.log2 1 = 0 := by decide
    simp only [minScale, one]
    split <;> omega

end Double

/-- A number of the data format: an integer of 64 bits, with a sign or without, or a finite
double. -/
def Number.InRange : Number → Prop
  | .int i => -0x8000000000000000 ≤ i ∧ i < 0x10000000000000000
  | .float d => d.isFinite

instance : DecidablePred Number.InRange
  | .int i => inferInstanceAs (Decidable (-0x8000000000000000 ≤ i ∧ i < 0x10000000000000000))
  | .float d => inferInstanceAs (Decidable (d.isFinite = true))

theorem Number.InRange.isFinite_toDouble {n : Number} (range : n.InRange) :
    n.toDouble.isFinite := by
  cases n with
  | float d => exact range
  | int i =>
      obtain ⟨low, high⟩ := range
      refine Double.isFinite_ofRatio _ ?_
      by_cases zero : i.natAbs = 0
      · rw [zero]
        decide
      · have fits : i.natAbs.log2 < 64 := (Nat.log2_lt zero).2 (by omega)
        omega

/-- A raw value, if it is a number, is one of the data format. -/
def Json.InRange : Json → Prop
  | .num n => n.InRange
  | _ => True

instance : DecidablePred Json.InRange
  | .num n => inferInstanceAs (Decidable n.InRange)
  | .null => .isTrue trivial
  | .bool _ => .isTrue trivial
  | .str _ => .isTrue trivial
  | .arr _ => .isTrue trivial
  | .obj _ => .isTrue trivial

/-! ## Leaves -/

/-- A leaf is what it looks like: a number is finite, and a text spells no other leaf. -/
def Leaf.Settled : Leaf → Prop
  | .num d => d.isFinite
  | .str s => Leaf.ofText s = .str s
  | _ => True

/-- A text spells a text exactly if it is no truth word and no finite numeral, and then it
spells itself. -/
theorem Leaf.ofText_eq_str_iff {s t : String} :
    ofText s = .str t ↔ s = t ∧ s ≠ "true" ∧ s ≠ "false" ∧
      ∀ d, Double.read? s = some d → d.isFinite = false := by
  unfold ofText
  split
  · next yes => simp [yes]
  · next notTrue =>
      split
      · next no => simp [no]
      · next notFalse =>
          split
          · next d read => cases finite : d.isFinite <;> simp [notTrue, notFalse, read, finite]
          · next unread => simp [notTrue, notFalse, unread]

theorem Leaf.settled_ofText (s : String) : (ofText s).Settled := by
  cases spelled : ofText s with
  | null => trivial
  | bool b => trivial
  | str t =>
      obtain ⟨rfl, -⟩ := ofText_eq_str_iff.1 spelled
      exact spelled
  | num d =>
      unfold ofText at spelled
      split at spelled
      · cases spelled
      · split at spelled
        · cases spelled
        · split at spelled
          · split at spelled
            · next finite =>
                cases spelled
                exact finite
            · cases spelled
          · cases spelled

/-- A node, if it is a leaf, is what it looks like. -/
def Node.Settled : Node → Prop
  | .leaf value => value.Settled
  | _ => True

theorem keeps_settled (limit : Option Nat) : Normal.Keeps limit Json.InRange Node.Settled where
  leaf := by
    intro value made
    cases made with
    | null => trivial
    | bool b => trivial
    | num range => exact range.isFinite_toDouble
    | text => exact Leaf.settled_ofText _
  array _ := trivial
  fields := by
    intros
    trivial
  withSpan := by
    intro _ _ _ span n _ settled
    cases n <;> exact settled
  named? := by
    intro name n m named _
    unfold Node.named? at named
    split at named <;> cases named <;> trivial

/-- **Normal forms are sound.** Throughout the normal form of raw data that is such as the data
format allows: every span is in order and inside the source, the keys of every object are
distinct, every number is finite, and every text spells itself, so that it is no truth word
and no finite numeral. -/
theorem sound_of_normalize {limit : Option Nat} {raw : Json} {n : Node}
    (distinct : raw.Everywhere Json.DistinctKeys) (range : raw.Everywhere Json.InRange)
    (ok : normalize limit raw = .ok n) :
    n.AllSpans (Span.Within limit) ∧
    n.Everywhere Node.DistinctKeys ∧
    (∀ path d, n.resolve? path = some (.leaf (.num d)) → d.isFinite) ∧
    ∀ path s, n.resolve? path = some (.leaf (.str s)) → Leaf.ofText s = .str s ∧
      s ≠ "true" ∧ s ≠ "false" ∧ ∀ d, Double.read? s = some d → d.isFinite = false := by
  have settled := everywhere_of_normalize (keeps_settled limit) range ok
  refine ⟨within_of_normalize ok, distinctKeys_of_normalize distinct ok, ?_, ?_⟩
  · intro path d resolved
    exact settled path _ resolved
  · intro path s resolved
    have same : Leaf.ofText s = .str s := settled path _ resolved
    exact ⟨same, (Leaf.ofText_eq_str_iff.1 same).2⟩

/-- A name wrapper in a span wrapper, a field that is a wrapper around its own key, the
greatest integer, which is rounded up, and a numeral that is too large to be a number. -/
theorem sound_of_normalize_rounded :
    let wrapped (stop : Nat) (data : Json) : Json :=
      .obj [("start", .ofNat 0), ("end", .ofNat stop), ("data", data)]
    let raw : Json := wrapped 9 (.obj [("call", .obj
      [("id", wrapped 4 (.obj [("id", .obj [("name", .str "f"), ("kind", .str "-2.5e1")])])),
        ("args", .arr [.num (.int 0xFFFFFFFFFFFFFFFF), .str "1e999"])])])
    raw.Everywhere Json.DistinctKeys ∧ raw.Everywhere Json.InRange ∧
      ∃ n d, normalize (some 9) raw = .ok n ∧ n.AllSpans (Span.Within (some 9)) ∧
        n.Everywhere Node.DistinctKeys ∧
        n.resolve? [.field 1, .item 0] = some (.leaf (.num d)) ∧ d.isFinite ∧
        n.resolve? [.field 1, .item 1] = some (.leaf (.str "1e999")) ∧
        Leaf.ofText "1e999" = .str "1e999" := by
  intro wrapped raw
  have distinct : raw.Everywhere Json.DistinctKeys := by decide +kernel
  have range : raw.Everywhere Json.InRange := by decide +kernel
  obtain ⟨n, d, ok, number, text⟩ : ∃ n d, normalize (some 9) raw = .ok n ∧
      n.resolve? [.field 1, .item 0] = some (.leaf (.num d)) ∧
      n.resolve? [.field 1, .item 1] = some (.leaf (.str "1e999")) := ⟨_, _, rfl, rfl, rfl⟩
  obtain ⟨spans, keys, numbers, texts⟩ := sound_of_normalize distinct range ok
  exact ⟨distinct, range, n, d, ok, spans, keys, number, numbers _ d number, text,
    (texts _ _ text).1⟩

end TreeLens
