import TreeLens.Text.UpperCase

/-!
# Capital forms

Capital forms are final: each character of a capital form is its own capital form
(`upperCase_of_mem_upperCase`), and an underscore stands in no capital form but its own
(`eq_underscore_of_mem_upperCase`). Both hold since the code points that the tables change and
those that they change to have none in common (`unchanged_of_mem_capitals`). Each of the two
lists has some sixteen hundred members, so they are not compared one by one but as the bits of
two numbers (`bits_capitals`).
-/

namespace TreeLens

namespace UpperCase

/-! ## Code points of the tables -/

/-- The code points of a run, in ascending order. -/
def Run.codes (r : Run) : List Nat :=
  List.range' r.first ((r.last - r.first) / r.step + 1) r.step

/-- The code point of the capital form, for a code point of the run. -/
def Run.capital (r : Run) (code : Nat) : Nat :=
  (code + r.shift).toNat

/-- The code points that are not their own capital form. -/
def changed : List Nat :=
  runs.flatMap Run.codes ++ expansions.map (·.1)

/-- The code points that stand in capital forms of others. -/
def capitals : List Nat :=
  (runs.flatMap fun r => r.codes.map r.capital) ++ expansions.flatMap (·.2)

theorem Run.mem_codes {r : Run} {code : Nat} (covered : r.covers code = true) :
    code ∈ r.codes := by
  simp only [Run.covers, Bool.and_eq_true, decide_eq_true_eq, beq_iff_eq] at covered
  obtain ⟨⟨lower, upper⟩, multiple⟩ := covered
  have steps := Nat.div_add_mod (code - r.first) r.step
  have fewer : (code - r.first) / r.step ≤ (r.last - r.first) / r.step :=
    Nat.div_le_div_right (by omega)
  refine List.mem_range'.2 ⟨(code - r.first) / r.step, by omega, ?_⟩
  omega

theorem mem_changed_of_run {r : Run} {code : Nat} (member : r ∈ runs)
    (covered : r.covers code = true) : code ∈ changed :=
  List.mem_append_left _ (List.mem_flatMap.2 ⟨r, member, Run.mem_codes covered⟩)

theorem mem_changed_of_expansion {entry : Nat × List Nat} (member : entry ∈ expansions) :
    entry.1 ∈ changed :=
  List.mem_append_right _ (List.mem_map_of_mem member)

theorem mem_capitals_of_run {r : Run} {code : Nat} (member : r ∈ runs)
    (covered : r.covers code = true) : r.capital code ∈ capitals := by
  refine List.mem_append_left _ (List.mem_flatMap.2 ⟨r, member, ?_⟩)
  exact List.mem_map_of_mem (Run.mem_codes covered)

theorem mem_capitals_of_expansion {entry : Nat × List Nat} (member : entry ∈ expansions)
    {code : Nat} (inside : code ∈ entry.2) : code ∈ capitals :=
  List.mem_append_right _ (List.mem_flatMap.2 ⟨entry, member, inside⟩)

/-! ## Sets of code points as bits -/

/-- The number whose bits are the given code points. -/
def bits (codes : List Nat) : Nat :=
  codes.foldr (fun code others => 1 <<< code ||| others) 0

theorem testBit_bits {codes : List Nat} {code : Nat} (member : code ∈ codes) :
    (bits codes).testBit code = true := by
  induction codes with
  | nil => exact absurd member List.not_mem_nil
  | cons first rest ih =>
      have split : bits (first :: rest) = 1 <<< first ||| bits rest := rfl
      rw [split, Nat.testBit_or, Bool.or_eq_true]
      rcases List.mem_cons.1 member with rfl | later
      · rw [Nat.one_shiftLeft]
        exact .inl Nat.testBit_two_pow_self
      · exact .inr (ih later)

theorem not_mem_of_bits {one two : List Nat} (apart : bits one &&& bits two = 0) {code : Nat}
    (member : code ∈ one) : code ∉ two := by
  intro other
  have both : (bits one &&& bits two).testBit code = true := by
    rw [Nat.testBit_and, testBit_bits member, testBit_bits other, Bool.and_self]
  rw [apart, Nat.zero_testBit] at both
  cases both

/-! ## The tables as a whole -/

theorem bits_capitals : bits capitals &&& bits ('_'.toNat :: changed) = 0 := by
  decide +kernel

/-- What the tables change to, they do not change again; nor is it the underscore. -/
theorem unchanged_of_mem_capitals {code : Nat} (member : code ∈ capitals) :
    code ≠ '_'.toNat ∧ code ∉ changed := by
  have outside := not_mem_of_bits bits_capitals member
  rwa [List.mem_cons, not_or] at outside

theorem isValidChar_of_mem_capitals : ∀ code ∈ capitals, code.isValidChar := by
  decide +kernel

theorem expansions_ne_nil : ∀ entry ∈ expansions, entry.2 ≠ [] := by
  decide

theorem toNat_ofNat_of_mem_capitals {code : Nat} (member : code ∈ capitals) :
    (Char.ofNat code).toNat = code := by
  rw [Char.ofNat, dif_pos (isValidChar_of_mem_capitals code member)]
  rfl

end UpperCase

open UpperCase

/-! ## Capital forms of characters -/

theorem upperCase_of_not_mem_changed {c : Char} (unchanged : c.toNat ∉ changed) :
    upperCase c = [c] := by
  have noExpansion : expansions.find? (·.1 == c.toNat) = none := by
    refine List.find?_eq_none.2 fun entry member same => unchanged ?_
    rw [← beq_iff_eq.1 same]
    exact mem_changed_of_expansion member
  have noRun : runs.find? (·.covers c.toNat) = none := by
    refine List.find?_eq_none.2 fun r member covered => unchanged ?_
    exact mem_changed_of_run member covered
  rw [upperCase, noExpansion, noRun]

/-- A character is its own capital form, or its capital form is made of others that stand in the
tables. -/
theorem upperCase_cases (c : Char) :
    upperCase c = [c] ∨
      ∃ codes, codes ≠ [] ∧ (∀ code ∈ codes, code ∈ capitals) ∧
        upperCase c = codes.map Char.ofNat := by
  unfold upperCase
  -- A run is only looked for where no expansion is listed.
  split
  · next first codes found =>
      have member := List.mem_of_find?_eq_some found
      refine .inr ⟨codes, expansions_ne_nil _ member, ?_, rfl⟩
      exact fun code inside => mem_capitals_of_expansion member inside
  · split
    · next r found =>
        have member := List.mem_of_find?_eq_some found
        have covered := List.find?_some found
        refine .inr ⟨[r.capital c.toNat], List.cons_ne_nil _ _, ?_, rfl⟩
        intro code inside
        rw [List.mem_singleton.1 inside]
        exact mem_capitals_of_run member covered
    · exact .inl rfl

theorem upperCase_ne_nil (c : Char) : upperCase c ≠ [] := by
  rcases upperCase_cases c with own | ⟨codes, nonempty, -, form⟩
  · rw [own]
    exact List.cons_ne_nil _ _
  · rw [form]
    exact mt List.map_eq_nil_iff.1 nonempty

/-- **Capital forms are final.** -/
theorem upperCase_of_mem_upperCase {c d : Char} (member : d ∈ upperCase c) :
    upperCase d = [d] := by
  rcases upperCase_cases c with own | ⟨codes, -, inTables, form⟩
  · rw [own, List.mem_singleton] at member
    rw [member, own]
  · rw [form] at member
    obtain ⟨code, inside, rfl⟩ := List.mem_map.1 member
    apply upperCase_of_not_mem_changed
    rw [toNat_ofNat_of_mem_capitals (inTables code inside)]
    exact (unchanged_of_mem_capitals (inTables code inside)).2

theorem eq_underscore_of_mem_upperCase {c : Char} (member : '_' ∈ upperCase c) : c = '_' := by
  rcases upperCase_cases c with own | ⟨codes, -, inTables, form⟩
  · rw [own, List.mem_singleton] at member
    exact member.symm
  · rw [form] at member
    obtain ⟨code, inside, same⟩ := List.mem_map.1 member
    have underscore : code = '_'.toNat := by
      rw [← toNat_ofNat_of_mem_capitals (inTables code inside), same]
    exact absurd underscore (unchanged_of_mem_capitals (inTables code inside)).1

end TreeLens
