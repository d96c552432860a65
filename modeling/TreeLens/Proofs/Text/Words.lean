import TreeLens.Proofs.Text.Capitals
import TreeLens.Text.Words

/-!
# Names word by word

Pascal case works on the words of a name one by one: an underscore starts a new word, whatever
was read before it (`pascalChars_append_underscore`), and a word without underscores only has its
first character replaced (`pascalChars_of_word`). What comes out is again a word, since capital
forms hold no underscore (`underscore_not_mem_pascalChars`), and its first character is in capital
form already (`capitalized_pascalChars`). So a second pass finds one word and leaves it as it is.
-/

namespace TreeLens

/-- A word with its first character in capital form. -/
def capitalized : List Char → List Char
  | [] => []
  | c :: rest => upperCase c ++ rest

/-! ## Underscores -/

@[simp] theorem pascalChars_underscore (fresh : Bool) (rest : List Char) :
    pascalChars fresh ('_' :: rest) = pascalChars true rest := by
  rw [pascalChars, if_pos rfl]

theorem pascalChars_cons (fresh : Bool) {c : Char} (other : c ≠ '_') (rest : List Char) :
    pascalChars fresh (c :: rest) =
      (if fresh then upperCase c else [c]) ++ pascalChars false rest := by
  rw [pascalChars, if_neg other]

/-- Nothing read before an underscore tells on what follows it. -/
theorem pascalChars_append_underscore (fresh : Bool) (front back : List Char) :
    pascalChars fresh (front ++ '_' :: back) =
      pascalChars fresh front ++ pascalChars true back := by
  induction front generalizing fresh with
  | nil => simp [pascalChars]
  | cons c rest ih =>
      rw [List.cons_append]
      by_cases underscore : c = '_'
      · subst underscore
        rw [pascalChars_underscore, pascalChars_underscore, ih]
      · rw [pascalChars_cons fresh underscore, pascalChars_cons fresh underscore, ih,
          List.append_assoc]

theorem underscore_not_mem_pascalChars (fresh : Bool) (chars : List Char) :
    '_' ∉ pascalChars fresh chars := by
  induction chars generalizing fresh with
  | nil => exact List.not_mem_nil
  | cons c rest ih =>
      by_cases underscore : c = '_'
      · subst underscore
        rw [pascalChars_underscore]
        exact ih true
      · rw [pascalChars_cons fresh underscore, List.mem_append]
        rintro (first | later)
        · cases fresh with
          | false => exact underscore (List.mem_singleton.1 first).symm
          | true => exact underscore (eq_underscore_of_mem_upperCase first)
        · exact ih false later

/-! ## Words -/

theorem pascalChars_false_of_word {word : List Char} (single : '_' ∉ word) :
    pascalChars false word = word := by
  induction word with
  | nil => rfl
  | cons c rest ih =>
      obtain ⟨here, later⟩ := not_or.1 (mt List.mem_cons.2 single)
      rw [pascalChars_cons false (Ne.symm here), ih later]
      rfl

theorem pascalChars_of_word {word : List Char} (single : '_' ∉ word) :
    pascalChars true word = capitalized word := by
  cases word with
  | nil => rfl
  | cons c rest =>
      obtain ⟨here, later⟩ := not_or.1 (mt List.mem_cons.2 single)
      rw [pascalChars_cons true (Ne.symm here), pascalChars_false_of_word later]
      rfl

theorem capitalized_upperCase_append (c : Char) (rest : List Char) :
    capitalized (upperCase c ++ rest) = upperCase c ++ rest := by
  -- Only the first character of a capital form is changed again, and it is its own.
  obtain ⟨first, others, form⟩ := List.exists_cons_of_ne_nil (upperCase_ne_nil c)
  have own : upperCase first = [first] := by
    apply upperCase_of_mem_upperCase (c := c)
    rw [form]
    exact List.mem_cons_self
  rw [form, List.cons_append, capitalized, own, List.singleton_append]

theorem capitalized_pascalChars (chars : List Char) :
    capitalized (pascalChars true chars) = pascalChars true chars := by
  induction chars with
  | nil => rfl
  | cons c rest ih =>
      by_cases underscore : c = '_'
      · subst underscore
        rw [pascalChars_underscore, ih]
      · rw [pascalChars_cons true underscore]
        exact capitalized_upperCase_append c _

/-! ## Names -/

theorem toList_pascalCase (name : String) :
    (pascalCase name).toList = pascalChars true name.toList :=
  String.toList_ofList

/-- **Names word by word.** The pascal case of two names with an underscore between them is that of
the one and then that of the other; pascal case holds no underscore and stays the same in pascal
case. A name without underscores has its first character in capital form and all else as it was,
which with the first law says what becomes of every name. -/
theorem wordwise_pascalCase :
    (∀ a b : String, pascalCase (a ++ "_" ++ b) = pascalCase a ++ pascalCase b) ∧
    (∀ s : String, '_' ∉ (pascalCase s).toList ∧ pascalCase (pascalCase s) = pascalCase s) ∧
    ∀ word : String, '_' ∉ word.toList →
      (pascalCase word).toList = capitalized word.toList := by
  refine ⟨?_, ?_, ?_⟩
  · intro a b
    apply String.toList_inj.1
    have parts : (a ++ "_" ++ b).toList = a.toList ++ '_' :: b.toList := by simp
    rw [String.toList_append, toList_pascalCase, toList_pascalCase, toList_pascalCase, parts,
      pascalChars_append_underscore]
  · intro s
    have single : '_' ∉ (pascalCase s).toList := by
      rw [toList_pascalCase]
      exact underscore_not_mem_pascalChars true s.toList
    refine ⟨single, String.toList_inj.1 ?_⟩
    calc (pascalCase (pascalCase s)).toList
      _ = pascalChars true (pascalCase s).toList := toList_pascalCase _
      _ = capitalized (pascalCase s).toList := pascalChars_of_word single
      _ = (pascalCase s).toList := by rw [toList_pascalCase, capitalized_pascalChars]
  · intro word single
    rw [toList_pascalCase]
    exact pascalChars_of_word single

/-- Outer and repeated underscores leave nothing, and a capital form may be longer. -/
theorem wordwise_pascalCase_sharp :
    pascalCase ("__ßen" ++ "_" ++ "_ǆ") = "SSenǄ" ∧
      '_' ∉ "ßen".toList ∧ (pascalCase "ßen").toList = ['S', 'S', 'e', 'n'] :=
  ⟨(wordwise_pascalCase.1 "__ßen" "_ǆ").trans (by decide), by decide,
    wordwise_pascalCase.2.2 "ßen" (by decide)⟩

end TreeLens
