import Mathlib.Data.List.Induction
import TreeLens.Proofs.Query.Locations

/-!
# Telling locations by their texts

A location is written place after place, and a place in one of three ways: plain characters
after a dot, digits in brackets, or any characters in brackets and quotes (`Spelling`). What
stands in quotes may look like the end of one place and the start of the next one. Still a
text can be taken apart in one way only, namely from its end: in quotes a quote never stands
without a backslash right before it, but the quote that opens a place has a bracket before it
(`Spelling.last_append_text`).

So two locations never have the same text, even where backslashes are not escaped
(`text_escapeQuote_injective`), and where they are, the text is read back as its location and
as no other one (`spelledBy_text_iff`).
-/

namespace TreeLens

/-- Pieces of a text can be told apart if whatever a text ends in tells its last piece. -/
theorem eq_of_flatMap_eq {α : Type} {P : α → Prop} {write : α → List Char}
    (last : List Char → α) (filled : ∀ a, write a ≠ [])
    (tells : ∀ a, P a → ∀ front, last (front ++ write a) = a) {one other : List α}
    (proper : ∀ a ∈ one, P a) (otherProper : ∀ a ∈ other, P a)
    (same : one.flatMap write = other.flatMap write) : one = other := by
  induction one using List.reverseRecOn generalizing other with
  | nil =>
      cases other with
      | nil => rfl
      | cons b rest =>
          rw [List.flatMap_nil, List.flatMap_cons] at same
          exact absurd (List.append_eq_nil_iff.1 same.symm).1 (filled b)
  | append_singleton front a ih =>
      rcases List.eq_nil_or_concat other with rfl | ⟨others, b, rfl⟩
      · rw [List.flatMap_append, List.flatMap_singleton, List.flatMap_nil] at same
        exact absurd (List.append_eq_nil_iff.1 same).2 (filled a)
      · rw [List.concat_eq_append] at same otherProper ⊢
        rw [List.flatMap_append, List.flatMap_append, List.flatMap_singleton,
          List.flatMap_singleton] at same
        rw [List.forall_mem_append] at proper otherProper
        have final : a = b := by
          rw [← tells a (proper.2 a List.mem_cons_self) (front.flatMap write), same]
          exact tells b (otherProper.2 b List.mem_cons_self) _
        subst final
        rw [ih proper.1 otherProper.1 (List.append_cancel_right same)]

/-! ## Spellings -/

/-- A place as it is written. -/
inductive Spelling where
  | plain (chars : List Char)
  | number (digits : List Char)
  | quoted (chars : List Char)

namespace Spelling

def text : Spelling → List Char
  | .plain chars => '.' :: chars
  | .number digits => '[' :: (digits ++ [']'])
  | .quoted chars => '[' :: '\'' :: (chars ++ ['\'', ']'])

/-- The characters that are meant by characters in quotes: two backslashes mean a backslash,
a backslash and a quote mean a quote, and any other character means itself. -/
def unescape? : List Char → Option (List Char)
  | [] => some []
  | '\\' :: '\\' :: rest => (unescape? rest).map ('\\' :: ·)
  | '\\' :: '\'' :: rest => (unescape? rest).map ('\'' :: ·)
  | c :: rest => if c = '\\' ∨ c = '\'' then none else (unescape? rest).map (c :: ·)

/-- The place that is written. -/
def place? : Spelling → Option Place
  | .plain chars =>
    if chars ≠ [] ∧ chars.all Place.isPlainChar then some (.key (String.ofList chars)) else none
  | .number digits =>
    if digits ≠ [] ∧ digits.all Char.isDigit then some (.index (Numeral.natOfDigits digits))
    else none
  | .quoted chars => (unescape? chars).map fun name => .key (String.ofList name)

/-! ### Reading from the end -/

/-- Every quote has a backslash of its own right before it. -/
inductive Guarded : List Char → Prop
  | nil : Guarded []
  | char {c : Char} {rest : List Char} (other : c ≠ '\'') (guarded : Guarded rest) :
      Guarded (c :: rest)
  | quote {rest : List Char} (guarded : Guarded rest) : Guarded ('\\' :: '\'' :: rest)

/-- What a spelling has to be made of, for its end to be told. -/
def Proper : Spelling → Prop
  | .plain chars => ∀ c ∈ chars, Place.isPlainChar c
  | .number digits => ∀ c ∈ digits, c.isDigit
  | .quoted chars => Guarded chars

/-- The characters up to a quote that has no backslash before it; they are given and
returned from the last to the first. -/
def backToQuote : List Char → List Char
  | '\'' :: '\\' :: rest => '\'' :: '\\' :: backToQuote rest
  | '\'' :: _ => []
  | c :: rest => c :: backToQuote rest
  | [] => []

/-- The spelling that a text ends in. -/
def last (text : List Char) : Spelling :=
  match text.reverse with
  | ']' :: '\'' :: rest => .quoted (backToQuote rest).reverse
  | ']' :: rest => .number (rest.takeWhile Char.isDigit).reverse
  | rest => .plain (rest.takeWhile Place.isPlainChar).reverse

theorem backToQuote_cons {c : Char} (other : c ≠ '\'') (rest : List Char) :
    backToQuote (c :: rest) = c :: backToQuote rest := by
  rw [backToQuote]
  · rintro _ rfl
    exact absurd rfl other
  · rintro rfl
    exact absurd rfl other

theorem Guarded.backToQuote_append {chars : List Char} (guarded : Guarded chars)
    (before : List Char) :
    backToQuote (chars.reverse ++ before) = chars.reverse ++ backToQuote before := by
  -- From the end the first characters come last, so each is moved to what stands before.
  induction guarded generalizing before with
  | nil => rfl
  | char other _ ih =>
      rw [List.reverse_cons, List.append_assoc, List.append_assoc, List.singleton_append, ih,
        backToQuote_cons other]
      rfl
  | quote _ ih =>
      rw [List.reverse_cons, List.reverse_cons, List.append_assoc, List.append_assoc,
        List.append_assoc, List.append_assoc]
      exact ih ('\'' :: '\\' :: before)

section

variable {p : Char → Bool} {chars : List Char} {stop : Char}

theorem takeWhile_reverse_append (each : ∀ c ∈ chars, p c) (stops : p stop = false)
    (before : List Char) : (chars.reverse ++ stop :: before).takeWhile p = chars.reverse := by
  rw [List.takeWhile_append_of_pos (by simpa using each), List.takeWhile_cons, stops]
  simp

theorem reverse_append_ne_cons (each : ∀ c ∈ chars, p c) {other : Char}
    (unlike : p other = false) (differs : stop ≠ other) (before rest : List Char) :
    chars.reverse ++ stop :: before ≠ other :: rest := by
  cases backwards : chars.reverse with
  | nil => simp [differs]
  | cons c others =>
      have member : c ∈ chars := List.mem_reverse.1 (by rw [backwards]; exact List.mem_cons_self)
      have same : p c := each c member
      intro equal
      obtain rfl := (List.cons.inj equal).1
      rw [unlike] at same
      cases same

end

/-- What a text ends in tells its last spelling. -/
theorem last_append_text {s : Spelling} (proper : s.Proper) (front : List Char) :
    last (front ++ s.text) = s := by
  cases s with
  | quoted chars =>
      have reversed : (front ++ (quoted chars).text).reverse =
          ']' :: '\'' :: (chars.reverse ++ '\'' :: '[' :: front.reverse) := by
        simp [text]
      rw [last, reversed]
      show quoted (backToQuote _).reverse = _
      rw [Guarded.backToQuote_append proper]
      simp [backToQuote]
  | number digits =>
      have reversed : (front ++ (number digits).text).reverse =
          ']' :: (digits.reverse ++ '[' :: front.reverse) := by
        simp [text]
      have noQuote (rest : List Char) : digits.reverse ++ '[' :: front.reverse ≠ '\'' :: rest :=
        reverse_append_ne_cons proper (by decide) (by decide) front.reverse rest
      rw [last, reversed]
      split
      · next rest same => exact absurd (List.cons.inj same).2 (noQuote rest)
      · next rest _ same =>
          rw [← (List.cons.inj same).2, takeWhile_reverse_append proper (by decide),
            List.reverse_reverse]
      · next bracket => exact absurd rfl (bracket _)
  | plain chars =>
      have reversed : (front ++ (plain chars).text).reverse =
          chars.reverse ++ '.' :: front.reverse := by
        simp [text]
      have noBracket (rest : List Char) : chars.reverse ++ '.' :: front.reverse ≠ ']' :: rest :=
        reverse_append_ne_cons proper (by decide) (by decide) front.reverse rest
      rw [last, reversed]
      split
      · next same => exact absurd same (noBracket _)
      · next same => exact absurd same (noBracket _)
      · rw [takeWhile_reverse_append proper (by decide), List.reverse_reverse]

theorem eq_of_flatMap_text_eq {one other : List Spelling} (proper : ∀ s ∈ one, s.Proper)
    (otherProper : ∀ s ∈ other, s.Proper) (same : one.flatMap text = other.flatMap text) :
    one = other :=
  eq_of_flatMap_eq last (fun s => by cases s <;> simp [text])
    (fun _ proper front => last_append_text proper front) proper otherProper same

/-! ### Characters in quotes -/

theorem guarded_of_unescape? {chars name : List Char} (read : unescape? chars = some name) :
    Guarded chars := by
  fun_induction unescape? chars generalizing name with
  | case1 => exact .nil
  | case2 rest ih =>
      obtain ⟨inner, read, -⟩ := Option.map_eq_some_iff.1 read
      exact .char (by decide) (.char (by decide) (ih read))
  | case3 rest ih =>
      obtain ⟨inner, read, -⟩ := Option.map_eq_some_iff.1 read
      exact .quote (ih read)
  | case4 => cases read
  | case5 c rest _ _ other ih =>
      obtain ⟨inner, read, -⟩ := Option.map_eq_some_iff.1 read
      exact .char (fun quote => other (.inr quote)) (ih read)

theorem unescape?_flatMap_escapeBoth (chars : List Char) :
    unescape? (chars.flatMap Place.escapeBoth) = some chars := by
  induction chars with
  | nil => rfl
  | cons c rest ih =>
      rw [List.flatMap_cons, Place.escapeBoth]
      by_cases quote : c = '\''
      · subst quote
        simp [unescape?, ih]
      · by_cases backslash : c = '\\'
        · subst backslash
          simp [unescape?, ih]
        · rw [if_neg (by simp [quote, backslash]), List.singleton_append, unescape?]
          · simp [quote, backslash, ih]
          · rintro _ rfl
            exact absurd rfl backslash
          · rintro _ rfl
            exact absurd rfl backslash

theorem guarded_flatMap_escapeQuote (chars : List Char) :
    Guarded (chars.flatMap Place.escapeQuote) := by
  induction chars with
  | nil => exact .nil
  | cons c rest ih =>
      rw [List.flatMap_cons, Place.escapeQuote]
      by_cases quote : c = '\''
      · subst quote
        exact .quote ih
      · rw [if_neg quote]
        exact .char quote ih

/-- An escaped character ends in itself, so escaped characters can be told from the end. -/
theorem eq_of_flatMap_escapeQuote_eq {one other : List Char}
    (same : one.flatMap Place.escapeQuote = other.flatMap Place.escapeQuote) : one = other := by
  refine eq_of_flatMap_eq (P := fun _ => True) (fun text => text.getLastD ' ') ?_ ?_
    (fun _ _ => trivial) (fun _ _ => trivial) same
  · intro c
    by_cases quote : c = '\'' <;> simp [Place.escapeQuote, quote]
  · intro c _ front
    by_cases quote : c = '\'' <;> simp [Place.escapeQuote, quote]

end Spelling

/-! ## Locations -/

/-- How a place is written. -/
def Place.spelling (escape : Char → List Char) : Place → Spelling
  | .key name =>
    if isPlain name then .plain name.toList else .quoted (name.toList.flatMap escape)
  | .index number => .number (Nat.toDigits 10 number)

namespace Place

theorem toList_text (escape : Char → List Char) (place : Place) :
    (place.text escape).toList = (place.spelling escape).text := by
  cases place with
  | index number => simp [text, spelling, Spelling.text, Nat.toList_repr]
  | key name => by_cases plain : isPlain name <;> simp [text, spelling, Spelling.text, plain]

theorem isPlain_iff {name : String} :
    isPlain name ↔ name.toList ≠ [] ∧ ∀ c ∈ name.toList, isPlainChar c := by
  simp [isPlain]

theorem proper_spelling_escapeQuote (place : Place) : (place.spelling escapeQuote).Proper := by
  cases place with
  | index number => exact Query.isDigit_of_mem_toDigits
  | key name =>
      rw [spelling]
      split
      · next plain => exact (isPlain_iff.1 plain).2
      · exact Spelling.guarded_flatMap_escapeQuote _

theorem eq_of_spelling_escapeQuote_eq {one other : Place}
    (same : one.spelling escapeQuote = other.spelling escapeQuote) : one = other := by
  cases one with
  | index number =>
      cases other with
      | index otherNumber =>
          have digits := Spelling.number.inj same
          rw [← Query.natOfDigits_toDigits number, digits, Query.natOfDigits_toDigits]
      | key otherName =>
          simp only [spelling] at same
          split at same <;> cases same
  | key name =>
      cases other with
      | index otherNumber =>
          simp only [spelling] at same
          split at same <;> cases same
      | key otherName =>
          -- A plain key and one in quotes differ in their first character.
          have chars : name.toList = otherName.toList := by
            simp only [spelling] at same
            split at same <;> split at same
            · exact Spelling.plain.inj same
            · cases same
            · cases same
            · exact Spelling.eq_of_flatMap_escapeQuote_eq (Spelling.quoted.inj same)
          rw [String.toList_inj.1 chars]

/-- With quotes and backslashes escaped, a place is read back. -/
theorem place?_spelling_escapeBoth (place : Place) :
    (place.spelling escapeBoth).place? = some place := by
  cases place with
  | index number =>
      have digits : (Nat.toDigits 10 number).all Char.isDigit :=
        List.all_eq_true.2 Query.isDigit_of_mem_toDigits
      simp [spelling, Spelling.place?, Nat.toDigits_ne_nil, digits, Query.natOfDigits_toDigits]
  | key name =>
      rw [spelling]
      split
      · next plain =>
          obtain ⟨filled, each⟩ := isPlain_iff.1 plain
          rw [Spelling.place?, if_pos ⟨filled, List.all_eq_true.2 each⟩, String.ofList_toList]
      · rw [Spelling.place?, Spelling.unescape?_flatMap_escapeBoth, Option.map_some,
          String.ofList_toList]

end Place

/-- A text spells the places of a location one after another, from the root on. -/
def Location.SpelledBy (text : String) (location : Location) : Prop :=
  ∃ spellings : List Spelling, text.toList = '$' :: spellings.flatMap Spelling.text ∧
    spellings.map Spelling.place? = location.map some

theorem Spelling.proper_of_place? {s : Spelling} {place : Place} (read : s.place? = some place) :
    s.Proper := by
  cases s with
  | plain chars =>
      rw [place?] at read
      split at read
      · next plain => exact List.all_eq_true.1 plain.2
      · cases read
  | number digits =>
      rw [place?] at read
      split at read
      · next digits => exact List.all_eq_true.1 digits.2
      · cases read
  | quoted chars =>
      obtain ⟨name, read, -⟩ := Option.map_eq_some_iff.1 read
      exact guarded_of_unescape? read

theorem Spelling.proper_of_map_place? {spellings : List Spelling} {location : Location}
    (read : spellings.map place? = location.map some) : ∀ s ∈ spellings, s.Proper := by
  intro s member
  have found : s.place? ∈ location.map some := read ▸ List.mem_map_of_mem member
  obtain ⟨place, -, same⟩ := List.mem_map.1 found
  exact proper_of_place? same.symm

namespace Location

theorem toList_text_spellings (escape : Char → List Char) (location : Location) :
    (location.text escape).toList =
      '$' :: (location.map (Place.spelling escape)).flatMap Spelling.text := by
  rw [toList_text, List.flatMap_map]
  simp only [Place.toList_text]

/-- Two locations never have the same text, though only quotes are escaped. -/
theorem text_escapeQuote_injective : Function.Injective (text Place.escapeQuote) := by
  intro one other same
  have chars := congrArg String.toList same
  rw [toList_text_spellings, toList_text_spellings] at chars
  have spellings := Spelling.eq_of_flatMap_text_eq
    (by simp [Place.proper_spelling_escapeQuote]) (by simp [Place.proper_spelling_escapeQuote])
    (List.cons.inj chars).2
  exact (List.map_inj_right fun _ _ => Place.eq_of_spelling_escapeQuote_eq).1 spellings

/-- With quotes and backslashes escaped, a text spells its location and no other one. -/
theorem spelledBy_text_iff {location other : Location} :
    other.SpelledBy (location.text Place.escapeBoth) ↔ other = location := by
  have own : (location.map (Place.spelling Place.escapeBoth)).map Spelling.place? =
      location.map some := by
    rw [List.map_map]
    exact List.map_congr_left fun place _ => Place.place?_spelling_escapeBoth place
  constructor
  · rintro ⟨spellings, chars, read⟩
    have proper := Spelling.proper_of_map_place? read
    have ownProper := Spelling.proper_of_map_place? own
    rw [toList_text_spellings] at chars
    have same := Spelling.eq_of_flatMap_text_eq ownProper proper (List.cons.inj chars).2
    rw [← same, own] at read
    exact (List.map_inj_right fun _ _ => Option.some.inj).1 read.symm
  · rintro rfl
    exact ⟨_, toList_text_spellings _ _, own⟩

end Location

end TreeLens
