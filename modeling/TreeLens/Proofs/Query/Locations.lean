import TreeLens.Query.Reader
import TreeLens.Tree.Path

/-!
# Reading locations as queries

The text of a location is meant to be read as the query that leads to it, place after place
(`Location.query`). Quotes and backslashes in keys are read back as they were written. Two
kinds of keys are not: a plain key that starts with a digit is written after a dot, where a
name may not start with one, and a control character in a quoted key is written as it is.
`Place.isReadable` leaves these out, and `read?_text` says that the text of a location is read
as its query exactly if all its places are readable, and not at all otherwise.

The reader is followed from place to place. Between two places it stands after a segment, or
in a name of which it cannot know yet that it ended (`Reader.After`).
-/

namespace TreeLens

/-- The segment of a query that leads to a place. -/
def Place.segment : Place → Segment
  | .key name => ⟨false, [.name name]⟩
  | .index number => ⟨false, [.index number]⟩

/-- The query that leads to a location. -/
def Location.query (location : Location) : Query :=
  location.map Place.segment

/-- The text of a place can be read: a plain key does not start with a digit, any other key
has no control characters, and a number is not too large. -/
def Place.isReadable : Place → Bool
  | .key name =>
    if isPlain name then !name.toList.head?.any Char.isDigit
    else name.toList.all fun c => 0x20 ≤ c.toNat
  | .index number => number ≤ Query.maxNumber

def Location.isReadable (location : Location) : Bool :=
  location.all Place.isReadable

/-- The text of a location is the one of its places after the root. -/
theorem Location.toList_text (escape : Char → List Char) (location : Location) :
    (location.text escape).toList =
      '$' :: location.flatMap fun place => (place.text escape).toList := by
  suffices tail : ∀ text : String,
      (location.foldl (fun text place => text ++ place.text escape) text).toList =
        text.toList ++ location.flatMap fun place => (place.text escape).toList from tail "$"
  induction location with
  | nil => simp
  | cons place rest ih =>
      intro text
      rw [List.foldl_cons, ih, String.toList_append, List.flatMap_cons, List.append_assoc]

namespace Query

/-! ## Names -/

section

variable {c : Char}

/-- Letters are the capital and the small ones. -/
theorem toNat_of_isAlpha (alpha : c.isAlpha) :
    (0x41 ≤ c.toNat ∧ c.toNat ≤ 0x5A) ∨ (0x61 ≤ c.toNat ∧ c.toNat ≤ 0x7A) := by
  rcases Bool.or_eq_true_iff.1 alpha with upper | lower
  · exact .inl (of_decide_eq_true upper)
  · obtain ⟨first, last⟩ := Bool.and_eq_true_iff.1 lower
    exact .inr ⟨of_decide_eq_true first, of_decide_eq_true last⟩

theorem toNat_of_isDigit (digit : c.isDigit) : 0x30 ≤ c.toNat ∧ c.toNat ≤ 0x39 := by
  obtain ⟨first, last⟩ := Bool.and_eq_true_iff.1 digit
  exact ⟨of_decide_eq_true first, of_decide_eq_true last⟩

/-- Plain characters are between the digit zero and the small letters. -/
theorem toNat_of_isPlainChar (plain : Place.isPlainChar c) : 0x30 ≤ c.toNat ∧ c.toNat ≤ 0x7A := by
  rcases Bool.or_eq_true_iff.1 plain with alphanum | underscore
  · rcases Bool.or_eq_true_iff.1 alphanum with alpha | digit
    · have range := toNat_of_isAlpha alpha
      omega
    · have range := toNat_of_isDigit digit
      omega
  · obtain rfl := beq_iff_eq.1 underscore
    decide

theorem isPlainChar_of_isDigit (digit : c.isDigit) : Place.isPlainChar c := by
  simp [Place.isPlainChar, Char.isAlphanum, digit]

theorem isWhiteSpace_of_isPlainChar (plain : Place.isPlainChar c) : isWhiteSpace c = false := by
  have range := toNat_of_isPlainChar plain
  simp only [isWhiteSpace, whiteSpaceRanges, List.any_cons, List.any_nil, Bool.or_false,
    Bool.or_eq_false_iff, Bool.and_eq_false_iff, decide_eq_false_iff_not]
  omega

theorem isBlank_of_isPlainChar (plain : Place.isPlainChar c) : Json.isBlank c = false := by
  have range := toNat_of_isPlainChar plain
  rw [Bool.eq_false_iff]
  intro blank
  simp only [Json.isBlank, Bool.or_eq_true, beq_iff_eq] at blank
  rcases blank with ((rfl | rfl) | rfl) | rfl <;> revert range <;> decide

theorem isNameChar_of_isPlainChar (plain : Place.isPlainChar c) : isNameChar c := by
  simp only [Place.isPlainChar, Char.isAlphanum, Bool.or_eq_true] at plain
  simp only [isNameChar, isNameLetter, Bool.or_eq_true]
  rcases plain with (alpha | digit) | underscore <;> simp [*]

theorem isNameLetter_of_isDigit (digit : c.isDigit) : isNameLetter c = false := by
  have range := toNat_of_isDigit digit
  rw [Bool.eq_false_iff]
  intro letter
  simp only [isNameLetter, Bool.or_eq_true, decide_eq_true_eq, beq_iff_eq] at letter
  rcases letter with (alpha | rfl) | beyond
  · have letters := toNat_of_isAlpha alpha
    omega
  · revert range
    decide
  · omega

/-- A plain character starts a name unless it is a digit. -/
theorem isNameStart_of_isPlainChar (plain : Place.isPlainChar c) :
    isNameStart c = !c.isDigit := by
  rw [isNameStart, isWhiteSpace_of_isPlainChar plain, Bool.not_false, Bool.and_true]
  cases digit : c.isDigit with
  | true => exact isNameLetter_of_isDigit digit
  | false =>
      simp only [Place.isPlainChar, Char.isAlphanum, digit, Bool.or_false] at plain
      rw [isNameLetter, plain, Bool.true_or]
      rfl

end

/-! ## Numbers -/

theorem isDigit_of_mem_toDigits {n : Nat} : ∀ c ∈ Nat.toDigits 10 n, c.isDigit :=
  fun _ member => Nat.isDigit_of_mem_toDigits (by omega) (by omega) member

theorem natOfDigits_toDigits (n : Nat) : Numeral.natOfDigits (Nat.toDigits 10 n) = n := by
  rw [Numeral.natOfDigits, ← Nat.ofDigitChars_eq_foldl, Nat.ofDigitChars_ten_toDigits]

/-- A number that is not zero is written without leading zeros. -/
theorem head?_toDigits_ne_zero {n : Nat} (positive : 0 < n) :
    (Nat.toDigits 10 n).head? ≠ some '0' := by
  induction n using Nat.strongRecOn with
  | ind n ih =>
      by_cases small : n < 10
      · have digit : ∀ d < 10, 0 < d → [d.digitChar].head? ≠ some '0' := by decide
        rw [Nat.toDigits_of_lt_base small]
        exact digit n small positive
      · have front := ih (n / 10) (by omega) (by omega)
        obtain ⟨first, others, same⟩ := List.exists_cons_of_ne_nil
          (Nat.toDigits_ne_nil (n := n / 10) (b := 10))
        rw [Nat.toDigits_of_base_le (by omega) (by omega)]
        rw [same] at front ⊢
        exact front

theorem readNat?_toDigits (n : Nat) :
    readNat? (Nat.toDigits 10 n) = if n ≤ maxNumber then some n else none := by
  have written : Nat.toDigits 10 n = ['0'] || (!(Nat.toDigits 10 n).isEmpty &&
      (Nat.toDigits 10 n).all Char.isDigit && (Nat.toDigits 10 n).head? != some '0') := by
    rcases Nat.eq_zero_or_pos n with rfl | positive
    · decide
    · have digits : (Nat.toDigits 10 n).all Char.isDigit :=
        List.all_eq_true.2 isDigit_of_mem_toDigits
      simp [digits, head?_toDigits_ne_zero positive, Nat.toDigits_ne_nil]
  rw [readNat?, if_pos written, natOfDigits_toDigits]

theorem dropWhile_eq_self {p : Char → Bool} {chars : List Char} (none : ∀ c ∈ chars, p c = false) :
    chars.dropWhile p = chars := by
  cases chars with
  | nil => rfl
  | cons c rest => rw [List.dropWhile_cons_of_neg (by simp [none c List.mem_cons_self])]

/-- Characters that are no blanks are not trimmed. -/
theorem trim_eq_self {text : List Char} (solid : ∀ c ∈ text, Json.isBlank c = false) :
    trim text = text := by
  rw [trim, dropWhile_eq_self solid, dropWhile_eq_self (by simpa using solid),
    List.reverse_reverse]

theorem splitColons_eq_singleton {text : List Char} (none : ':' ∉ text) :
    splitColons text = [text] := by
  induction text with
  | nil => rfl
  | cons c rest ih =>
      obtain ⟨other, later⟩ := not_or.1 (mt List.mem_cons.2 none)
      rw [splitColons, ih later]
      exact if_neg (Ne.symm other)

/-- The digits of a number are read as its selector. -/
theorem readSelector?_toDigits (n : Nat) :
    readSelector? (Nat.toDigits 10 n) =
      if n ≤ maxNumber then some (.index n) else none := by
  have digit : ∀ c ∈ Nat.toDigits 10 n, c.isDigit := isDigit_of_mem_toDigits
  have solid : trim (Nat.toDigits 10 n) = Nat.toDigits 10 n := by
    refine trim_eq_self ?_
    intro c member
    exact isBlank_of_isPlainChar (isPlainChar_of_isDigit (digit c member))
  have single : splitColons (Nat.toDigits 10 n) = [Nat.toDigits 10 n] :=
    splitColons_eq_singleton fun member => absurd (digit _ member) (by decide)
  have number : readInt? (Nat.toDigits 10 n) =
      (readNat? (Nat.toDigits 10 n)).map fun n => (n : Int) := by
    unfold readInt?
    split
    · next same => exact absurd (digit '-' (by rw [same]; exact List.mem_cons_self)) (by decide)
    · rfl
  have star : Nat.toDigits 10 n ≠ ['*'] := by
    intro same
    exact absurd (digit '*' (by rw [same]; exact List.mem_cons_self)) (by decide)
  rw [readSelector?, solid, if_neg star, single]
  simp only [solid, number, readNat?_toDigits]
  split <;> rfl

/-! ## The reader -/

namespace Reader

theorem run_append (r : Reader) (front back : List Char) :
    r.run (front ++ back) = (r.run front).bind fun next => next.run back := by
  induction front generalizing r with
  | nil => rfl
  | cons c rest ih =>
      rw [List.cons_append, run, run, Option.bind_assoc]
      exact congrArg _ (funext fun next => ih next)

/-- The reader stands after the segments of a query. The last one may be a name that can end
here or go on. -/
inductive After : Reader → Query → Prop
  | ready (query : Query) : After ⟨query.reverse, .ready⟩ query
  | name (query : Query) {read : List Char} (ends : mayEndName read) :
      After ⟨query.reverse, .name false read⟩ (query ++ [⟨false, [.name (nameOf read)]⟩])

/-- Reading characters leads the reader on to a query, or fails. -/
inductive Leads (r : Reader) (chars : List Char) : Option Query → Prop
  | reached {next : Reader} {query : Query} (run : r.run chars = some next)
      (after : next.After query) : Leads r chars (some query)
  | failed (run : r.run chars = none) : Leads r chars none

variable {r : Reader} {query : Query}

theorem After.finish (after : r.After query) : r.finish = some query := by
  cases after with
  | ready => simp [Reader.finish]
  | name before ends => simp [Reader.finish, ends, push]

theorem after_segment (query : Query) (segment : Segment) :
    After ⟨segment :: query.reverse, .ready⟩ (query ++ [segment]) := by
  simpa using After.ready (query ++ [segment])

/-- A character that does not go on with a name is read as at the end of a segment. -/
theorem After.step (after : r.After query) {c : Char} (other : isNameChar c = false) :
    r.step c = stepReady ⟨query.reverse, .ready⟩ c := by
  cases after with
  | ready => rfl
  | name before ends => simp [Reader.step, other, push]

theorem Leads.append {front back : List Char} {result : Option Query}
    (first : r.Leads front (some query))
    (rest : ∀ next : Reader, next.After query → next.Leads back result) :
    r.Leads (front ++ back) result := by
  obtain ⟨ran, after⟩ := first
  cases rest _ after with
  | reached later reached => exact .reached (by rw [run_append, ran]; exact later) reached
  | failed later => exact .failed (by rw [run_append, ran]; exact later)

theorem Leads.append_none {front : List Char} (first : r.Leads front none) (back : List Char) :
    r.Leads (front ++ back) none := by
  cases first with
  | failed ran => exact .failed (by rw [run_append, ran]; rfl)

theorem Leads.finish {chars : List Char} {result : Option Query} (leads : r.Leads chars result) :
    (r.run chars).bind Reader.finish = result := by
  cases leads with
  | reached ran after => rw [ran, Option.bind_some, after.finish]
  | failed ran => rw [ran, Option.bind_none]

/-- In a mode that keeps the characters it takes, a run of such characters is kept. -/
theorem run_kept {segments : List Segment} {mode : List Char → Mode} {chars : List Char}
    (keeps : ∀ c ∈ chars, ∀ read,
      Reader.step ⟨segments, mode read⟩ c = some ⟨segments, mode (c :: read)⟩)
    (read : List Char) :
    run ⟨segments, mode read⟩ chars = some ⟨segments, mode (chars.reverse ++ read)⟩ := by
  induction chars generalizing read with
  | nil => rfl
  | cons c rest ih =>
      obtain ⟨here, later⟩ := List.forall_mem_cons.1 keeps
      rw [run, here read, Option.bind_some, ih later, List.reverse_cons, List.append_assoc]
      rfl

/-! ### Keys after a dot -/

/-- A name of plain characters may end, and nothing of it is left out. -/
theorem after_name_of_isPlainChar (query : Query) {chars : List Char}
    (plain : ∀ c ∈ chars, Place.isPlainChar c) :
    After ⟨query.reverse, .name false chars.reverse⟩
      (query ++ [⟨false, [.name (String.ofList chars)]⟩]) := by
  have backwards : ∀ c ∈ chars.reverse, Place.isPlainChar c := by simpa using plain
  have whole : nameOf chars.reverse = String.ofList chars := by
    rw [nameOf, dropWhile_eq_self fun c member => isWhiteSpace_of_isPlainChar (backwards c member),
      List.reverse_reverse]
  have ends : mayEndName chars.reverse := by
    rw [mayEndName]
    cases last : chars.reverse with
    | nil => rfl
    | cons c rest =>
        have solid := isBlank_of_isPlainChar (backwards c (by simp [last]))
        simp [solid]
  rw [← whole]
  exact .name query ends

/-- A plain key is read unless it starts with a digit. -/
theorem After.leads_plain (after : r.After query) {name : String} (plain : Place.isPlain name) :
    r.Leads ('.' :: name.toList) (if !name.toList.head?.any Char.isDigit then
      some (query ++ [⟨false, [.name name]⟩]) else none) := by
  have dot : r.step '.' = some ⟨query.reverse, .dot⟩ := after.step (by decide)
  obtain ⟨filled, each⟩ := Bool.and_eq_true_iff.1 plain
  rw [List.all_eq_true] at each
  have ends := after_name_of_isPlainChar query each
  rw [String.ofList_toList] at ends
  cases chars : name.toList with
  | nil => simp [← String.toList_eq_nil_iff, chars] at filled
  | cons first rest =>
      rw [chars] at each ends
      obtain ⟨here, later⟩ := List.forall_mem_cons.1 each
      have range := toNat_of_isPlainChar here
      have start := isNameStart_of_isPlainChar here
      have noDot : first ≠ '.' := by rintro rfl; revert range; decide
      have noStar : first ≠ '*' := by rintro rfl; revert range; decide
      rw [List.head?_cons, Option.any_some]
      cases digit : first.isDigit with
      | true =>
          rw [digit] at start
          refine .failed ?_
          rw [run, dot, Option.bind_some, run, Reader.step]
          simp [noDot, noStar, start]
      | false =>
          rw [digit] at start
          refine .reached ?_ ends
          rw [run, dot, Option.bind_some, run, Reader.step]
          simp only [noDot, noStar, start, Bool.not_false, if_true, if_false, goto,
            Option.bind_some]
          have goesOn : ∀ c ∈ rest, ∀ read, Reader.step ⟨query.reverse, .name false read⟩ c =
              some ⟨query.reverse, .name false (c :: read)⟩ := by
            intro c member read
            rw [Reader.step]
            simp only [isNameChar_of_isPlainChar (later c member), if_true, goto]
          rw [run_kept goesOn, List.reverse_cons]

/-! ### Keys in quotes -/

/-- An escaped character is read as itself, unless it is a control character. -/
theorem run_escapeBoth (segments : List Segment) (b : Bracket) (read : List Char) (c : Char) :
    run ⟨segments, .quoted b '\'' read⟩ (Place.escapeBoth c) =
      if 0x20 ≤ c.toNat then some ⟨segments, .quoted b '\'' (c :: read)⟩ else none := by
  by_cases quote : c = '\''
  · subst quote
    rfl
  · by_cases backslash : c = '\\'
    · subst backslash
      rfl
    · rw [Place.escapeBoth, if_neg (by simp [quote, backslash]), run, Reader.step]
      simp only [quote, backslash, if_false]
      by_cases control : c.toNat < 0x20
      · rw [if_pos control, if_neg (by omega)]
        rfl
      · rw [if_neg control, if_pos (by omega)]
        rfl

theorem run_flatMap_escapeBoth (segments : List Segment) (b : Bracket) (read chars : List Char) :
    run ⟨segments, .quoted b '\'' read⟩ (chars.flatMap Place.escapeBoth) =
      if chars.all fun c => 0x20 ≤ c.toNat then
        some ⟨segments, .quoted b '\'' (chars.reverse ++ read)⟩
      else none := by
  induction chars generalizing read with
  | nil => rfl
  | cons c rest ih =>
      rw [List.flatMap_cons, run_append, run_escapeBoth]
      by_cases here : 0x20 ≤ c.toNat
      · rw [if_pos here, Option.bind_some, ih]
        simp [here]
      · rw [if_neg here, List.all_cons, decide_eq_false here]
        rfl

/-- A key in quotes is read unless there is a control character in it. -/
theorem After.leads_quoted (after : r.After query) (name : String) :
    r.Leads ('[' :: '\'' :: (name.toList.flatMap Place.escapeBoth ++ ['\'', ']']))
      (if name.toList.all fun c => 0x20 ≤ c.toNat then some (query ++ [⟨false, [.name name]⟩])
      else none) := by
  have opened : r.step '[' = some ⟨query.reverse, .bracket ⟨false, []⟩⟩ := after.step (by decide)
  have quote : Reader.step ⟨query.reverse, .bracket ⟨false, []⟩⟩ '\'' =
      some ⟨query.reverse, .quoted ⟨false, []⟩ '\'' []⟩ := rfl
  have inside : r.run ('[' :: '\'' :: (name.toList.flatMap Place.escapeBoth ++ ['\'', ']'])) =
      (run ⟨query.reverse, .quoted ⟨false, []⟩ '\'' []⟩
        (name.toList.flatMap Place.escapeBoth)).bind fun next => next.run ['\'', ']'] := by
    rw [run, opened, Option.bind_some, run, quote, Option.bind_some, run_append]
  rw [run_flatMap_escapeBoth] at inside
  split
  · next clean =>
      have closed : run ⟨query.reverse, .quoted ⟨false, []⟩ '\'' (name.toList.reverse ++ [])⟩
          ['\'', ']'] = some ⟨⟨false, [.name name]⟩ :: query.reverse, .ready⟩ := by
        simp [run, Reader.step, stepAfter, goto, push]
      rw [if_pos clean, Option.bind_some, closed] at inside
      exact .reached inside (after_segment query _)
  · next dirty =>
      rw [if_neg dirty] at inside
      exact .failed inside

/-! ### Numbers in brackets -/

theorem ne_of_isDigit {c other : Char} (digit : c.isDigit) (none : other.isDigit = false) :
    c ≠ other := by
  rintro rfl
  rw [digit] at none
  cases none

/-- Digits in brackets are kept until the brackets are closed. -/
theorem run_bracket (segments : List Segment) (b : Bracket) {chars : List Char}
    (filled : chars ≠ []) (digits : ∀ c ∈ chars, c.isDigit) :
    run ⟨segments, .bracket b⟩ chars = some ⟨segments, .plain b chars.reverse⟩ := by
  obtain ⟨first, rest, rfl⟩ := List.exists_cons_of_ne_nil filled
  obtain ⟨here, later⟩ := List.forall_mem_cons.1 digits
  have noQuote : first ≠ '\'' := ne_of_isDigit here (by decide)
  have noQuotes : first ≠ '"' := ne_of_isDigit here (by decide)
  have noComma : first ≠ ',' := ne_of_isDigit here (by decide)
  have noClose : first ≠ ']' := ne_of_isDigit here (by decide)
  have solid : Json.isBlank first = false :=
    isBlank_of_isPlainChar (isPlainChar_of_isDigit here)
  rw [run, Reader.step]
  simp only [noQuote, noQuotes, noComma, noClose, solid, or_self, if_false, goto,
    Bool.false_eq_true, Option.bind_some]
  have goesOn : ∀ c ∈ rest, ∀ read, Reader.step ⟨segments, .plain b read⟩ c =
      some ⟨segments, .plain b (c :: read)⟩ := by
    intro c member read
    have noComma : c ≠ ',' := ne_of_isDigit (later c member) (by decide)
    have noClose : c ≠ ']' := ne_of_isDigit (later c member) (by decide)
    rw [Reader.step]
    simp only [noComma, noClose, or_self, if_false, goto]
  rw [run_kept goesOn, List.reverse_cons]

/-- A number is read unless it is too large. -/
theorem After.leads_index (after : r.After query) (number : Nat) :
    r.Leads ('[' :: (Nat.toDigits 10 number ++ [']']))
      (if number ≤ maxNumber then some (query ++ [⟨false, [.index number]⟩]) else none) := by
  have opened : r.step '[' = some ⟨query.reverse, .bracket ⟨false, []⟩⟩ := after.step (by decide)
  have inside := run_bracket query.reverse ⟨false, []⟩ (Nat.toDigits_ne_nil (n := number))
    isDigit_of_mem_toDigits
  have ran : r.run ('[' :: (Nat.toDigits 10 number ++ [']'])) =
      Reader.step ⟨query.reverse, .plain ⟨false, []⟩ (Nat.toDigits 10 number).reverse⟩ ']' := by
    rw [run, opened, Option.bind_some, run_append, inside, Option.bind_some, run]
    exact Option.bind_fun_some _
  rw [Reader.step] at ran
  simp only [or_true, if_true, List.reverse_reverse, readSelector?_toDigits] at ran
  split
  · next small =>
      rw [if_pos small] at ran
      exact .reached ran (after_segment query _)
  · next large =>
      rw [if_neg large] at ran
      exact .failed ran

/-! ### Places and locations -/

/-- The text of a place leads on by its segment, if it is readable. -/
theorem After.leads_place (after : r.After query) (place : Place) :
    r.Leads (place.text Place.escapeBoth).toList
      (if place.isReadable then some (query ++ [place.segment]) else none) := by
  cases place with
  | index number =>
      have text : ((Place.index number).text Place.escapeBoth).toList =
          '[' :: (Nat.toDigits 10 number ++ [']']) := by
        simp [Place.text, Nat.toList_repr]
      rw [text]
      simp only [Place.isReadable, decide_eq_true_eq]
      exact after.leads_index number
  | key name =>
      by_cases plain : Place.isPlain name
      · have text : ((Place.key name).text Place.escapeBoth).toList = '.' :: name.toList := by
          simp [Place.text, plain]
        rw [text, Place.isReadable, if_pos plain]
        exact after.leads_plain plain
      · have text : ((Place.key name).text Place.escapeBoth).toList =
            '[' :: '\'' :: (name.toList.flatMap Place.escapeBoth ++ ['\'', ']']) := by
          simp [Place.text, plain]
        rw [text, Place.isReadable, if_neg plain]
        exact after.leads_quoted name

theorem After.leads_location (after : r.After query) (location : Location) :
    r.Leads (location.flatMap fun place => (place.text Place.escapeBoth).toList)
      (if location.isReadable then some (query ++ location.query) else none) := by
  induction location generalizing r query with
  | nil =>
      rw [Location.query, List.map_nil, List.append_nil]
      exact .reached rfl after
  | cons place rest ih =>
      have first := after.leads_place place
      rw [List.flatMap_cons, Location.isReadable, List.all_cons]
      cases here : place.isReadable with
      | true =>
          rw [here] at first
          refine first.append fun next reached => ?_
          have later := ih reached
          rw [List.append_assoc] at later
          exact later
      | false =>
          rw [here] at first
          exact first.append_none _

end Reader

/-- The text of a location is read as its query if all its places are readable, and not at
all otherwise. -/
theorem read?_text (location : Location) :
    read? (location.text Place.escapeBoth) =
      if location.isReadable then some location.query else none := by
  have read := ((Reader.After.ready []).leads_location location).finish
  rw [read?, Location.toList_text]
  exact read

end Query

end TreeLens
