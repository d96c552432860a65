import TreeLens.View.Text

/-!
# Escaped text

A text is shown between two quotes, and what is shown there may hold quotes and backslashes of
its own. Each escaped character leaves an even number of backslashes behind it and has an odd
number before each quote (`quotesEscaped_escapeChar`), whatever even number it starts from; hence
the whole text does (`quotesEscaped_flatMap_escapeChar`). So the first quote that is not escaped
is the closing one (`splitAtQuote_of_quotesEscaped`), and the escapes are read back as the text
(`unescape?_flatMap_escapeChar`).
-/

namespace TreeLens

/-! ## Escaped quotes -/

/-- The number of backslashes that characters end in. -/
def backslashesAtEnd (chars : List Char) : Nat :=
  (chars.reverse.takeWhile (· == '\\')).length

/-- After the characters `before`, every quote of `chars` has an odd number of backslashes right
before it, and an even number stands at the end. -/
structure QuotesEscaped (before chars : List Char) : Prop where
  quotes : ∀ front back, chars = front ++ '"' :: back → backslashesAtEnd (before ++ front) % 2 = 1
  ending : backslashesAtEnd (before ++ chars) % 2 = 0

/-- Cuts characters at the first quote that has an even number of backslashes right before it;
`before` are the characters already passed. -/
def splitAtQuote (before : List Char) : List Char → Option (List Char × List Char)
  | [] => none
  | c :: rest =>
    if c = '"' ∧ backslashesAtEnd before % 2 = 0 then some (before, rest)
    else splitAtQuote (before ++ [c]) rest

theorem backslashesAtEnd_append_backslash (chars : List Char) :
    backslashesAtEnd (chars ++ ['\\']) = backslashesAtEnd chars + 1 := by
  simp [backslashesAtEnd]

theorem backslashesAtEnd_append_other (chars : List Char) {c : Char} (other : c ≠ '\\') :
    backslashesAtEnd (chars ++ [c]) = 0 := by
  simp [backslashesAtEnd, other]

theorem QuotesEscaped.append {before one two : List Char} (first : QuotesEscaped before one)
    (second : QuotesEscaped (before ++ one) two) : QuotesEscaped before (one ++ two) := by
  refine ⟨?_, by rw [← List.append_assoc]; exact second.ending⟩
  intro front back split
  -- The quote stands in the second part or in the first one.
  rcases List.append_eq_append_iff.1 split with ⟨inner, rfl, same⟩ | ⟨inner, same, rest⟩
  · rw [← List.append_assoc]
    exact second.quotes inner back same
  · cases inner with
    | nil =>
        have odd := second.quotes [] back (by simpa using rest.symm)
        simpa [same] using odd
    | cons c others =>
        obtain ⟨rfl, -⟩ := List.cons.inj rest
        exact first.quotes front others same

/-- A character is written as itself or with a backslash before it. -/
theorem escapeChar_cases (c : Char) :
    escapeChar c = [c] ∧ c ≠ '\n' ∧ c ≠ '\r' ∧ c ≠ '\t' ∧ c ≠ '"' ∧ c ≠ '\\' ∨
      ∃ d, escapeChar c = ['\\', d] ∧
        ((c, d) ∈ [('\n', 'n'), ('\r', 'r'), ('\t', 't'), ('"', '"'), ('\\', '\\')]) := by
  unfold escapeChar
  split
  · exact .inr ⟨'n', rfl, by simp⟩
  · exact .inr ⟨'r', rfl, by simp⟩
  · exact .inr ⟨'t', rfl, by simp⟩
  · exact .inr ⟨'"', rfl, by simp⟩
  · exact .inr ⟨'\\', rfl, by simp⟩
  · next lineFeed carriage tab quote backslash =>
      exact .inl ⟨rfl, lineFeed, carriage, tab, quote, backslash⟩

theorem quotesEscaped_escapeChar {before : List Char} (even : backslashesAtEnd before % 2 = 0)
    (c : Char) : QuotesEscaped before (escapeChar c) := by
  rcases escapeChar_cases c with ⟨written, -, -, -, quote, backslash⟩ | ⟨d, written, -⟩
  · rw [written]
    refine ⟨?_, by rw [backslashesAtEnd_append_other before backslash]⟩
    intro front back split
    have member : '"' ∈ [c] := by simp [split]
    exact absurd (List.mem_singleton.1 member).symm quote
  · rw [written]
    have one := backslashesAtEnd_append_backslash before
    constructor
    · intro front back split
      -- The backslash itself is no quote, so a quote can only be what it escapes.
      cases front with
      | nil => cases split
      | cons first others =>
          obtain ⟨rfl, rest⟩ := List.cons.inj split
          cases others with
          | nil => omega
          | cons second more => simp at rest
    · rw [show before ++ ['\\', d] = before ++ ['\\'] ++ [d] by simp]
      by_cases backslash : d = '\\'
      · subst backslash
        rw [backslashesAtEnd_append_backslash]
        omega
      · rw [backslashesAtEnd_append_other _ backslash]

theorem quotesEscaped_flatMap_escapeChar {before : List Char}
    (even : backslashesAtEnd before % 2 = 0) (chars : List Char) :
    QuotesEscaped before (chars.flatMap escapeChar) := by
  induction chars generalizing before with
  | nil => exact ⟨by simp, by simpa using even⟩
  | cons c rest ih =>
      have first := quotesEscaped_escapeChar even c
      rw [List.flatMap_cons]
      exact first.append (ih first.ending)

/-- Where all quotes are escaped, the next quote closes. -/
theorem splitAtQuote_of_quotesEscaped {before chars : List Char}
    (escaped : QuotesEscaped before chars) (rest : List Char) :
    splitAtQuote before (chars ++ '"' :: rest) = some (before ++ chars, rest) := by
  induction chars generalizing before with
  | nil =>
      have even := escaped.ending
      rw [List.append_nil] at even
      simp [splitAtQuote, even]
  | cons c others ih =>
      have passed : ¬ (c = '"' ∧ backslashesAtEnd before % 2 = 0) := by
        rintro ⟨rfl, even⟩
        have odd := escaped.quotes [] others rfl
        rw [List.append_nil] at odd
        omega
      have later : QuotesEscaped (before ++ [c]) others := by
        refine ⟨?_, by simpa using escaped.ending⟩
        rintro front back rfl
        simpa using escaped.quotes (c :: front) back rfl
      rw [List.cons_append, splitAtQuote, if_neg passed, ih later]
      simp

/-! ## Reading escapes -/

/-- The character that a backslash and another character stand for. -/
def escapedBy? : Char → Option Char
  | 'n' => some '\n'
  | 'r' => some '\r'
  | 't' => some '\t'
  | '"' => some '"'
  | '\\' => some '\\'
  | _ => none

/-- Characters with their escapes read; a backslash that starts no escape cannot be read. -/
def unescape? : List Char → Option (List Char)
  | [] => some []
  | '\\' :: c :: rest => (escapedBy? c).bind fun d => (unescape? rest).map (d :: ·)
  | c :: rest => if c = '\\' then none else (unescape? rest).map (c :: ·)

theorem unescape?_escapeChar_append (c : Char) (rest : List Char) :
    unescape? (escapeChar c ++ rest) = (unescape? rest).map (c :: ·) := by
  rcases escapeChar_cases c with ⟨written, -, -, -, -, backslash⟩ | ⟨d, written, pair⟩
  · rw [written, List.singleton_append, unescape?, if_neg backslash]
    rintro _ _ rfl
    exact absurd rfl backslash
  · have reads : escapedBy? d = some c := by
      simp only [List.mem_cons, Prod.mk.injEq, List.not_mem_nil, or_false] at pair
      rcases pair with ⟨rfl, rfl⟩ | ⟨rfl, rfl⟩ | ⟨rfl, rfl⟩ | ⟨rfl, rfl⟩ | ⟨rfl, rfl⟩ <;> rfl
    rw [written]
    simp [unescape?, reads]

theorem unescape?_flatMap_escapeChar (chars : List Char) :
    unescape? (chars.flatMap escapeChar) = some chars := by
  induction chars with
  | nil => rfl
  | cons c rest ih => rw [List.flatMap_cons, unescape?_escapeChar_append, ih, Option.map_some]

/-! ## Shown texts -/

theorem toList_escapeText (s : String) :
    (escapeText s).toList = s.toList.flatMap escapeChar := by
  simp [escapeText]

theorem not_blank_of_mem_escapeText {s : String} {c : Char} (member : c ∈ (escapeText s).toList) :
    c ≠ '\n' ∧ c ≠ '\r' ∧ c ≠ '\t' := by
  rw [toList_escapeText] at member
  obtain ⟨own, -, inside⟩ := List.mem_flatMap.1 member
  rcases escapeChar_cases own with ⟨written, lineFeed, carriage, tab, -⟩ | ⟨d, written, pair⟩
  · rw [written, List.mem_singleton] at inside
    rw [inside]
    exact ⟨lineFeed, carriage, tab⟩
  · rw [written] at inside
    simp only [List.mem_cons, Prod.mk.injEq, List.not_mem_nil, or_false] at pair inside
    rcases pair with ⟨-, rfl⟩ | ⟨-, rfl⟩ | ⟨-, rfl⟩ | ⟨-, rfl⟩ | ⟨-, rfl⟩ <;>
      rcases inside with rfl | rfl <;> decide

/-- **Quoted text.** An escaped text has no line feed, carriage return or tab; every quote in it
has an odd number of backslashes right before it, and it ends in an even number of them. So the
printed token, whatever follows it, is closed by the first quote after the opening one that is
not escaped. Reading the escapes gives the text back, and no other text is shown in the same
way. -/
theorem quoted_escapeText (s : String) :
    (∀ c ∈ (escapeText s).toList, c ≠ '\n' ∧ c ≠ '\r' ∧ c ≠ '\t') ∧
    (∀ front back, (escapeText s).toList = front ++ '"' :: back →
      backslashesAtEnd front % 2 = 1) ∧
    backslashesAtEnd (escapeText s).toList % 2 = 0 ∧
    (∀ rest : String, ∃ chars,
      (plainToken .string (escapeText s) ++ rest).toList = '"' :: chars ∧
        splitAtQuote [] chars = some ((escapeText s).toList, rest.toList)) ∧
    unescape? (escapeText s).toList = some s.toList ∧
    ∀ other, escapeText other = escapeText s → other = s := by
  have escaped : QuotesEscaped [] (escapeText s).toList := by
    rw [toList_escapeText]
    exact quotesEscaped_flatMap_escapeChar rfl s.toList
  have read (text : String) : unescape? (escapeText text).toList = some text.toList := by
    rw [toList_escapeText]
    exact unescape?_flatMap_escapeChar text.toList
  refine ⟨fun c => not_blank_of_mem_escapeText, ?_, ?_, ?_, read s, ?_⟩
  · intro front back split
    have odd := escaped.quotes front back split
    rwa [List.nil_append] at odd
  · have even := escaped.ending
    rwa [List.nil_append] at even
  · intro rest
    have closed := splitAtQuote_of_quotesEscaped escaped rest.toList
    rw [List.nil_append] at closed
    exact ⟨_, by simp [plainToken], closed⟩
  · intro other same
    have chars : some other.toList = some s.toList := by rw [← read other, same, read s]
    exact String.toList_inj.1 (Option.some.inj chars)

/-- A text that ends in a quote with backslashes before it. -/
theorem quoted_escapeText_backslashes :
    escapeText "\\\\\"" = "\\\\\\\\\\\"" ∧
      backslashesAtEnd ['\\', '\\', '\\', '\\', '\\'] % 2 = 1 :=
  ⟨by decide, (quoted_escapeText "\\\\\"").2.1 ['\\', '\\', '\\', '\\', '\\'] [] (by decide)⟩

end TreeLens
