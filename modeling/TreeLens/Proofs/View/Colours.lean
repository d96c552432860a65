import Mathlib.Data.List.Forall2
import TreeLens.Proofs.Query.Locations
import TreeLens.Proofs.Text.Escaping
import TreeLens.Proofs.Tree.Everywhere
import TreeLens.Proofs.View.Layout

/-!
# Colours

Coloured text is plain text with control sequences around some tokens. `withoutControls` takes
such sequences out of a text, and `Uncovers` says that it does so up to the end of a text and
then goes on, which makes it a property of the parts of a text. A painted token uncovers the
token (`uncovers_paint`), and a printer that is given painted tokens stays in step with one that
is given plain ones, mark by mark (`Printer.InStep.step`). So colours leave the layout of a
tree as it is, if the tree brings no escape characters of its own.
-/

namespace TreeLens

/-! ## Taking out control sequences -/

/-- Characters without control sequences. A sequence is an escape character, a bracket, and all
up to the next `m`; where no `m` follows, there is none. -/
def stripControls : List Char → List Char
  | [] => []
  | '\x1b' :: '[' :: rest =>
    match _found : rest.dropWhile (· != 'm') with
    | [] => '\x1b' :: '[' :: stripControls rest
    | _ :: after => stripControls after
  | c :: rest => c :: stripControls rest
termination_by chars => chars.length
decreasing_by
  · simp only [List.length_cons]
    omega
  · have shorter := (List.dropWhile_suffix (p := (· != 'm')) (l := rest)).length_le
    rw [_found] at shorter
    simp at shorter ⊢
    omega
  · simp

/-- A text without its control sequences. -/
def withoutControls (text : String) : String :=
  String.ofList (stripControls text.toList)

/-- A text without the character that starts a control sequence. -/
def Unescaped (text : String) : Prop :=
  '\x1b' ∉ text.toList

instance (text : String) : Decidable (Unescaped text) :=
  inferInstanceAs (Decidable ('\x1b' ∉ text.toList))

/-- Taking the control sequences out of a text leaves a plain one, whatever follows. -/
def Uncovers (text plain : String) : Prop :=
  ∀ rest, stripControls (text.toList ++ rest) = plain.toList ++ stripControls rest

theorem Uncovers.withoutControls_eq {text plain : String} (uncovers : Uncovers text plain) :
    withoutControls text = plain := by
  have whole := uncovers []
  rw [List.append_nil, stripControls, List.append_nil] at whole
  rw [withoutControls, whole, String.ofList_toList]

theorem Uncovers.append {text plain text' plain' : String} (first : Uncovers text plain)
    (second : Uncovers text' plain') : Uncovers (text ++ text') (plain ++ plain') := by
  intro rest
  rw [String.toList_append, String.toList_append, List.append_assoc, first, second,
    List.append_assoc]

theorem stripControls_cons {c : Char} (other : c ≠ '\x1b') (rest : List Char) :
    stripControls (c :: rest) = c :: stripControls rest := by
  rw [stripControls]
  rintro _ rfl
  exact absurd rfl other

theorem Unescaped.uncovers {text : String} (free : Unescaped text) : Uncovers text text := by
  intro rest
  unfold Unescaped at free
  generalize text.toList = chars at free ⊢
  induction chars with
  | nil => rfl
  | cons c others ih =>
      rw [List.mem_cons, not_or] at free
      rw [List.cons_append, stripControls_cons (Ne.symm free.1), ih free.2, List.cons_append]

theorem Unescaped.append {one two : String} (first : Unescaped one) (second : Unescaped two) :
    Unescaped (one ++ two) := by
  rw [Unescaped, String.toList_append, List.mem_append]
  exact not_or.2 ⟨first, second⟩

/-- A control sequence goes. -/
theorem uncovers_control (code : String) (unended : 'm' ∉ code.toList) :
    Uncovers (TokenStyle.control ++ code ++ "m") "" := by
  intro rest
  have chars : (TokenStyle.control ++ code ++ "m").toList ++ rest =
      '\x1b' :: '[' :: (code.toList ++ 'm' :: rest) := by
    simp [TokenStyle.control]
  have tail : (code.toList ++ 'm' :: rest).dropWhile (· != 'm') = 'm' :: rest := by
    rw [List.dropWhile_append_of_pos]
    · simp
    · intro c member
      simp only [bne_iff_ne]
      rintro rfl
      exact unended member
  rw [chars, stripControls]
  split
  · next none => rw [tail] at none; cases none
  · next found =>
      rw [tail] at found
      rw [← (List.cons.inj found).2]
      rfl

/-- Numbers are written with digits only. -/
theorem not_mem_toDigits {c : Char} (other : c.isDigit = false) (n : Nat) :
    c ∉ Nat.toDigits 10 n := by
  intro member
  have digit := Query.isDigit_of_mem_toDigits c member
  rw [other] at digit
  cases digit

theorem unescaped_repr (n : Nat) : Unescaped (Nat.repr n) := by
  rw [Unescaped, Nat.toList_repr]
  exact not_mem_toDigits (by decide) n

/-- A painted text uncovers the text. -/
theorem uncovers_paint (style : TokenStyle) {text : String} (free : Unescaped text) :
    Uncovers (style.paint text) text := by
  have digits : ∀ n, 'm' ∉ Nat.toDigits 10 n := not_mem_toDigits (by decide)
  unfold TokenStyle.paint
  split
  · exact free.uncovers
  · next r g b _ =>
      have bold : Uncovers (if style.bold then TokenStyle.control ++ "1m" else "") "" := by
        split
        · exact uncovers_control "1" (by decide)
        · exact fun _ => rfl
      have colour := uncovers_control
        ("38;2;" ++ Nat.repr r ++ ";" ++ Nat.repr g ++ ";" ++ Nat.repr b)
        (by simpa using ⟨digits r, digits g, digits b⟩)
      have reset := uncovers_control "0" (by decide)
      have whole := ((bold.append colour).append free.uncovers).append reset
      simpa [String.append_assoc] using whole

theorem uncovers_themedToken (theme : Theme) (style : StyleClass) {text : String}
    (free : Unescaped (plainToken style text)) :
    Uncovers (themedToken theme style text) (plainToken style text) := by
  unfold themedToken
  split
  · exact uncovers_paint _ free
  · exact free.uncovers

/-! ## Printing in step -/

theorem uncovers_intercalate {texts plain : List String}
    (each : List.Forall₂ Uncovers texts plain) :
    Uncovers (" ".intercalate texts) (" ".intercalate plain) := by
  induction each with
  | nil => exact fun _ => rfl
  | @cons text own texts plain first others ih =>
      cases others with
      | nil => simpa using first
      | cons second more =>
          have blank : Uncovers " " " " := Unescaped.uncovers (by decide)
          rw [String.intercalate_cons_cons, String.intercalate_cons_cons]
          exact (first.append blank).append ih

namespace Printer

/-- What one printer has printed uncovers what another one has, and the lines at hand are the
same but for control sequences. -/
structure InStep (p q : Printer) : Prop where
  done : Uncovers p.done q.done
  line : List.Forall₂ Uncovers p.line q.line
  depth : p.depth = q.depth

variable {p q : Printer}

theorem InStep.isEmpty_line (same : p.InStep q) : p.line.isEmpty = q.line.isEmpty := by
  obtain ⟨-, line, -⟩ := same
  generalize p.line = coloured at line ⊢
  generalize q.line = plain at line ⊢
  cases line <;> rfl

theorem unescaped_indent (depth : Nat) : Unescaped (indent depth) := by
  simp [Unescaped, indent, List.mem_replicate]

theorem InStep.flush (same : p.InStep q) : p.flush.InStep q.flush := by
  have together := same.isEmpty_line
  obtain ⟨done, line, depth⟩ := same
  unfold Printer.flush
  rw [together]
  split
  · exact ⟨done, line, depth⟩
  · refine ⟨?_, .nil, depth⟩
    rw [depth]
    have ended : Uncovers "\n" "\n" := Unescaped.uncovers (by decide)
    exact ((done.append (unescaped_indent q.depth).uncovers).append
      (uncovers_intercalate line)).append ended

theorem InStep.step {shown plain : StyleClass → String → String} (same : p.InStep q)
    {mark : Mark}
    (token : ∀ depth style text, mark = .token depth style text →
      Uncovers (shown style text) (plain style text)) :
    (p.step shown mark).InStep (q.step plain mark) := by
  cases mark with
  | lineBreak => exact same.flush
  | token depth style text =>
      have together := same.isEmpty_line
      obtain ⟨done, line, sameDepth⟩ := same
      refine ⟨done, List.rel_append line (.cons (token depth style text rfl) .nil), ?_⟩
      simp only [Printer.step, together, sameDepth]

theorem InStep.foldl_step {shown plain : StyleClass → String → String} {marks : List Mark}
    (tokens : ∀ depth style text, .token depth style text ∈ marks →
      Uncovers (shown style text) (plain style text)) (same : p.InStep q) :
    (marks.foldl (Printer.step shown) p).InStep (marks.foldl (Printer.step plain) q) := by
  induction marks generalizing p q with
  | nil => exact same
  | cons mark rest ih =>
      refine ih (fun depth style text member => ?_) (same.step fun depth style text own => ?_)
      · exact tokens depth style text (List.mem_cons_of_mem _ member)
      · exact tokens depth style text (own ▸ List.mem_cons_self)

/-- Printing tokens that uncover plain ones uncovers the plain text. -/
theorem uncovers_print {shown plain : StyleClass → String → String} {marks : List Mark}
    (tokens : ∀ depth style text, .token depth style text ∈ marks →
      Uncovers (shown style text) (plain style text)) :
    Uncovers (print shown marks) (print plain marks) := by
  have begun : start.InStep start := ⟨fun _ => rfl, .nil, rfl⟩
  exact (begun.foldl_step tokens).flush.done

end Printer

/-! ## Trees without escape characters -/

/-- The texts that a node itself brings: its name, its keys, or the string that it is. -/
def Node.ownTexts : Node → List String
  | .leaf (.str s) => [s]
  | .leaf _ => []
  | .array _ => []
  | .object name fields _ => name.toList ++ fields.map (·.1)

/-- No name, key or string of a node holds an escape character. -/
def Node.Unescaped (n : Node) : Prop :=
  ∀ text ∈ n.ownTexts, TreeLens.Unescaped text

instance (n : Node) : Decidable n.Unescaped :=
  inferInstanceAs (Decidable (∀ text ∈ n.ownTexts, Unescaped text))

theorem unescaped_ofList {chars : List Char} (free : '\x1b' ∉ chars) :
    Unescaped (String.ofList chars) := by
  rwa [Unescaped, String.toList_ofList]

theorem Unescaped.escapeText {s : String} (free : Unescaped s) : Unescaped (escapeText s) := by
  rw [Unescaped, toList_escapeText, List.mem_flatMap]
  rintro ⟨c, member, inside⟩
  rcases escapeChar_cases c with ⟨written, -⟩ | ⟨d, written, pair⟩
  · rw [written, List.mem_singleton] at inside
    exact free (inside ▸ member)
  · rw [written] at inside
    simp only [List.mem_cons, Prod.mk.injEq, List.not_mem_nil, or_false] at pair inside
    rcases pair with ⟨-, rfl⟩ | ⟨-, rfl⟩ | ⟨-, rfl⟩ | ⟨-, rfl⟩ | ⟨-, rfl⟩ <;>
      rcases inside with inside | inside <;> cases inside

theorem unescaped_magnitude (layout : Layout) (decimal : Decimal) :
    Unescaped (layout.magnitude decimal) := by
  have digits : '\x1b' ∉ (Nat.repr decimal.digits).toList := unescaped_repr _
  have zeros (n : Nat) : Unescaped (Layout.zeros n) :=
    unescaped_ofList (by simp [List.mem_replicate])
  have taken (n : Nat) : Unescaped (String.ofList ((Nat.repr decimal.digits).toList.take n)) :=
    unescaped_ofList fun member => digits (List.mem_of_mem_take member)
  have dropped (n : Nat) : Unescaped (String.ofList ((Nat.repr decimal.digits).toList.drop n)) :=
    unescaped_ofList fun member => digits (List.mem_of_mem_drop member)
  simp only [Layout.magnitude]
  split
  · split <;> decide
  · split
    · unfold Layout.positional
      split
      · exact ((show Unescaped "0." by decide).append (zeros _)).append (unescaped_ofList digits)
      · split
        · refine ((unescaped_ofList digits).append (zeros _)).append ?_
          split <;> decide
        · exact ((taken _).append (show Unescaped "." by decide)).append (dropped _)
    · unfold Layout.scientific
      refine ((((taken 1).append ?_).append ?_).append ?_).append (unescaped_repr _)
      · split
        · decide
        · exact (show Unescaped "." by decide).append (dropped 1)
      · decide
      · split <;> decide

theorem unescaped_render (layout : Layout) (d : Double) : Unescaped (d.render layout) := by
  unfold Double.render
  split
  · decide
  · refine Unescaped.append ?_ ?_
    · split <;> decide
    · split
      · exact unescaped_magnitude _ _
      · decide

theorem unescaped_printed {value : Leaf} (free : (Node.leaf value).Unescaped) :
    Unescaped value.printed := by
  cases value with
  | null => decide
  | bool b => cases b <;> decide
  | num d => exact unescaped_render _ d
  | str s =>
      have own : Unescaped s := free s (by simp [Node.ownTexts])
      have quote : Unescaped "\"" := by decide
      exact (quote.append own.escapeText).append quote

/-- No token of pieces holds an escape character. -/
def AllUnescaped (pieces : List Piece) : Prop :=
  ∀ depth text, .token depth text ∈ pieces → Unescaped text

theorem AllUnescaped.append {front back : List Piece} (first : AllUnescaped front)
    (second : AllUnescaped back) : AllUnescaped (front ++ back) := by
  intro depth text member
  rcases List.mem_append.1 member with member | member
  · exact first depth text member
  · exact second depth text member

theorem AllUnescaped.cons {piece : Piece} {rest : List Piece}
    (own : ∀ depth text, piece = .token depth text → Unescaped text) (others : AllUnescaped rest) :
    AllUnescaped (piece :: rest) := by
  intro depth text member
  rcases List.mem_cons.1 member with rfl | member
  · exact own depth text rfl
  · exact others depth text member

theorem AllUnescaped.lineBreak {rest : List Piece} (others : AllUnescaped rest) :
    AllUnescaped (.lineBreak :: rest) :=
  .cons (by rintro _ _ ⟨⟩) others

theorem AllUnescaped.token {text : String} {rest : List Piece} (depth : Nat)
    (own : Unescaped text) (others : AllUnescaped rest) :
    AllUnescaped (.token depth text :: rest) :=
  .cons (by rintro _ _ ⟨⟩; exact own) others

theorem AllUnescaped.nil : AllUnescaped [] := by
  intro depth text member
  cases member

namespace Node

mutual

/-- A tree whose names, keys and strings hold no escape characters is laid out without any. -/
theorem allUnescaped_layout (isOpen : Path → Bool) (here : Path) (depth : Nat) :
    ∀ n : Node, n.Everywhere Node.Unescaped → AllUnescaped (n.layout isOpen here depth)
  | .leaf value, free => .token depth (unescaped_printed (everywhere_iff.1 free).1) .nil
  | .array items, free => by
      have inner := allUnescaped_layoutItems isOpen here 0 (depth + 1) items free.item
      have closing : AllUnescaped [.lineBreak, .token depth "]"] :=
        .lineBreak (.token depth (by decide) .nil)
      rw [layout]
      split
      · exact .token depth (by decide) .nil
      · split
        · exact .token depth (by decide) (.lineBreak (inner.append closing))
        · exact .token depth (by decide) .nil
  | .object (some name) fields span, free => by
      have own : TreeLens.Unescaped name := (everywhere_iff.1 free).1 name (by simp [ownTexts])
      have keys : ∀ field ∈ fields, TreeLens.Unescaped field.1 := fun field member =>
        (everywhere_iff.1 free).1 field.1 (by simp [ownTexts]; exact .inr ⟨_, member⟩)
      have inner := allUnescaped_layoutFields isOpen here 0 (depth + 1) fields keys free.field
      have closing : AllUnescaped [.lineBreak, .token depth "\x7d"] :=
        .lineBreak (.token depth (by decide) .nil)
      rw [layout]
      split
      · exact .token depth (by decide) (.token depth own (.token depth (by decide)
          (.lineBreak (inner.append closing))))
      · exact .token depth (by decide) (.token depth own (.token depth (by decide) .nil))
  | .object none fields span, free => by
      have keys : ∀ field ∈ fields, TreeLens.Unescaped field.1 := fun field member =>
        (everywhere_iff.1 free).1 field.1 (by simp [ownTexts]; exact ⟨_, member⟩)
      have inner := allUnescaped_layoutFields isOpen here 0 (depth + 1) fields keys free.field
      have closing : AllUnescaped [.lineBreak, .token depth "\x7d"] :=
        .lineBreak (.token depth (by decide) .nil)
      rw [layout]
      split
      · exact .token depth (by decide) (.lineBreak (inner.append closing))
      · exact .token depth (by decide) .nil

theorem allUnescaped_layoutItems (isOpen : Path → Bool) (here : Path) (i depth : Nat) :
    ∀ items : List Node, (∀ item ∈ items, item.Everywhere Node.Unescaped) →
      AllUnescaped (layoutItems isOpen here i depth items)
  | [], _ => .nil
  | item :: rest, free => by
      obtain ⟨first, others⟩ := List.forall_mem_cons.1 free
      exact (AllUnescaped.lineBreak (allUnescaped_layout isOpen (here ++ [.item i]) depth item
        first)).append (allUnescaped_layoutItems isOpen here (i + 1) depth rest others)

theorem allUnescaped_layoutFields (isOpen : Path → Bool) (here : Path) (i depth : Nat) :
    ∀ fields : List (String × Node), (∀ field ∈ fields, TreeLens.Unescaped field.1) →
      (∀ field ∈ fields, field.2.Everywhere Node.Unescaped) →
      AllUnescaped (layoutFields isOpen here i depth fields)
  | [], _, _ => .nil
  | (key, value) :: rest, keys, free => by
      obtain ⟨own, otherKeys⟩ := List.forall_mem_cons.1 keys
      obtain ⟨first, others⟩ := List.forall_mem_cons.1 free
      have colon : TreeLens.Unescaped (key ++ ":") := own.append (by decide)
      exact (AllUnescaped.lineBreak (.token depth colon (allUnescaped_layout isOpen
        (here ++ [.field i]) depth value first))).append
          (allUnescaped_layoutFields isOpen here (i + 1) depth rest otherKeys others)

end

end Node

/-! ## Coloured text -/

/-- Every built-in theme has a readable colour for every token class. -/
theorem Theme.isSome_channels?_of_mem_builtin {theme : Theme} (builtin : theme ∈ Theme.builtin)
    (token : TokenClass) : (TokenStyle.channels? (theme.style token).color).isSome := by
  have all : ∀ theme ∈ Theme.builtin,
      [TokenClass.string, .number, .boolean, .null, .key, .title, .background].all
        fun token => (TokenStyle.channels? (theme.style token).color).isSome := by
    decide
  have each := List.all_eq_true.1 (all theme builtin) token
  cases token <;> exact each (by decide)

/-- A readable colour is seen. -/
theorem TokenStyle.paint_ne {style : TokenStyle} (readable : (channels? style.color).isSome)
    (text : String) : style.paint text ≠ text := by
  intro same
  obtain ⟨⟨r, g, b⟩, found⟩ := Option.isSome_iff_exists.1 readable
  have lengths := congrArg (fun s => s.toList.length) same
  simp [paint, found, control] at lengths
  omega

namespace TreeView

theorem withoutControls_themedText_shown {tree : Node} (free : tree.Everywhere Node.Unescaped)
    (isOpen : Nat → Bool) (theme : Theme) :
    withoutControls ((shown tree isOpen).themedText theme) = (shown tree isOpen).plainText := by
  refine (Printer.uncovers_print fun depth style text member => ?_).withoutControls_eq
  refine uncovers_themedToken theme style ?_
  -- The plain token is one of the layout's, which come from the tree.
  have laid : .token depth (plainToken style text) ∈
      (shown tree isOpen).marks.map (Mark.piece plainToken) :=
    List.mem_map_of_mem (f := Mark.piece plainToken) member
  rw [map_piece_marks_shown] at laid
  exact Node.allUnescaped_layout _ [] 0 tree free depth _ laid

/-- **Colours.** After any toggles and clicks on a fresh render of a tree whose names, keys and
strings hold no escape character, taking the control sequences out of the text in any theme's
colours gives exactly the plain text. The built-in themes do colour each token that has a token
class. -/
theorem withoutControls_themedText_performAll_render (tree : Node)
    (free : tree.Everywhere Node.Unescaped) (gestures : List Gesture) (theme : Theme) :
    withoutControls (((render tree).performAll gestures).themedText theme) =
      ((render tree).performAll gestures).plainText ∧
    (theme ∈ Theme.builtin → ∀ style text, style.token?.isSome →
      themedToken theme style text ≠ plainToken style text) := by
  refine ⟨?_, ?_⟩
  · rw [performAll_render]
    exact withoutControls_themedText_shown free _ theme
  · intro builtin style text coloured
    obtain ⟨token, found⟩ := Option.isSome_iff_exists.1 coloured
    rw [themedToken, found]
    exact TokenStyle.paint_ne (Theme.isSome_channels?_of_mem_builtin builtin token) _

/-- Bold numbers, and a string that is a control sequence but for its first character, with the
array around it opened again. -/
theorem withoutControls_themedText_performAll_render_bold :
    let tree : Node := .object (some "Call")
      [("args", .array [.leaf (.str "[0m")]), ("line", .leaf (.num (.ofNat 7)))] none
    let t := (render tree).performAll [.toggle 1, .toggle 1]
    tree.Everywhere Node.Unescaped ∧
      withoutControls (t.themedText .espresso) = t.plainText ∧
      themedToken .espresso .number "7" = "\x1b[1m\x1b[38;2;207;79;95m7\x1b[0m" := by
  intro tree t
  have free : tree.Everywhere Node.Unescaped := by
    refine Node.everywhere_object (by decide) ?_
    simp only [List.mem_cons, List.not_mem_nil, or_false, forall_eq_or_imp, forall_eq]
    refine ⟨Node.everywhere_array (by decide) ?_, Node.everywhere_leaf (by decide)⟩
    simp only [List.mem_singleton, forall_eq]
    exact Node.everywhere_leaf (by decide)
  exact ⟨free, (withoutControls_themedText_performAll_render tree free _ .espresso).1, by decide⟩

end TreeView

end TreeLens
