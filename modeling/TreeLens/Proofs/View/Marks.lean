import TreeLens.Proofs.View.Numbering
import TreeLens.View.Text

/-!
# Marks of elements and text of marks

Both halves of printing, each against a plain recursion. A widget tree that holds the
widgets of an element has the marks that are read off the element itself
(`WidgetTree.marks_of_holdsFrom`), and what the printer makes of marks is the text of the
lines between the breaks (`Printer.print_eq_text`).
-/

namespace TreeLens

/-! ## Marks of elements -/

namespace Element

mutual

/-- The marks of an element, read off its faces. -/
def marks (depth : Nat) : Element → List Mark
  | .mk face children =>
    if face.display = .none then []
    else if face.style = .objectContent ∨ face.style = .arrayContent then
      .lineBreak :: marksAll (depth + 1) children ++ [.lineBreak]
    else
      (if face.style = .contentItem ∨ face.style = .arrayItem then [.lineBreak] else []) ++
        (face.text.elim [] fun text => [.token depth face.style text]) ++ marksAll depth children

/-- The marks of elements in a row. -/
def marksAll (depth : Nat) : List Element → List Mark
  | [] => []
  | e :: rest => e.marks depth ++ marksAll depth rest

end

end Element

mutual

theorem WidgetTree.marks_of_holdsFrom {t : WidgetTree} (parent : Option Nat) (id depth : Nat) :
    ∀ e : Element, t.HoldsFrom id (e.widgets parent id) → t.marks id depth = e.marks depth
  | .mk face children, holds => by
      rw [Element.widgets] at holds
      have below := WidgetTree.marks_of_holdsFromAll id (id + 1) (Nat.lt_succ_self id) children
        holds.tail
      rw [WidgetTree.marks, Element.marks]
      split
      next missing => rw [holds.head] at missing; cases missing
      next w found =>
        obtain rfl := Option.some.inj (holds.head.symm.trans found)
        simp only [Face.link, dite_eq_ite, below]
        rfl

theorem WidgetTree.marks_of_holdsFromAll {t : WidgetTree} (parent id : Nat) (after : parent < id) :
    ∀ es : List Element, t.HoldsFrom id (Element.widgetsAll parent id es) → ∀ depth,
      (Element.numbers id es).flatMap (fun c => if parent < c then t.marks c depth else []) =
        Element.marksAll depth es
  | [], _, _ => rfl
  | e :: rest, holds, depth => by
      rw [Element.widgetsAll] at holds
      have later := holds.right
      rw [Element.length_widgets] at later
      rw [Element.numbers, List.flatMap_cons, if_pos after, Element.marksAll,
        WidgetTree.marks_of_holdsFrom (some parent) id depth e holds.left,
        WidgetTree.marks_of_holdsFromAll parent (id + e.size) (by omega) rest later depth]

end

/-! ## Text of marks -/

/-- What is printed: the end of a line, or a token at a depth. -/
inductive Piece where
  | lineBreak
  | token (depth : Nat) (text : String)
deriving DecidableEq, Repr

/-- A mark as it is printed. -/
def Mark.piece (shown : StyleClass → String → String) : Mark → Piece
  | .lineBreak => .lineBreak
  | .token depth style text => .token depth (shown style text)

namespace Piece

/-- The tokens of every line, with their depths. -/
def lines : List Piece → List (List (Nat × String))
  | [] => [[]]
  | .lineBreak :: rest => [] :: lines rest
  | .token depth text :: rest => (lines rest).modifyHead ((depth, text) :: ·)

/-- The text of a line: its tokens with one blank between them, two blanks of indentation
for every level of depth, and a line feed. A line without tokens has no text. -/
def lineText : List (Nat × String) → String
  | [] => ""
  | (depth, text) :: rest =>
    String.ofList (List.replicate (2 * depth) ' ') ++ " ".intercalate (text :: rest.map (·.2)) ++
      "\n"

/-- The text of lines. -/
def linesText : List (List (Nat × String)) → String
  | [] => ""
  | tokens :: rest => lineText tokens ++ linesText rest

/-- The text of pieces. -/
def text (pieces : List Piece) : String :=
  linesText (lines pieces)

theorem lines_ne_nil (pieces : List Piece) : lines pieces ≠ [] := by
  induction pieces with
  | nil => simp [lines]
  | cons piece rest ih =>
      cases piece with
      | lineBreak => simp [lines]
      | token depth text => simpa [lines] using ih

end Piece

namespace Printer

/-- The line at hand consists of the given tokens. -/
def Pending (p : Printer) (tokens : List (Nat × String)) : Prop :=
  p.line = tokens.map (·.2) ∧ ∀ token ∈ tokens.head?, p.depth = token.1

theorem Pending.flush_done {p : Printer} {tokens : List (Nat × String)}
    (pending : p.Pending tokens) : p.flush.done = p.done ++ Piece.lineText tokens := by
  obtain ⟨line, depth⟩ := pending
  cases tokens with
  | nil => simp [flush, line, Piece.lineText]
  | cons token rest =>
      have same : p.depth = token.1 := depth token rfl
      simp [flush, line, same, Piece.lineText, indent, String.append_assoc]

theorem Pending.flush {p : Printer} {tokens : List (Nat × String)}
    (pending : p.Pending tokens) : p.flush.Pending [] := by
  refine ⟨?_, by simp⟩
  obtain ⟨line, -⟩ := pending
  cases tokens <;> simp [Printer.flush, line]

theorem Pending.token {p : Printer} {tokens : List (Nat × String)} (pending : p.Pending tokens)
    (shown : StyleClass → String → String) (depth : Nat) (style : StyleClass) (text : String) :
    (p.step shown (.token depth style text)).Pending (tokens ++ [(depth, shown style text)]) := by
  obtain ⟨line, first⟩ := pending
  refine ⟨by simp [step, line], ?_⟩
  cases tokens with
  | nil => simp [step, line]
  | cons token rest => simpa [step, line] using first

/-- Printing continues the line at hand and then prints the other lines. The induction is
on the marks; the tokens of the unfinished line are carried along. -/
theorem foldl_step_flush (shown : StyleClass → String → String) (marks : List Mark) {p : Printer}
    {tokens : List (Nat × String)} (pending : p.Pending tokens) :
    (marks.foldl (step shown) p).flush.done =
      p.done ++ Piece.linesText
        ((Piece.lines (marks.map (Mark.piece shown))).modifyHead (tokens ++ ·)) := by
  induction marks generalizing p tokens with
  | nil => simp [Piece.lines, Piece.linesText, pending.flush_done]
  | cons mark rest ih =>
      cases mark with
      | lineBreak =>
          have next := ih pending.flush
          rw [List.foldl_cons, show p.step shown .lineBreak = p.flush from rfl, next,
            pending.flush_done, String.append_assoc]
          cases lines : Piece.lines (rest.map (Mark.piece shown)) with
          | nil => exact absurd lines (Piece.lines_ne_nil _)
          | cons head others =>
              simp [Mark.piece, Piece.lines, Piece.linesText, lines]
      | token depth style text =>
          have next := ih (pending.token shown depth style text)
          rw [List.foldl_cons, next]
          cases lines : Piece.lines (rest.map (Mark.piece shown)) with
          | nil => exact absurd lines (Piece.lines_ne_nil _)
          | cons head others =>
              simp [Mark.piece, Piece.lines, lines, step]

/-- What is printed is the text of the lines between the breaks. -/
theorem print_eq_text (shown : StyleClass → String → String) (marks : List Mark) :
    print shown marks = Piece.text (marks.map (Mark.piece shown)) := by
  have start : start.Pending [] := ⟨rfl, by simp⟩
  rw [print, foldl_step_flush shown marks start, Piece.text]
  cases lines : Piece.lines (marks.map (Mark.piece shown)) with
  | nil => exact absurd lines (Piece.lines_ne_nil _)
  | cons head others => simp [Printer.start]

end Printer

end TreeLens
