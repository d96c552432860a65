import TreeLens.View.Basic
import TreeLens.Widget.Theme

/-!
# Views as text

The visible part of a view is printed as indented lines. `WidgetTree.marks` walks the
widgets and gives the tokens and line breaks in order; `Printer` sets them out. Plain
and coloured text differ only in how a token is shown, so they have the same lines.
-/

namespace TreeLens

/-- What the printer is given: the end of a line, or a token with its class and
depth. -/
inductive Mark where
  | lineBreak
  | token (depth : Nat) (style : StyleClass) (text : String)
deriving DecidableEq, Repr

namespace WidgetTree

/-- The marks of a widget and its descendants. Content stands on lines of its own, one
level deeper, and every field and item starts a line; hidden widgets have no marks. -/
def marks (t : WidgetTree) (id depth : Nat) : List Mark :=
  match _found : t.widgets[id]? with
  | none => []
  | some w =>
    if w.display = .none then []
    else if w.style = .objectContent ∨ w.style = .arrayContent then
      .lineBreak ::
        (w.children.flatMap fun c => if _below : id < c then t.marks c (depth + 1) else []) ++
        [.lineBreak]
    else
      (if w.style = .contentItem ∨ w.style = .arrayItem then [.lineBreak] else []) ++
        (w.text.elim [] fun text => [.token depth w.style text]) ++
        w.children.flatMap fun c => if _below : id < c then t.marks c depth else []
termination_by t.size - id
decreasing_by
  all_goals
    have : id < t.size := by
      unfold size
      exact (Array.getElem?_eq_some_iff.1 ‹t.widgets[id]? = some w›).1
    omega

end WidgetTree

/-- Lines that are done, and the tokens of the line at hand with the depth of the
first. -/
structure Printer where
  done : String
  line : List String
  depth : Nat

namespace Printer

def start : Printer :=
  ⟨"", [], 0⟩

/-- So many levels of indentation. -/
def indent (depth : Nat) : String :=
  String.ofList (List.replicate (2 * depth) ' ')

/-- Ends the line at hand, if it has tokens. -/
def flush (p : Printer) : Printer :=
  if p.line.isEmpty then p
  else { p with done := p.done ++ indent p.depth ++ " ".intercalate p.line ++ "\n", line := [] }

/-- Takes a mark; `shown` is how a token looks. -/
def step (shown : StyleClass → String → String) (p : Printer) : Mark → Printer
  | .lineBreak => p.flush
  | .token depth style text =>
    { p with
      line := p.line ++ [shown style text]
      depth := if p.line.isEmpty then depth else p.depth }

def print (shown : StyleClass → String → String) (marks : List Mark) : String :=
  (marks.foldl (step shown) start).flush.done

end Printer

/-- A token without colour: strings are quoted and keys end in a colon. -/
def plainToken (style : StyleClass) (text : String) : String :=
  match style with
  | .string => "\"" ++ text ++ "\""
  | .itemKey => text ++ ":"
  | _ => text

/-- A token in the colour that a theme gives its class. -/
def themedToken (theme : Theme) (style : StyleClass) (text : String) : String :=
  match style.token? with
  | some token => (theme.style token).paint (plainToken style text)
  | none => plainToken style text

namespace TreeView

def marks (t : TreeView) : List Mark :=
  t.widgets.marks rootWidget 0

/-- The visible part of a view as lines of text. -/
def plainText (t : TreeView) : String :=
  Printer.print plainToken t.marks

/-- The visible part of a view as lines of coloured text. -/
def themedText (t : TreeView) (theme : Theme) : String :=
  Printer.print (themedToken theme) t.marks

end TreeView

end TreeLens
