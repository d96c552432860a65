import TreeLens.View.Basic

/-!
# Pointer moves

A widget lies in the regions of all its ancestors that are regions. When the pointer
moves, regions that no longer hold it are left from the innermost to the outermost, then
new ones are entered from the outermost to the innermost.
-/

namespace TreeLens

/-- What happens to a region. -/
inductive HoverEvent where
  | enter
  | exit
deriving DecidableEq, Repr

namespace TreeView

/-- The views whose regions hold a widget, innermost first. -/
def hoverChain (t : TreeView) (widget : Option Nat) : List Nat :=
  match widget with
  | none => []
  | some w => (t.widgets.ancestors w).filterMap fun id => (t.widgets.get? id).bind (·.hover)

/-- The events of a pointer move as views, in the order in which they happen. -/
def hoverViews (t : TreeView) (left entered : Option Nat) : List (HoverEvent × Nat) :=
  let before := t.hoverChain left
  let after := t.hoverChain entered
  ((before.filter fun v => !after.contains v).map fun v => (.exit, v)) ++
    ((after.reverse.filter fun v => !before.contains v).map fun v => (.enter, v))

/-- The events of a pointer move from one widget to another, with the nodes of the
regions. -/
def pointerMoved (t : TreeView) (left entered : Option Nat) : List (HoverEvent × Node) :=
  (t.hoverViews left entered).filterMap fun e => (t.node? e.2).map fun node => (e.1, node)

end TreeView

end TreeLens
