import TreeLens.View.Render

/-!
# Tree views

A tree view is a tree with its widgets and the state of its views. Every view knows its
parts among the widgets; toggling a view changes its own parts and nothing else, so
views inside a closed one keep their state.
-/

namespace TreeLens

/-- What a view shows. -/
inductive ViewKind where
  | namedObject
  | record
  | array
  | emptyArray
  | primitive
deriving DecidableEq, Repr

/-- Whether views of a kind can be opened and closed. -/
def ViewKind.isExpandable : ViewKind → Bool
  | .namedObject => true
  | .record => true
  | .array => true
  | .emptyArray => false
  | .primitive => false

/-- The kind of the view of a node. -/
def Node.viewKind : Node → ViewKind
  | .leaf _ => .primitive
  | .array [] => .emptyArray
  | .array (_ :: _) => .array
  | .object (some _) _ _ => .namedObject
  | .object none _ _ => .record

/-- The view of a node: whether it is open, which widgets are its parts, and where the
node stands. -/
structure View where
  kind : ViewKind
  isOpen : Bool
  container : Option Nat
  content : Option Nat
  ellipsis : Option Nat
  glyph : Option Nat
  braces : List Nat
  source : Path
deriving DecidableEq, Repr

namespace View

/-- The open view of a node, without parts. -/
def fresh (source : Path) (node : Node) : View where
  kind := node.viewKind
  isOpen := true
  container := none
  content := none
  ellipsis := none
  glyph := none
  braces := []
  source := source

/-- Makes a widget a part of a view. -/
def assign (id : Nat) (view : View) : Part → View
  | .container => { view with container := some id }
  | .content => { view with content := some id }
  | .ellipsis => { view with ellipsis := some id }
  | .glyph => { view with glyph := some id }
  | .brace => { view with braces := view.braces ++ [id] }

/-- Gives every view the widgets that are its parts; the first face belongs to widget
`id`. -/
def assignAll (id : Nat) (views : Array View) : List Face → Array View
  | [] => views
  | face :: rest =>
    match face.part with
    | none => assignAll (id + 1) views rest
    | some (owner, part) => assignAll (id + 1) (views.modify owner fun v => v.assign id part) rest

/-- Shows the parts of a view as those of an open or a closed one. -/
def apply (view : View) (isOpen : Bool) (widgets : WidgetTree) : WidgetTree :=
  (((widgets.setDisplays view.content.toList (if isOpen then .block else .none)).setDisplays
    view.braces (if isOpen then .inline else .none)).setDisplays
      view.ellipsis.toList (if isOpen then .none else .inline)).setTexts
        view.glyph.toList (if isOpen then openGlyph else closedGlyph)

end View

/-- A tree with its widgets and views. -/
structure TreeView where
  tree : Node
  widgets : WidgetTree
  views : Array View

namespace TreeView

/-- The view of a tree with all nodes open. -/
def render (tree : Node) : TreeView :=
  let root := tree.rootElement
  let views := (tree.outline []).map fun entry => View.fresh entry.1 entry.2
  { tree
    widgets := ⟨(root.widgets none 0).toArray⟩
    views := View.assignAll 0 views.toArray root.faces }

def rootWidget : Nat := 0

def rootView : Nat := 0

def isOpen? (t : TreeView) (view : Nat) : Option Bool :=
  t.views[view]?.map (·.isOpen)

def node? (t : TreeView) (view : Nat) : Option Node :=
  t.views[view]?.bind fun v => t.tree.resolve? v.source

/-- The view of the node at a path. -/
def findView? (t : TreeView) (path : Path) : Option Nat :=
  t.views.findIdx? fun v => v.source == path

/-- The text of the path of a view's node. -/
def jsonPath? (t : TreeView) (view : Nat) : Option String :=
  t.views[view]?.bind fun v => t.tree.jsonPath? v.source

/-- Opens a closed view or closes an open one; views of leaves and empty arrays, and
views that do not exist, cannot be toggled. -/
def toggle? (t : TreeView) (view : Nat) : Option TreeView :=
  t.views[view]?.bind fun v =>
    if v.kind.isExpandable then
      some { t with
        widgets := v.apply (!v.isOpen) t.widgets
        views := t.views.modify view fun v => { v with isOpen := !v.isOpen } }
    else none

/-- Clicks a widget; one without an action cannot be clicked. -/
def click? (t : TreeView) (widget : Nat) : Option TreeView :=
  ((t.widgets.get? widget).bind (·.click)).bind t.toggle?

end TreeView

end TreeLens
