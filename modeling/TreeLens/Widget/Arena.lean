import TreeLens.Widget.Style

/-!
# Widget trees

The widgets of a view stand in one array and refer to each other by number. A widget is
added below an earlier one, so parents have smaller numbers than their children; the
walks up and down follow only such links, which is why they end. Views, the rendered
forms of single nodes, have numbers of their own.
-/

namespace TreeLens

/-- A widget. Its first class decides its role, and further classes may be added. -/
structure Widget where
  style : StyleClass
  extra : List StyleClass
  text : Option String
  display : Display
  parent : Option Nat
  children : List Nat
  /-- The view that a click toggles. -/
  click : Option Nat
  /-- The view whose region the widget is. -/
  hover : Option Nat
deriving DecidableEq, Repr

namespace Widget

/-- All classes, the deciding one first. -/
def classes (w : Widget) : List StyleClass :=
  w.style :: w.extra

def hasClass (w : Widget) (style : StyleClass) : Bool :=
  w.classes.contains style

def isLeaf (w : Widget) : Bool :=
  w.children.isEmpty

end Widget

/-- Widgets by number. -/
structure WidgetTree where
  widgets : Array Widget
deriving DecidableEq, Repr

namespace WidgetTree

def empty : WidgetTree := ⟨#[]⟩

/-- The number of widgets, which is also the number the next one gets. -/
def size (t : WidgetTree) : Nat :=
  t.widgets.size

def get? (t : WidgetTree) (id : Nat) : Option Widget :=
  t.widgets[id]?

/-- Changes one widget; a number without a widget changes nothing. -/
def modify (t : WidgetTree) (id : Nat) (f : Widget → Widget) : WidgetTree :=
  ⟨t.widgets.modify id f⟩

/-- Adds a widget below a parent, or without one. -/
def push (t : WidgetTree) (parent : Option Nat) (style : StyleClass) (display : Display)
    (text : Option String) : WidgetTree :=
  let added : WidgetTree :=
    ⟨t.widgets.push
      { style, extra := [], text, display, parent, children := [], click := none, hover := none }⟩
  match parent with
  | none => added
  | some p => added.modify p fun w => { w with children := w.children ++ [t.size] }

def setDisplay (t : WidgetTree) (id : Nat) (display : Display) : WidgetTree :=
  t.modify id fun w => { w with display }

def setText (t : WidgetTree) (id : Nat) (text : String) : WidgetTree :=
  t.modify id fun w => { w with text := some text }

def setDisplays (t : WidgetTree) (ids : List Nat) (display : Display) : WidgetTree :=
  ids.foldl (fun t id => t.setDisplay id display) t

def setTexts (t : WidgetTree) (ids : List Nat) (text : String) : WidgetTree :=
  ids.foldl (fun t id => t.setText id text) t

/-- The widget, its parent, and so on up to one without a parent; nothing for a number
without a widget. -/
def ancestors (t : WidgetTree) (id : Nat) : List Nat :=
  match t.get? id with
  | none => []
  | some w =>
    id :: match w.parent with
      | none => []
      -- Parents have smaller numbers; the test is there for termination.
      | some p => if p < id then t.ancestors p else []
termination_by id

/-- A widget is visible when it exists and neither it nor an ancestor is hidden. -/
def isVisible (t : WidgetTree) (id : Nat) : Bool :=
  (t.get? id).isSome &&
    (t.ancestors id).all fun a => (t.get? a).all fun w => w.display != .none

/-- The widgets with a text, in ascending order. -/
def findByText (t : WidgetTree) (text : String) : List Nat :=
  (List.range t.size).filter fun id => (t.get? id).any fun w => w.text == some text

/-- The childless widgets of a subtree, a left one before a right one. -/
def leaves (t : WidgetTree) (id : Nat) : List Nat :=
  match _found : t.widgets[id]? with
  | none => []
  | some w =>
    (if w.isLeaf then [id] else []) ++
      w.children.flatMap fun c => if _below : id < c then t.leaves c else []
termination_by t.size - id
decreasing_by
  have : id < t.size := by
    unfold size
    exact (Array.getElem?_eq_some_iff.1 ‹t.widgets[id]? = some w›).1
  omega

end WidgetTree

end TreeLens
