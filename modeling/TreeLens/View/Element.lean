import TreeLens.Widget.Arena

/-!
# Elements

An element is a widget with its descendants, before numbers are given out.
`Element.widgets` numbers the widgets of an element in the order in which they are met,
a widget before its descendants and a left child before a right one, and links them by
those numbers.
-/

namespace TreeLens

/-- What a widget is to the view that it belongs to. -/
inductive Part where
  /-- The widget that holds the whole view. -/
  | container
  /-- What is hidden when the view is closed. -/
  | content
  /-- What is shown instead of the content of a closed view. -/
  | ellipsis
  /-- The sign that shows whether the view is open. -/
  | glyph
  /-- A brace, which is hidden when the view is closed. -/
  | brace
deriving DecidableEq, Repr

/-- A widget without its links, with the part that it plays and the view for which it
plays it. -/
structure Face where
  style : StyleClass
  extra : List StyleClass := []
  display : Display
  text : Option String := none
  click : Option Nat := none
  hover : Option Nat := none
  part : Option (Nat × Part) := none
deriving DecidableEq, Repr

/-- A face as a widget with its links. -/
def Face.link (face : Face) (parent : Option Nat) (children : List Nat) : Widget where
  style := face.style
  extra := face.extra
  text := face.text
  display := face.display
  parent := parent
  children := children
  click := face.click
  hover := face.hover

/-- A widget with its descendants. -/
inductive Element where
  | mk (face : Face) (children : List Element)
deriving Repr

namespace Element

def leaf (face : Face) : Element := .mk face []

mutual

def size : Element → Nat
  | .mk _ children => 1 + sizeAll children

def sizeAll : List Element → Nat
  | [] => 0
  | e :: rest => e.size + sizeAll rest

end

/-- The numbers of elements in a row, the first of them having number `id`. -/
def numbers (id : Nat) : List Element → List Nat
  | [] => []
  | e :: rest => id :: numbers (id + e.size) rest

mutual

/-- The widgets of an element in ascending order, its own number being `id`. -/
def widgets (parent : Option Nat) (id : Nat) : Element → List Widget
  | .mk face children =>
    face.link parent (numbers (id + 1) children) :: widgetsAll id (id + 1) children

/-- The widgets of elements in a row below one parent, the first of them having number
`id`. -/
def widgetsAll (parent id : Nat) : List Element → List Widget
  | [] => []
  | e :: rest => e.widgets (some parent) id ++ widgetsAll parent (id + e.size) rest

end

mutual

/-- The faces of an element, in the order of the numbers of its widgets. -/
def faces : Element → List Face
  | .mk face children => face :: facesAll children

def facesAll : List Element → List Face
  | [] => []
  | e :: rest => e.faces ++ facesAll rest

end

end Element

end TreeLens
