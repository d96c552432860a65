import TreeLens.Text.Escape
import TreeLens.Tree.Path
import TreeLens.View.Element

/-!
# Rendering

Every node of a tree has a view, numbered like the outline of the tree: a node before
its descendants. `Node.element` is the element of a node. Opening and closing braces
belong to the view of the node they enclose, but those of an unnamed object or an array
in a field are drawn by the field, around the node's own container.
-/

namespace TreeLens

/-! ## Texts -/

def openGlyph : String := "-"

def closedGlyph : String := "+"

/-- What stands for the content of a closed view. -/
def ellipsisText : String := "..."

/-- What stands for an array without items. -/
def emptyArrayText : String := "[]"

/-! ## Faces -/

namespace Face

def root : Face := { style := .container, display := .block }

/-- The container of a view, which is also its hover region. -/
def region (style : StyleClass) (view : Nat) : Face :=
  { style, display := .block, hover := some view, part := some (view, .container) }

def content (style : StyleClass) (view : Nat) : Face :=
  { style, display := .block, part := some (view, .content) }

/-- The ellipsis of a view, which is hidden at first. -/
def ellipsis (view : Nat) : Face :=
  { style := .trivia, display := .none, text := some ellipsisText, part := some (view, .ellipsis) }

def brace (view : Nat) (text : String) : Face :=
  { style := .trivia, display := .inline, text := some text, part := some (view, .brace) }

def glyph (view : Nat) : Face :=
  { style := .headerToggle, display := .inline, text := some openGlyph,
    part := some (view, .glyph) }

/-- The name of a view that has one; a click toggles the view. -/
def title (view : Nat) (name : String) : Face :=
  { style := .headerName, display := .inline, text := some name, click := some view }

/-- A view that is one widget. -/
def single (style : StyleClass) (view : Nat) (text : String) : Face :=
  { style, display := .inline, text := some text, part := some (view, .container) }

/-- A widget that only holds others. -/
def group (style : StyleClass) (display : Display) : Face :=
  { style, display }

/-- The key of a field; if the value can be opened, a click toggles its view. -/
def key (text : String) (button : Option Nat) : Face :=
  { style := .itemKey, extra := if button.isSome then [.keyButton] else [], display := .inline,
    text := some text, click := button }

end Face

/-! ## Elements of nodes -/

/-- The class and text of a leaf. -/
def Leaf.shown : Leaf → StyleClass × String
  | .null => (.null, Leaf.null.text)
  | .bool b => (.boolean, (Leaf.bool b).text)
  | .num d => (.number, (Leaf.num d).text)
  | .str s => (.string, escapeText s)

/-- The braces that a field draws around its value. -/
def Node.fieldBraces? : Node → Option (String × String)
  | .object none _ _ => some ("\x7b", "\x7d")
  | .array (_ :: _) => some ("[", "]")
  | _ => none

namespace Element

/-- Elements between two braces of a view. -/
def enclosed (view : Nat) (braces : Option (String × String)) (inner : List Element) :
    List Element :=
  match braces with
  | some (left, right) => leaf (.brace view left) :: inner ++ [leaf (.brace view right)]
  | none => inner

/-- The element of an unnamed object or an array with items. -/
def bracketed (view : Nat) (style contentStyle : StyleClass) (braces : Option (String × String))
    (content : List Element) : Element :=
  .mk (.region style view)
    (enclosed view braces [leaf (.ellipsis view), .mk (.content contentStyle view) content])

def titled (view : Nat) (name : String) (content : List Element) : Element :=
  .mk (.region .object view)
    [.mk (.group .objectHeader .block)
      [leaf (.glyph view), leaf (.title view name), leaf (.brace view "\x7b")],
    leaf (.ellipsis view), .mk (.content .objectContent view) content, leaf (.brace view "\x7d")]

/-- The element of a field whose value has the given view and element. -/
def field (view : Nat) (key : String) (value : Node) (element : Element) : Element :=
  .mk (.group .contentItem .block)
    [leaf (.key key (if value.isExpandable then some view else none)),
    .mk (.group .itemValue .inline) (enclosed view value.fieldBraces? [element])]

def item (element : Element) : Element :=
  .mk (.group .arrayItem .block) [element]

end Element

namespace Node

mutual

/-- The element of a node with the given view; `braces` says whether an unnamed object
or an array draws its own braces. -/
def element (view : Nat) (braces : Bool) : Node → Element
  | .leaf value => .leaf (.single value.shown.1 view value.shown.2)
  | .array [] => .leaf (.single .arrayEmpty view emptyArrayText)
  | .array (first :: rest) =>
    .bracketed view .array .arrayContent (if braces then some ("[", "]") else none)
      (.item (first.element (view + 1) true) :: itemElements (view + 1 + first.count) rest)
  | .object (some name) fields _ => .titled view name (fieldElements (view + 1) fields)
  | .object none fields _ =>
    .bracketed view .object .objectContent (if braces then some ("\x7b", "\x7d") else none)
      (fieldElements (view + 1) fields)

/-- The elements of items, the first of them having the given view. -/
def itemElements (view : Nat) : List Node → List Element
  | [] => []
  | first :: rest => .item (first.element view true) :: itemElements (view + first.count) rest

/-- The elements of fields, the first of them having the given view. -/
def fieldElements (view : Nat) : List (String × Node) → List Element
  | [] => []
  | (key, value) :: rest =>
    .field view key value (value.element view value.fieldBraces?.isNone) ::
      fieldElements (view + value.count) rest

end

def rootElement (tree : Node) : Element :=
  .mk .root [tree.element 0 true]

end Node

end TreeLens
