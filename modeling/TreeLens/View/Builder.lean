import TreeLens.View.Basic

/-!
# Building views step by step

A builder adds views and widgets one at a time. A view is reserved before those inside
it, and its parts are noted in it when all its widgets are there; braces that a field
draws around its value are noted after that, and a key becomes a button last. The number
of a view or a widget is the number of those that were there before it. `TreeView.build`
is the whole construction.
-/

namespace TreeLens

/-- The widgets and the views so far. -/
@[ext]
structure Builder where
  widgets : WidgetTree
  views : Array View

namespace Builder

/-! ## Single steps -/

/-- Adds an open view that has no parts yet. -/
def reserve (b : Builder) (kind : ViewKind) (source : Path) : Nat × Builder :=
  (b.views.size,
    { b with
      views := b.views.push
        { kind, isOpen := true, container := none, content := none, ellipsis := none,
          glyph := none, braces := [], source } })

/-- Adds a widget below another one. -/
def push (b : Builder) (parent : Nat) (style : StyleClass) (display : Display)
    (text : Option String) : Nat × Builder :=
  (b.widgets.size, { b with widgets := b.widgets.push (some parent) style display text })

def trivia (b : Builder) (parent : Nat) (text : String) (display : Display) : Nat × Builder :=
  b.push parent .trivia display (some text)

/-- Adds a brace, if there is one to draw. -/
def brace? (b : Builder) (parent : Nat) : Option String → Option Nat × Builder
  | none => (none, b)
  | some text =>
    let (brace, b) := b.trivia parent text .inline
    (some brace, b)

def change (b : Builder) (widget : Nat) (f : Widget → Widget) : Builder :=
  { b with widgets := b.widgets.modify widget f }

def setHover (b : Builder) (widget view : Nat) : Builder :=
  b.change widget fun w => { w with hover := some view }

def setClick (b : Builder) (widget view : Nat) : Builder :=
  b.change widget fun w => { w with click := some view }

def addClass (b : Builder) (widget : Nat) (style : StyleClass) : Builder :=
  b.change widget fun w => { w with extra := w.extra ++ [style] }

/-- Notes parts in a view. -/
def note (b : Builder) (view : Nat) (f : View → View) : Builder :=
  { b with views := b.views.modify view f }

/-! ## Kinds of views -/

/-- A view that is one widget. -/
def single (b : Builder) (kind : ViewKind) (parent : Nat) (path : Path) (style : StyleClass)
    (text : String) : Nat × Builder :=
  let (view, b) := b.reserve kind path
  let (leaf, b) := b.push parent style .inline (some text)
  (view, b.note view fun v => { v with container := some leaf })

/-- A view of several widgets, with its container: the view, the container, and the
builder after that. -/
def region (b : Builder) (kind : ViewKind) (parent : Nat) (path : Path) (style : StyleClass) :
    Nat × Nat × Builder :=
  let (view, b) := b.reserve kind path
  let (container, b) := b.push parent style .block none
  (view, container, b.setHover container view)

/-- The line of a name: its glyph, its brace, and the builder after that. -/
def header (b : Builder) (container view : Nat) (name : String) : Nat × Nat × Builder :=
  let (header, b) := b.push container .objectHeader .block none
  let (glyph, b) := b.push header .headerToggle .inline (some openGlyph)
  let (title, b) := b.push header .headerName .inline (some name)
  let b := b.setClick title view
  let (brace, b) := b.trivia header "\x7b" .inline
  (glyph, brace, b)

/-- An ellipsis and a content, which `fill` adds to: the two, and the builder after
that. -/
def body (b : Builder) (container : Nat) (style : StyleClass) (fill : Nat → Builder → Builder) :
    Nat × Nat × Builder :=
  let (ellipsis, b) := b.trivia container ellipsisText .none
  let (content, b) := b.push container style .block none
  (ellipsis, content, fill content b)

/-- An unnamed object or an array with items. -/
def bracketed (b : Builder) (kind : ViewKind) (parent : Nat) (path : Path)
    (style contentStyle : StyleClass) (braces : Option (String × String))
    (fill : Nat → Builder → Builder) : Nat × Builder :=
  let (view, container, b) := b.region kind parent path style
  let (left, b) := b.brace? container (braces.map (·.1))
  let (ellipsis, content, b) := b.body container contentStyle fill
  let (right, b) := b.brace? container (braces.map (·.2))
  (view, b.note view fun v =>
    { v with
      container := some container
      content := some content
      ellipsis := some ellipsis
      braces := v.braces ++ (left.toList ++ right.toList) })

/-- A named object. -/
def titled (b : Builder) (parent : Nat) (path : Path) (name : String)
    (fill : Nat → Builder → Builder) : Nat × Builder :=
  let (view, container, b) := b.region .namedObject parent path .object
  let (glyph, left, b) := b.header container view name
  let (ellipsis, content, b) := b.body container .objectContent fill
  let (right, b) := b.trivia container "\x7d" .inline
  (view, b.note view fun v =>
    { v with
      container := some container
      content := some content
      ellipsis := some ellipsis
      glyph := some glyph
      braces := v.braces ++ [left, right] })

/-- A value below a widget, with the braces that its field draws around it; `draw` adds
the value, with its own braces or without. -/
def enclosed (b : Builder) (parent : Nat) (braces : Option (String × String))
    (draw : Bool → Builder → Nat × Builder) : Nat × Builder :=
  match braces with
  | none => draw true b
  | some (left, right) =>
    let (leftBrace, b) := b.trivia parent left .inline
    let (child, b) := draw false b
    let (rightBrace, b) := b.trivia parent right .inline
    (child, b.note child fun v => { v with braces := v.braces ++ [leftBrace, rightBrace] })

/-- A field; `draw` adds its value below a widget. -/
def field (b : Builder) (content : Nat) (key : String) (value : Node)
    (draw : Nat → Bool → Builder → Nat × Builder) : Builder :=
  let (item, b) := b.push content .contentItem .block none
  let (label, b) := b.push item .itemKey .inline (some key)
  let (holder, b) := b.push item .itemValue .inline none
  let (child, b) := b.enclosed holder value.fieldBraces? (draw holder)
  if value.isExpandable then (b.addClass label .keyButton).setClick label child else b

/-! ## Nodes -/

mutual

/-- Adds a node below a widget, and gives the number of its view; `braces` says whether
an unnamed object or an array draws its own braces. -/
def node (b : Builder) (parent : Nat) (braces : Bool) (path : Path) : Node → Nat × Builder
  | .leaf value => b.single .primitive parent path value.shown.1 value.shown.2
  | .array items =>
    if items.isEmpty then b.single .emptyArray parent path .arrayEmpty emptyArrayText
    else
      b.bracketed .array parent path .array .arrayContent
        (if braces then some ("[", "]") else none) fun content b => b.items content path 0 items
  | .object (some name) fields _ =>
    b.titled parent path name fun content b => b.fields content path 0 fields
  | .object none fields _ =>
    b.bracketed .record parent path .object .objectContent
      (if braces then some ("\x7b", "\x7d") else none)
      fun content b => b.fields content path 0 fields

/-- Adds items, the first of them being item `i`. -/
def items (b : Builder) (content : Nat) (path : Path) (i : Nat) : List Node → Builder
  | [] => b
  | item :: rest =>
    let (slot, b) := b.push content .arrayItem .block none
    let (_, b) := b.node slot true (path ++ [.item i]) item
    b.items content path (i + 1) rest

/-- Adds fields, the first of them being field `i`. -/
def fields (b : Builder) (content : Nat) (path : Path) (i : Nat) :
    List (String × Node) → Builder
  | [] => b
  | (key, value) :: rest =>
    let b := b.field content key value fun holder braces b =>
      b.node holder braces (path ++ [.field i]) value
    b.fields content path (i + 1) rest

end

end Builder

/-- The view of a tree with all nodes open, built step by step. -/
def TreeView.build (tree : Node) : TreeView :=
  let start : Builder := ⟨WidgetTree.empty.push none .container .block none, #[]⟩
  let (_, built) := start.node rootWidget true [] tree
  { tree, widgets := built.widgets, views := built.views }

end TreeLens
