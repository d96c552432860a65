import TreeLens.Proofs.View.Marks
import TreeLens.Proofs.View.Shown

/-!
# Layout of shown trees

`Node.layout` lays a tree out by recursion on the tree, given which of its nodes are
open; it knows nothing of widgets. The plain text of a shown tree is the text of this
layout (`plainText_shown`), and so is that of a fresh render after any gestures.
-/

namespace TreeLens

/-! ## The layout -/

/-- A leaf as it is printed: strings are quoted and escaped. -/
def Leaf.printed : Leaf → String
  | .str s => "\"" ++ escapeText s ++ "\""
  | value => value.text

namespace Node

mutual

/-- The layout of a node at a path and a depth. What is closed is shown as an ellipsis;
what is open has its fields or items on lines of their own, one level deeper. -/
def layout (isOpen : Path → Bool) (here : Path) (depth : Nat) : Node → List Piece
  | .leaf value => [.token depth value.printed]
  | .array items =>
    if items.isEmpty then [.token depth "[]"]
    else if isOpen here then
      [.token depth "[", .lineBreak] ++ layoutItems isOpen here 0 (depth + 1) items ++
        [.lineBreak, .token depth "]"]
    else [.token depth "..."]
  | .object (some name) fields _ =>
    if isOpen here then
      [.token depth "-", .token depth name, .token depth "\x7b", .lineBreak] ++
        layoutFields isOpen here 0 (depth + 1) fields ++ [.lineBreak, .token depth "\x7d"]
    else [.token depth "+", .token depth name, .token depth "..."]
  | .object none fields _ =>
    if isOpen here then
      [.token depth "\x7b", .lineBreak] ++ layoutFields isOpen here 0 (depth + 1) fields ++
        [.lineBreak, .token depth "\x7d"]
    else [.token depth "..."]

/-- The layout of items, the first of them being item `i`: each starts a line. -/
def layoutItems (isOpen : Path → Bool) (here : Path) (i depth : Nat) : List Node → List Piece
  | [] => []
  | item :: rest =>
    .lineBreak :: item.layout isOpen (here ++ [.item i]) depth ++
      layoutItems isOpen here (i + 1) depth rest

/-- The layout of fields, the first of them being field `i`: each starts a line with its
key. -/
def layoutFields (isOpen : Path → Bool) (here : Path) (i depth : Nat) :
    List (String × Node) → List Piece
  | [] => []
  | (key, value) :: rest =>
    .lineBreak :: .token depth (key ++ ":") :: value.layout isOpen (here ++ [.field i]) depth ++
      layoutFields isOpen here (i + 1) depth rest

end

end Node

/-! ## Marks of rendered nodes -/

/-- States of views by path and by number agree on an outline whose first view has number
`view`. -/
def StatesAgree (byPath : Path → Bool) (byView : Nat → Bool) (view : Nat) :
    List (Path × Node) → Prop
  | [] => True
  | entry :: rest => byPath entry.1 = byView view ∧ StatesAgree byPath byView (view + 1) rest

theorem statesAgree_append {byPath : Path → Bool} {byView : Nat → Bool} {view : Nat}
    {entries others : List (Path × Node)} :
    StatesAgree byPath byView view (entries ++ others) ↔
      StatesAgree byPath byView view entries ∧
        StatesAgree byPath byView (view + entries.length) others := by
  induction entries generalizing view with
  | nil => simp [StatesAgree]
  | cons entry rest ih =>
      simp only [List.cons_append, StatesAgree, ih, List.length_cons, and_assoc, Nat.add_assoc,
        Nat.add_comm 1]

theorem statesAgree_of_getElem? {byPath : Path → Bool} {byView : Nat → Bool} {view : Nat}
    {entries : List (Path × Node)}
    (same : ∀ k entry, entries[k]? = some entry → byPath entry.1 = byView (view + k)) :
    StatesAgree byPath byView view entries := by
  induction entries generalizing view with
  | nil => trivial
  | cons entry rest ih =>
      refine ⟨same 0 entry rfl, ih fun k other found => ?_⟩
      rw [Nat.add_right_comm]
      exact same (k + 1) other found

namespace Element

/-- The pieces that elements are printed as when the views for which `isOpen` holds are
open. -/
def pieces (isOpen : Nat → Bool) (depth : Nat) (es : List Element) : List Piece :=
  (marksAll depth (mapFacesAll (Face.shownAs isOpen) es)).map (Mark.piece plainToken)

/-- An unnamed object or an array looks the same whoever draws its braces. -/
theorem pieces_bracketed (isOpen : Nat → Bool) (depth view : Nat) (own : Bool)
    (left right : String) {style contentStyle : StyleClass}
    (role : style = .object ∧ contentStyle = .objectContent ∨
      style = .array ∧ contentStyle = .arrayContent) (content : List Element) :
    pieces isOpen depth (enclosed view (if own then none else some (left, right))
      [bracketed view style contentStyle (if own then some (left, right) else none) content]) =
      if isOpen view then
        [.token depth left, .lineBreak] ++ pieces isOpen (depth + 1) content ++
          [.lineBreak, .token depth right]
      else [.token depth "..."] := by
  rcases role with ⟨rfl, rfl⟩ | ⟨rfl, rfl⟩ <;> cases own <;> cases state : isOpen view <;>
    simp [pieces, enclosed, bracketed, leaf, mapFacesAll, mapFaces, marksAll, marks, Face.region,
      Face.content, Face.ellipsis, Face.brace, Face.shownAs, state, Mark.piece, plainToken,
      ellipsisText]

theorem pieces_titled (isOpen : Nat → Bool) (depth view : Nat) (name : String)
    (content : List Element) :
    pieces isOpen depth [titled view name content] =
      if isOpen view then
        [.token depth "-", .token depth name, .token depth "\x7b", .lineBreak] ++
          pieces isOpen (depth + 1) content ++ [.lineBreak, .token depth "\x7d"]
      else [.token depth "+", .token depth name, .token depth "..."] := by
  cases state : isOpen view <;>
    simp [pieces, titled, leaf, mapFacesAll, mapFaces, marksAll, marks, Face.region, Face.group,
      Face.glyph, Face.title, Face.content, Face.ellipsis, Face.brace, Face.shownAs, state,
      Mark.piece, plainToken, openGlyph, closedGlyph, ellipsisText]

theorem pieces_item (isOpen : Nat → Bool) (depth : Nat) (e : Element) (rest : List Element) :
    pieces isOpen depth (item e :: rest) =
      .lineBreak :: pieces isOpen depth [e] ++ pieces isOpen depth rest := by
  simp [pieces, item, mapFacesAll, mapFaces, marksAll, marks, Face.group, Face.shownAs, Mark.piece]

theorem pieces_field (isOpen : Nat → Bool) (depth view : Nat) (key : String) (value : Node)
    (rest : List Element) :
    pieces isOpen depth
        (field view key value (value.element view value.fieldBraces?.isNone) :: rest) =
      .lineBreak :: .token depth (key ++ ":") ::
        pieces isOpen depth (drawn view value.fieldBraces?.isNone value) ++
          pieces isOpen depth rest := by
  rw [field, enclosed_fieldBraces?]
  simp [pieces, leaf, mapFacesAll, mapFaces, marksAll, marks, Face.group, Face.key, Face.shownAs,
    Mark.piece, plainToken]

theorem pieces_single (isOpen : Nat → Bool) (depth view : Nat) (value : Leaf) :
    pieces isOpen depth [leaf (.single value.shown.1 view value.shown.2)] =
      [.token depth value.printed] := by
  cases value <;>
    simp [pieces, leaf, mapFacesAll, mapFaces, marksAll, marks, Face.single, Face.shownAs,
      Leaf.shown, Leaf.printed, Mark.piece, plainToken]

mutual

/-- A node is printed as its layout, with the braces that are drawn around it. -/
theorem pieces_drawn {byPath : Path → Bool} {byView : Nat → Bool} (here : Path)
    (view depth : Nat) (braces : Bool) :
    ∀ n : Node, StatesAgree byPath byView view (n.outline here) →
      pieces byView depth (drawn view braces n) = n.layout byPath here depth
  | .leaf value, _ => by
      have single := pieces_single byView depth view value
      cases braces <;> exact single
  | .array [], _ => by
      cases braces <;>
        simp [drawn, Node.fieldBraces?, enclosed, Node.element, pieces, leaf, mapFacesAll,
          mapFaces, marksAll, marks, Face.single, Face.shownAs, Node.layout, Mark.piece,
          plainToken, emptyArrayText]
  | .array (first :: rest), agree => by
      have inner := pieces_itemElements here (view + 1) 0 (depth + 1) (first :: rest) agree.2
      have own := pieces_bracketed byView depth view braces "[" "]" (.inr ⟨rfl, rfl⟩)
        (Node.itemElements (view + 1) (first :: rest))
      rw [inner] at own
      -- The outline starts with the node itself, so its own state is the first to agree.
      rw [Node.layout, agree.1, if_neg (by simp)]
      exact own
  | .object (some name) fields _, agree => by
      have inner := pieces_fieldElements here (view + 1) 0 (depth + 1) fields agree.2
      have own := pieces_titled byView depth view name (Node.fieldElements (view + 1) fields)
      rw [inner] at own
      rw [Node.layout, agree.1]
      cases braces <;> exact own
  | .object none fields _, agree => by
      have inner := pieces_fieldElements here (view + 1) 0 (depth + 1) fields agree.2
      have own := pieces_bracketed byView depth view braces "\x7b" "\x7d" (.inl ⟨rfl, rfl⟩)
        (Node.fieldElements (view + 1) fields)
      rw [inner] at own
      rw [Node.layout, agree.1]
      exact own

theorem pieces_itemElements {byPath : Path → Bool} {byView : Nat → Bool} (here : Path)
    (view i depth : Nat) :
    ∀ items : List Node, StatesAgree byPath byView view (Node.outlineItems here i items) →
      pieces byView depth (Node.itemElements view items) =
        Node.layoutItems byPath here i depth items
  | [], _ => rfl
  | item :: rest, agree => by
      rw [Node.outlineItems, statesAgree_append, Node.length_outline] at agree
      rw [Node.itemElements, pieces_item, Node.layoutItems, ← drawn_true,
        pieces_drawn (here ++ [.item i]) view depth true item agree.1,
        pieces_itemElements here (view + item.count) (i + 1) depth rest agree.2]

theorem pieces_fieldElements {byPath : Path → Bool} {byView : Nat → Bool} (here : Path)
    (view i depth : Nat) :
    ∀ fields : List (String × Node),
      StatesAgree byPath byView view (Node.outlineFields here i fields) →
      pieces byView depth (Node.fieldElements view fields) =
        Node.layoutFields byPath here i depth fields
  | [], _ => rfl
  | (key, value) :: rest, agree => by
      rw [Node.outlineFields, statesAgree_append, Node.length_outline] at agree
      rw [Node.fieldElements, pieces_field, Node.layoutFields,
        pieces_drawn (here ++ [.field i]) view depth _ value agree.1,
        pieces_fieldElements here (view + value.count) (i + 1) depth rest agree.2]

end

end Element

/-! ## Text of shown trees -/

namespace TreeView

/-- Whether the view of the node at a path is open. -/
def isOpenAt (t : TreeView) (path : Path) : Bool :=
  (t.findView? path).bind t.isOpen? == some true

theorem isOpenAt_shown {tree : Node} {i : Nat} {entry : Path × Node}
    (found : (tree.outline [])[i]? = some entry) (isOpen : Nat → Bool) :
    (shown tree isOpen).isOpenAt entry.1 = isOpen i := by
  obtain ⟨view, here, -, state⟩ := exists_view_of_getElem?_outline found isOpen
  simp [isOpenAt, findView?_shown found, isOpen?, here, state]

/-- The widgets of a shown tree are those of its element, so it has the element's marks. -/
theorem marks_shown (tree : Node) (isOpen : Nat → Bool) :
    (shown tree isOpen).marks = (tree.rootElement.mapFaces (Face.shownAs isOpen)).marks 0 :=
  WidgetTree.marks_of_holdsFrom none 0 0 _ (WidgetTree.HoldsFrom.of_toArray _)

/-- What the printer is given for a shown tree is the tree's layout. -/
theorem map_piece_marks_shown (tree : Node) (isOpen : Nat → Bool) :
    (shown tree isOpen).marks.map (Mark.piece plainToken) =
      tree.layout (shown tree isOpen).isOpenAt [] 0 := by
  -- Views are numbered like the outline, so states by path and by number are the same.
  have agree : StatesAgree (shown tree isOpen).isOpenAt isOpen 0 (tree.outline []) := by
    refine statesAgree_of_getElem? fun k entry found => ?_
    rw [Nat.zero_add, isOpenAt_shown found]
  have node := Element.pieces_drawn [] 0 0 true tree agree
  rw [marks_shown, ← node]
  simp [Node.rootElement, Element.mapFaces, Element.marks, Element.pieces, Element.drawn_true,
    Element.mapFacesAll, Element.marksAll, Face.root, Face.shownAs]

theorem plainText_shown (tree : Node) (isOpen : Nat → Bool) :
    (shown tree isOpen).plainText =
      Piece.text (tree.layout (shown tree isOpen).isOpenAt [] 0) := by
  rw [plainText, Printer.print_eq_text, map_piece_marks_shown]

example :
    let tree : Node := .object (some "Call") [("args", .array [.null, .object none [] none])] none
    Piece.text (tree.layout (fun path => path != [.field 0, .item 1]) [] 0) =
      "- Call \x7b\n  args: [\n    null\n    ...\n  ]\n\x7d\n" := by
  decide +kernel

/-- **Plain text.** After any toggles and clicks on a fresh render, the plain text is that
of the layout of the tree under the states that its views then have. -/
theorem plainText_performAll_render (tree : Node) (gestures : List Gesture) :
    ((render tree).performAll gestures).plainText =
      Piece.text (tree.layout ((render tree).performAll gestures).isOpenAt [] 0) := by
  rw [performAll_render]
  exact plainText_shown tree _

end TreeView

end TreeLens
