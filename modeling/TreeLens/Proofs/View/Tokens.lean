import TreeLens.Proofs.View.Frames
import TreeLens.Proofs.View.Layout

/-!
# Tokens of visible widgets

Printing walks down from the root and skips what is hidden; whether a widget can be seen is
found by walking up. Both read the same tree: going down the children meets the widgets in the
order of their numbers (`WidgetTree.visits_of_holdsFrom`), and the printed tokens are the texts
of the widgets that can be seen, in this order (`WidgetTree.filterMap_visibleToken?`).
-/

namespace TreeLens

/-- The token that a mark stands for, as it is shown; a line break stands for none. -/
def Mark.token? (shown : StyleClass → String → String) : Mark → Option String
  | .lineBreak => none
  | .token _ style text => some (shown style text)

namespace WidgetTree

/-- Going down the children from widgets in a row, a widget before those below it and a left
one before a right one, meets the given widgets in order. -/
inductive Visits (t : WidgetTree) : List Nat → List Nat → Prop
  | nil : Visits t [] []
  | cons {id : Nat} {w : Widget} {ids below after : List Nat} (found : t.get? id = some w)
      (children : Visits t w.children below) (rest : Visits t ids after) :
      Visits t (id :: ids) (id :: below ++ after)

/-- The token of a widget that has a text and can be seen. -/
def visibleToken? (t : WidgetTree) (shown : StyleClass → String → String) (id : Nat) :
    Option String :=
  (t.get? id).bind fun w => if t.isVisible id then w.text.map (shown w.style) else none

end WidgetTree

/-! ## Tokens of elements -/

/-- Content has no text of its own. -/
def Face.Silent (face : Face) : Prop :=
  face.style = .objectContent ∨ face.style = .arrayContent → face.text = none

namespace Element

mutual

/-- The tokens of an element, read off the faces that are not hidden. -/
def tokens (shown : StyleClass → String → String) : Element → List String
  | .mk face children =>
    if face.display = .none then []
    else (face.text.map (shown face.style)).toList ++ tokensAll shown children

/-- The tokens of elements in a row. -/
def tokensAll (shown : StyleClass → String → String) : List Element → List String
  | [] => []
  | e :: rest => e.tokens shown ++ tokensAll shown rest

end

mutual

/-- Depths and line breaks apart, marks are tokens, if no content has a text. -/
theorem filterMap_marks (shown : StyleClass → String → String) :
    ∀ (e : Element) (depth : Nat), (∀ face ∈ e.faces, face.Silent) →
      (e.marks depth).filterMap (Mark.token? shown) = e.tokens shown
  | .mk face children, depth, silent => by
      rw [faces, List.forall_mem_cons] at silent
      obtain ⟨own, others⟩ := silent
      have deeper := filterMap_marksAll shown children (depth + 1) others
      have below := filterMap_marksAll shown children depth others
      rw [marks, tokens]
      split
      · rfl
      · split
        next content =>
          -- Content stands on lines of its own, and a text of its own would be lost.
          rw [own content, List.cons_append, List.filterMap_cons_none rfl, List.filterMap_append,
            deeper]
          simp [Mark.token?]
        next =>
          rw [List.filterMap_append, List.filterMap_append, below]
          cases face.text <;> split <;> simp [Mark.token?]

theorem filterMap_marksAll (shown : StyleClass → String → String) :
    ∀ (es : List Element) (depth : Nat), (∀ face ∈ facesAll es, face.Silent) →
      (marksAll depth es).filterMap (Mark.token? shown) = tokensAll shown es
  | [], _, _ => rfl
  | e :: rest, depth, silent => by
      rw [facesAll, List.forall_mem_append] at silent
      rw [marksAll, tokensAll, List.filterMap_append, filterMap_marks shown e depth silent.1,
        filterMap_marksAll shown rest depth silent.2]

end

end Element

/-! ## Numbers and tokens of widgets -/

namespace WidgetTree

mutual

/-- The widgets of an element are met in the order of their numbers. -/
theorem visits_of_holdsFrom {t : WidgetTree} (parent : Option Nat) (id : Nat) :
    ∀ e : Element, t.HoldsFrom id (e.widgets parent id) →
      ∀ {ids after : List Nat}, t.Visits ids after →
        t.Visits (id :: ids) (List.range' id e.size ++ after)
  | .mk face children, holds, ids, after, rest => by
      rw [Element.widgets] at holds
      rw [Element.size, Nat.add_comm, List.range'_succ]
      exact .cons holds.head (visits_of_holdsFromAll id (id + 1) children holds.tail) rest

theorem visits_of_holdsFromAll {t : WidgetTree} (parent id : Nat) :
    ∀ es : List Element, t.HoldsFrom id (Element.widgetsAll parent id es) →
      t.Visits (Element.numbers id es) (List.range' id (Element.sizeAll es))
  | [], _ => .nil
  | e :: rest, holds => by
      rw [Element.widgetsAll] at holds
      have later := holds.right
      rw [Element.length_widgets] at later
      rw [Element.numbers, Element.sizeAll, ← List.range'_append_1]
      exact visits_of_holdsFrom (some parent) id e holds.left
        (visits_of_holdsFromAll parent (id + e.size) rest later)

end

mutual

/-- Where the parent of an element can be seen, the widgets of the element that can be seen give
its tokens, and else none. -/
theorem filterMap_visibleToken? {t : WidgetTree} (shown : StyleClass → String → String)
    (parent : Option Nat) (id : Nat) (above : ∀ p ∈ parent, p < id ∧ (t.get? p).isSome) :
    ∀ e : Element, t.HoldsFrom id (e.widgets parent id) →
      (List.range' id e.size).filterMap (t.visibleToken? shown) =
        if parent.all t.isVisible then e.tokens shown else []
  | .mk face children, holds => by
      rw [Element.widgets] at holds
      have found : t.get? id = some (face.link parent (Element.numbers (id + 1) children)) :=
        holds.head
      have visible : t.isVisible id = (face.display != .none && parent.all t.isVisible) :=
        isVisible_of_get? found above
      have below := filterMap_visibleToken?_all shown id (id + 1)
        ⟨Nat.lt_succ_self id, by rw [found]; rfl⟩ children holds.tail
      rw [Element.size, Nat.add_comm, List.range'_succ, List.filterMap_cons, below,
        Element.tokens, visibleToken?, found, Option.bind_some, visible]
      -- The widget and those below it are hidden together, by their own display or from above.
      by_cases hidden : face.display = .none
      · simp [hidden]
      · cases parent.all t.isVisible with
        | false => simp
        | true => cases text : face.text <;> simp [hidden, Face.link, text]

theorem filterMap_visibleToken?_all {t : WidgetTree} (shown : StyleClass → String → String)
    (parent id : Nat) (above : parent < id ∧ (t.get? parent).isSome) :
    ∀ es : List Element, t.HoldsFrom id (Element.widgetsAll parent id es) →
      (List.range' id (Element.sizeAll es)).filterMap (t.visibleToken? shown) =
        if t.isVisible parent then Element.tokensAll shown es else []
  | [], _ => by simp [Element.sizeAll, Element.tokensAll]
  | e :: rest, holds => by
      rw [Element.widgetsAll] at holds
      have later := holds.right
      rw [Element.length_widgets] at later
      have first := filterMap_visibleToken? shown (some parent) id (by rintro p ⟨⟩; exact above) e
        holds.left
      have others := filterMap_visibleToken?_all shown parent (id + e.size)
        ⟨by omega, above.2⟩ rest later
      rw [Option.all_some] at first
      rw [Element.sizeAll, ← List.range'_append_1, List.filterMap_append, first, others,
        Element.tokensAll]
      split <;> simp

end

end WidgetTree

/-! ## Shown trees -/

mutual

theorem Element.faces_mapFaces (g : Face → Face) :
    ∀ e : Element, (e.mapFaces g).faces = e.faces.map g
  | .mk face children => by
      rw [mapFaces, faces, faces, List.map_cons, facesAll_mapFacesAll g children]

theorem Element.facesAll_mapFacesAll (g : Face → Face) :
    ∀ es : List Element, facesAll (mapFacesAll g es) = (facesAll es).map g
  | [] => rfl
  | e :: rest => by
      rw [mapFacesAll, facesAll, facesAll, List.map_append, faces_mapFaces g e,
        facesAll_mapFacesAll g rest]

end

theorem TreeView.size_widgets_shown (tree : Node) (isOpen : Nat → Bool) :
    (shown tree isOpen).widgets.size =
      (tree.rootElement.mapFaces (Face.shownAs isOpen)).size := by
  rw [WidgetTree.size, shown, List.size_toArray, Element.length_widgets]

/-- No content is drawn with a text, whatever is open. -/
theorem Node.silent_shownAs {tree : Node} {face : Face} (member : face ∈ tree.rootElement.faces)
    (isOpen : Nat → Bool) : (face.shownAs isOpen).Silent := by
  obtain ⟨id, drawn⟩ := List.getElem?_of_mem member
  intro content
  cases Node.drawn_of_mem_faces member with
  | single style view text =>
      -- What has both a text and a container's part is a leaf or an empty array.
      obtain ⟨node, same⟩ := TreeView.exists_eq_containerFace drawn rfl
      have style_eq : style = (node.containerFace view).style := by rw [← same]; rfl
      have text_eq : some text = (node.containerFace view).text := by rw [← same]; rfl
      have content : style = .objectContent ∨ style = .arrayContent := content
      rw [style_eq] at content
      match node with
      | .leaf value => cases value <;> rcases content with content | content <;> cases content
      | .array [] => rcases content with content | content <;> cases content
      | .array (_ :: _) => cases text_eq
      | .object _ _ _ => cases text_eq
  | root => rfl
  | region => rfl
  | content => rfl
  | group => rfl
  | ellipsis => rcases content with content | content <;> cases content
  | brace => rcases content with content | content <;> cases content
  | glyph => rcases content with content | content <;> cases content
  | title => rcases content with content | content <;> cases content
  | key => rcases content with content | content <;> cases content

/-- Setting tokens out on lines keeps them all, in order. -/
theorem Piece.flatten_lines (shown : StyleClass → String → String) (marks : List Mark) :
    (lines (marks.map (Mark.piece shown))).flatten.map (·.2) =
      marks.filterMap (Mark.token? shown) := by
  induction marks with
  | nil => rfl
  | cons mark rest ih =>
      cases mark with
      | lineBreak =>
          rw [List.filterMap_cons_none rfl]
          exact ih
      | token depth style text =>
          have own : (Mark.token depth style text).token? shown = some (shown style text) := rfl
          rw [List.filterMap_cons_some own, ← ih, List.map_cons, Mark.piece, lines]
          cases lines : lines (rest.map (Mark.piece shown)) with
          | nil => exact absurd lines (lines_ne_nil _)
          | cons head others => rfl

namespace TreeView

/-- The tokens that the printer is given for the plain text of a view, in order. -/
def plainTokens (t : TreeView) : List String :=
  t.marks.filterMap (Mark.token? plainToken)

theorem plainTokens_shown (tree : Node) (isOpen : Nat → Bool) :
    (shown tree isOpen).plainTokens =
      (List.range (shown tree isOpen).widgets.size).filterMap
        ((shown tree isOpen).widgets.visibleToken? plainToken) := by
  have silent : ∀ face ∈ (tree.rootElement.mapFaces (Face.shownAs isOpen)).faces,
      face.Silent := by
    intro face member
    rw [Element.faces_mapFaces] at member
    obtain ⟨drawn, inside, rfl⟩ := List.mem_map.1 member
    exact Node.silent_shownAs inside isOpen
  have seen := WidgetTree.filterMap_visibleToken? plainToken none 0 (by simp)
    (tree.rootElement.mapFaces (Face.shownAs isOpen)) (WidgetTree.HoldsFrom.of_toArray _)
  rw [Option.all_none, if_pos rfl, ← Element.filterMap_marks plainToken _ 0 silent,
    ← marks_shown] at seen
  rw [List.range_eq_range', size_widgets_shown]
  exact seen.symm

/-- **What is printed is what can be seen.** After any toggles and clicks on a fresh render,
going down from the root meets the widgets in the order of their numbers, so that these are
pre-order numbers. The tokens of the plain text, which are set out on lines in this order, are
those of the widgets that have a text and can be seen, by ascending number. -/
theorem plainTokens_performAll_render (tree : Node) (gestures : List Gesture) :
    let t := (render tree).performAll gestures
    t.widgets.Visits [rootWidget] (List.range t.widgets.size) ∧
    t.plainTokens = (List.range t.widgets.size).filterMap (t.widgets.visibleToken? plainToken) ∧
    ∃ lines, t.plainText = Piece.linesText lines ∧ lines.flatten.map (·.2) = t.plainTokens := by
  intro t
  obtain ⟨isOpen, state⟩ : ∃ isOpen, t = shown tree isOpen := ⟨_, performAll_render tree gestures⟩
  rw [state]
  refine ⟨?_, plainTokens_shown tree isOpen, _, Printer.print_eq_text _ _,
    Piece.flatten_lines plainToken _⟩
  have visits := WidgetTree.visits_of_holdsFrom none 0
    (tree.rootElement.mapFaces (Face.shownAs isOpen))
    (WidgetTree.HoldsFrom.of_toArray _) .nil
  rw [List.append_nil] at visits
  rw [List.range_eq_range', size_widgets_shown]
  exact visits

end TreeView

end TreeLens
