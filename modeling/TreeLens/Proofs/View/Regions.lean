import TreeLens.Proofs.Tree.Spans
import TreeLens.Proofs.View.Shown
import TreeLens.View.Hover

/-!
# Hover regions

Only the container of a view is a region, so every region of a shown tree has a node
(`exists_node?_of_mem_hoverChain`). A pointer move leaves some regions from the innermost
outwards and then enters others from the outermost inwards (`hoverViews_eq`).
-/

namespace TreeLens

/-! ## Regions have nodes -/

theorem Face.hover_shownAs (isOpen : Nat → Bool) (face : Face) :
    (face.shownAs isOpen).hover = face.hover := by
  unfold shownAs
  split <;> rfl

/-- Rendering draws no regions but containers. -/
theorem Face.Drawn.part_of_hover {face : Face} {view : Nat} (drawn : face.Drawn)
    (region : face.hover = some view) : face.part = some (view, .container) := by
  cases drawn <;> cases region
  rfl

/-- Parts are drawn only for views of the outline. -/
theorem Node.exists_entry_of_mem_parts {tree : Node} {view : Nat} {part : Part}
    (member : (view, part) ∈ tree.rootElement.faces.filterMap Face.part) :
    ∃ entry, (tree.outline [])[view]? = some entry := by
  rw [tree.parts_rootElement_perm.mem_iff, ← List.count_pos_iff, count_dueParts,
    if_pos (Nat.zero_le view), Nat.sub_zero] at member
  cases found : (tree.outline [])[view]? with
  | none =>
      rw [found] at member
      exact absurd member (Nat.lt_irrefl 0)
  | some entry => exact ⟨entry, rfl⟩

namespace TreeView

/-- The node of a view is the one of its entry in the outline. -/
theorem node?_shown {tree : Node} {i : Nat} {entry : Path × Node}
    (found : (tree.outline [])[i]? = some entry) (isOpen : Nat → Bool) :
    (shown tree isOpen).node? i = some entry.2 := by
  obtain ⟨view, here, source, -⟩ := exists_view_of_getElem?_outline found isOpen
  have resolved : tree.resolve? entry.1 = some entry.2 :=
    Node.resolve?_of_mem_outline (List.mem_of_getElem? found)
  rw [node?, here, Option.bind_some, source]
  exact resolved

/-- A widget that is the region of a view was drawn as the container of this view. -/
theorem exists_face_of_hover {tree : Node} {isOpen : Nat → Bool} {id view : Nat}
    (region : ((shown tree isOpen).widgets.get? id).bind (·.hover) = some view) :
    ∃ face, tree.rootElement.faces[id]? = some face ∧ face.part = some (view, .container) := by
  obtain ⟨found, here, hover⟩ := Option.bind_eq_some_iff.1 region
  cases drawn : tree.rootElement.faces[id]? with
  | none =>
      have missing := getElem?_widgets_shown_none drawn isOpen
      rw [WidgetTree.get?, missing] at here
      cases here
  | some face =>
      obtain ⟨above, below, linked⟩ := getElem?_widgets_shown drawn
      rw [WidgetTree.get?, linked] at here
      obtain rfl := Option.some.inj here
      have own : face.hover = some view := by
        rw [← face.hover_shownAs isOpen]
        exact hover
      exact ⟨face, rfl, (Node.drawn_of_mem_faces (List.mem_of_getElem? drawn)).part_of_hover own⟩

/-- The regions around any widget are those of nodes. -/
theorem exists_node?_of_mem_hoverChain {tree : Node} {isOpen : Nat → Bool}
    {widget : Option Nat} {view : Nat} (member : view ∈ (shown tree isOpen).hoverChain widget) :
    ∃ node, (shown tree isOpen).node? view = some node := by
  cases widget with
  | none => cases member
  | some w =>
      obtain ⟨id, -, region⟩ := List.mem_filterMap.1 member
      obtain ⟨face, drawn, part⟩ := exists_face_of_hover region
      -- The widget is the container of the view, so the view stands in the outline.
      obtain ⟨entry, found⟩ := Node.exists_entry_of_mem_parts
        (List.mem_filterMap.2 ⟨face, List.mem_of_getElem? drawn, part⟩)
      exact ⟨entry.2, node?_shown found isOpen⟩

/-! ## Pointer moves -/

/-- The views whose regions a pointer move enters, innermost first. -/
def enteredViews (t : TreeView) (left entered : Option Nat) : List Nat :=
  (t.hoverChain entered).filter fun v => !(t.hoverChain left).contains v

/-- The views whose regions a pointer move leaves, innermost first. -/
def leftViews (t : TreeView) (left entered : Option Nat) : List Nat :=
  t.enteredViews entered left

/-- The span of the innermost region with a span that a pointer move enters. -/
def enteredSpan? (t : TreeView) (left entered : Option Nat) : Option Span :=
  (t.enteredViews left entered).findSome? fun v => (t.node? v).bind Node.span?

/-- The span of an entered region is one of the tree. -/
theorem of_enteredSpan?_eq_some {t : TreeView} {P : Span → Prop} {left entered : Option Nat}
    {span : Span} (all : t.tree.AllSpans P) (found : t.enteredSpan? left entered = some span) :
    P span := by
  obtain ⟨view, -, found⟩ := List.exists_of_findSome?_eq_some found
  obtain ⟨node, here, has⟩ := Option.bind_eq_some_iff.1 found
  obtain ⟨noted, -, resolved⟩ := Option.bind_eq_some_iff.1 here
  exact all noted.source node span resolved has

theorem hoverViews_eq (t : TreeView) (left entered : Option Nat) :
    t.hoverViews left entered =
      (t.leftViews left entered).map (HoverEvent.exit, ·) ++
        (t.enteredViews left entered).reverse.map (HoverEvent.enter, ·) := by
  rw [hoverViews, leftViews, enteredViews, enteredViews, List.filter_reverse]

end TreeView

end TreeLens
