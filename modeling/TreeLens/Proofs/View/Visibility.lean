import TreeLens.Proofs.View.Frames

/-!
# What closed views hide

Of the faces around the container of a view, only the contents of the views above are ever
hidden, each when its own view is closed (`Node.all_visibleIn_frame`). So a container can be
seen exactly if all views at proper beginnings of its path are open
(`TreeView.isVisible_container_iff`), and the content of a view if that view is open as well
(`TreeView.isVisible_content_iff`).
-/

namespace TreeLens

/-! ## Faces that can be seen -/

/-- Whether a face is displayed when the views for which `isOpen` holds are open. -/
def Face.visibleIn (isOpen : Nat → Bool) (face : Face) : Bool :=
  (face.shownAs isOpen).display != .none

namespace Node

theorem visibleIn_containerFace (isOpen : Nat → Bool) (view : Nat) (n : Node) :
    (n.containerFace view).visibleIn isOpen = true := by
  unfold containerFace
  split <;> rfl

theorem visibleIn_contentFace (isOpen : Nat → Bool) (view : Nat) (n : Node) :
    (n.contentFace view).visibleIn isOpen = isOpen view := by
  unfold contentFace
  cases state : isOpen view <;> split <;> simp [Face.visibleIn, Face.shownAs, Face.content, state]

theorem all_visibleIn_slot (isOpen : Nat → Bool) (n : Node) :
    n.slot.all (Face.visibleIn isOpen) = true := by
  unfold slot
  split <;> rfl

/-- What is around a child of a node can be seen exactly if the node's view is open. -/
theorem all_visibleIn_frame (isOpen : Nat → Bool) (view : Nat) (n : Node) :
    (n.frame view).all (Face.visibleIn isOpen) = isOpen view := by
  simp [frame, all_visibleIn_slot, visibleIn_containerFace, visibleIn_contentFace]

theorem all_visibleIn_framesTo {tree m : Node} {path : Path}
    (resolved : tree.resolve? path = some m) (isOpen : Nat → Bool) :
    (tree.framesTo 0 path).all (Face.visibleIn isOpen) = true ↔
      ∀ above ∈ path.outer, isOpen (tree.rank above) = true := by
  rw [framesTo, List.all_flatMap, List.all_eq_true]
  refine forall₂_congr fun above member => ?_
  obtain ⟨node, reached⟩ := exists_resolve?_of_prefix (Path.mem_outer_iff.1 member).1 resolved
  rw [reached, Option.elim_some, Nat.zero_add, all_visibleIn_frame]

end Node

/-! ## Widgets that can be seen -/

namespace TreeView

open Element (Inside)

variable {tree : Node} {isOpen : Nat → Bool} {i : Nat} {view : View}

/-- A widget of a shown tree can be seen if all faces around it can be seen. -/
theorem isVisible_shown {k : Nat} {own : Face} {children : List Element} {faces : List Face}
    (inside : Inside tree.rootElement k (.mk own children) faces) (isOpen : Nat → Bool) :
    (shown tree isOpen).widgets.isVisible k = (own :: faces).all (Face.visibleIn isOpen) := by
  have shownInside := inside.mapFaces (Face.shownAs isOpen)
  rw [Element.mapFaces] at shownInside
  have seen := WidgetTree.isVisible_of_holdsFrom shownInside none 0 (by simp)
    (WidgetTree.HoldsFrom.of_toArray _)
  rw [Nat.zero_add, Option.all_none, Bool.and_true, ← List.map_cons, List.all_map] at seen
  exact seen

theorem isVisible_container_iff (found : (shown tree isOpen).views[i]? = some view) :
    ∃ id, view.container = some id ∧ ((shown tree isOpen).widgets.isVisible id = true ↔
      ∀ above ∈ view.source.outer, isOpen (tree.rank above) = true) := by
  obtain ⟨node, k, children, resolved, container, inside⟩ := exists_container_shown found
  refine ⟨k, container, ?_⟩
  rw [isVisible_shown inside, List.all_cons, Node.visibleIn_containerFace, Bool.true_and,
    List.all_append, Bool.and_eq_true, Node.all_visibleIn_framesTo resolved]
  exact and_iff_left rfl

theorem isVisible_content_iff (found : (shown tree isOpen).views[i]? = some view)
    (expandable : view.kind.isExpandable = true) :
    ∃ id, view.content = some id ∧ ((shown tree isOpen).widgets.isVisible id = true ↔
      isOpen i = true ∧ ∀ above ∈ view.source.outer, isOpen (tree.rank above) = true) := by
  obtain ⟨node, k, children, resolved, content, inside⟩ := exists_content_shown found expandable
  refine ⟨k, content, ?_⟩
  rw [isVisible_shown inside, List.all_cons, Node.visibleIn_contentFace, List.all_cons,
    Node.visibleIn_containerFace, Bool.true_and, List.all_append, Bool.and_eq_true,
    Bool.and_eq_true, Node.all_visibleIn_framesTo resolved]
  exact and_congr_right fun _ => and_iff_left rfl

/-! ## States of views by path -/

/-- All views at some paths to nodes are open if the ranks of the paths are those of open
views. -/
theorem forall_isOpen_iff (paths : Path → Prop)
    (reach : ∀ path, paths path → ∃ node, tree.resolve? path = some node) :
    (∀ above ∈ (shown tree isOpen).views, paths above.source → above.isOpen = true) ↔
      ∀ path, paths path → isOpen (tree.rank path) = true := by
  constructor
  · intro opened path member
    obtain ⟨node, resolved⟩ := reach path member
    obtain ⟨above, there, source, state⟩ :=
      exists_view_of_getElem?_outline (Node.getElem?_outline_rank resolved []) isOpen
    have source : above.source = path := source
    rw [← state]
    exact opened above (Array.mem_of_getElem? there) (source ▸ member)
  · intro opened above member inside
    obtain ⟨j, there⟩ := Array.getElem?_of_mem member
    obtain ⟨node, -, -, ranked⟩ := exists_node_of_getElem?_shown there
    rw [isOpen_shown there, ← ranked]
    exact opened above.source inside

/-- A toggle flips the state of its own view and of no other. -/
theorem isOpen?_of_toggle? {next : TreeView} (toggled : (shown tree isOpen).toggle? i = some next)
    (j : Nat) :
    next.isOpen? j =
      if j = i then ((shown tree isOpen).isOpen? j).map not else (shown tree isOpen).isOpen? j := by
  rw [toggle?_shown] at toggled
  split at toggled
  · obtain rfl := Option.some.inj toggled
    rw [isOpen?, isOpen?, getElem?_views_shown, getElem?_views_shown]
    by_cases own : j = i
    · subst own
      simp [Function.comp_def]
    · simp [own]
  · cases toggled

/-- **Closing a view hides what is inside and nothing else.** After any toggles and clicks on
a fresh render, the container of a view can be seen exactly if all views at proper beginnings
of its path are open, and the content of a view that can be toggled exactly if that view is
open as well. A toggle flips its own view and leaves the state of every other one as it is. -/
theorem visible_performAll_render (tree : Node) (gestures : List Gesture) :
    let t := (render tree).performAll gestures
    (∀ view ∈ t.views,
      (∃ id, view.container = some id ∧ (t.widgets.isVisible id = true ↔
        ∀ above ∈ t.views, above.source <+: view.source ∧ above.source ≠ view.source →
          above.isOpen = true)) ∧
      (view.kind.isExpandable = true →
        ∃ id, view.content = some id ∧ (t.widgets.isVisible id = true ↔
          ∀ above ∈ t.views, above.source <+: view.source → above.isOpen = true))) ∧
    ∀ (i : Nat) (next : TreeView), t.toggle? i = some next →
      ∀ j, next.isOpen? j = if j = i then (t.isOpen? j).map not else t.isOpen? j := by
  intro t
  obtain ⟨isOpen, state⟩ : ∃ isOpen, t = shown tree isOpen := ⟨_, performAll_render tree gestures⟩
  rw [state]
  refine ⟨?_, fun i next toggled => isOpen?_of_toggle? toggled⟩
  intro view member
  obtain ⟨i, found⟩ := Array.getElem?_of_mem member
  obtain ⟨node, resolved, -, ranked⟩ := exists_node_of_getElem?_shown found
  refine ⟨?_, ?_⟩
  · obtain ⟨id, container, visible⟩ := isVisible_container_iff found
    simp only [Path.mem_outer_iff] at visible
    have reach : ∀ path, path <+: view.source ∧ path ≠ view.source →
        ∃ node, tree.resolve? path = some node :=
      fun path proper => Node.exists_resolve?_of_prefix proper.1 resolved
    exact ⟨id, container, visible.trans (forall_isOpen_iff _ reach).symm⟩
  · intro expandable
    obtain ⟨id, content, visible⟩ := isVisible_content_iff found expandable
    have reach : ∀ path, path <+: view.source → ∃ node, tree.resolve? path = some node :=
      fun path begins => Node.exists_resolve?_of_prefix begins resolved
    refine ⟨id, content, visible.trans (Iff.trans ?_ (forall_isOpen_iff _ reach).symm)⟩
    simp only [Path.mem_outer_iff]
    constructor
    · rintro ⟨own, others⟩ path begins
      by_cases same : path = view.source
      · rw [same, ranked]
        exact own
      · exact others path ⟨begins, same⟩
    · intro all
      refine ⟨?_, fun path proper => all path proper.1⟩
      rw [← ranked]
      exact all view.source (List.prefix_refl _)

/-- A closed array in a closed named object: it cannot be seen, and it is still closed after
the object is opened again. -/
theorem visible_performAll_render_closed :
    let tree : Node := .object none [("a", .object (some "N") [("b", .array [.null])] none)] none
    let t := (render tree).performAll [.toggle 2, .toggle 1]
    let outer : View :=
      { kind := .namedObject, isOpen := false, container := some 8, content := some 14,
        ellipsis := some 13, glyph := some 10, braces := [12, 25], source := [.field 0] }
    let inner : View :=
      { kind := .array, isOpen := false, container := some 19, content := some 21,
        ellipsis := some 20, glyph := none, braces := [18, 24], source := [.field 0, .field 0] }
    outer ∈ t.views ∧ inner ∈ t.views ∧ t.widgets.isVisible 14 = false ∧
      t.widgets.isVisible 19 = false ∧
      ∃ next, t.toggle? 1 = some next ∧ next.isOpen? 1 = some true ∧
        next.isOpen? 2 = some false := by
  intro tree t outer inner
  have outerThere : outer ∈ t.views := Array.mem_of_getElem? (show t.views[1]? = _ by decide)
  have innerThere : inner ∈ t.views := Array.mem_of_getElem? (show t.views[2]? = _ by decide)
  obtain ⟨views, toggles⟩ := visible_performAll_render tree [.toggle 2, .toggle 1]
  refine ⟨outerThere, innerThere, ?_, ?_, ?_⟩
  · obtain ⟨id, ⟨⟩, visible⟩ := (views outer outerThere).2 rfl
    rw [← Bool.not_eq_true, visible]
    intro opened
    exact absurd (opened outer outerThere (List.prefix_refl _)) (by decide)
  · obtain ⟨⟨id, ⟨⟩, visible⟩, -⟩ := views inner innerThere
    rw [← Bool.not_eq_true, visible]
    intro opened
    exact absurd (opened outer outerThere (by decide)) (by decide)
  · obtain ⟨next, toggled⟩ := Option.isSome_iff_exists.1 (show (t.toggle? 1).isSome by decide)
    refine ⟨next, toggled, ?_, ?_⟩
    · rw [toggles 1 next toggled 1]
      decide
    · rw [toggles 1 next toggled 2]
      decide

end TreeView

end TreeLens
