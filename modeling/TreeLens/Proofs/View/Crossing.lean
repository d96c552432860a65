import TreeLens.Proofs.View.Frames
import TreeLens.Proofs.View.Nesting

/-!
# Crossings by path

Regions are the containers of nodes that can be opened, so the regions around the container of
a view are those of the nodes at the beginnings of its path (`TreeView.hoverChain_shown_at`).
The events of a pointer move between two containers can therefore be told from the two paths
alone (`TreeView.pointerMoved_performAll_render`).
-/

namespace TreeLens

/-- The beginnings of a path, longest first and the path itself included; where there is no path
there are no beginnings. -/
def Path.beginnings (path : Option Path) : List Path :=
  path.elim [] fun p => p.inits.reverse

namespace Node

/-- The node at a path, if it can be opened. -/
def expandableAt? (tree : Node) (path : Path) : Option Node :=
  (tree.resolve? path).filter Node.isExpandable

/-- The nodes that can be opened at those beginnings of a path that are no beginnings of another
one, longest first. -/
def branch (tree : Node) (path other : Option Path) : List Node :=
  ((Path.beginnings path).filter (· ∉ Path.beginnings other)).filterMap tree.expandableAt?

/-! ## Regions by path -/

/-- The number of the view whose region is the container of the node at a path. -/
def regionAt? (tree : Node) (path : Path) : Option Nat :=
  (tree.expandableAt? path).map fun _ => tree.rank path

theorem eq_of_regionAt?_eq {tree : Node} {path other : Path} {view : Nat}
    (one : tree.regionAt? path = some view) (two : tree.regionAt? other = some view) :
    path = other := by
  obtain ⟨node, here, rfl⟩ := Option.map_eq_some_iff.1 one
  obtain ⟨node', there, same⟩ := Option.map_eq_some_iff.1 two
  exact eq_of_rank_eq (Option.filter_eq_some_iff.1 here).1 (Option.filter_eq_some_iff.1 there).1
    same.symm

theorem hover_containerFace (view : Nat) (n : Node) :
    (n.containerFace view).hover = if n.isExpandable then some view else none := by
  unfold containerFace
  split <;> rfl

theorem filterMap_hover_frame (view : Nat) (n : Node) :
    (n.frame view).filterMap Face.hover = (n.containerFace view).hover.toList := by
  have slot : n.slot.filterMap Face.hover = [] := by
    unfold slot
    split <;> rfl
  have content : (n.contentFace view).hover = none := by
    unfold contentFace
    split <;> rfl
  rw [frame, List.filterMap_append, slot, List.nil_append, List.filterMap_cons_none content]
  cases hover : (n.containerFace view).hover <;> simp [hover]

theorem hover_containerFace_rank {tree n : Node} {path : Path}
    (resolved : tree.resolve? path = some n) :
    (n.containerFace (tree.rank path)).hover = tree.regionAt? path := by
  rw [hover_containerFace, regionAt?, expandableAt?, resolved, Option.filter_some]
  cases n.isExpandable <;> rfl

/-- The regions in the frames above a node are those at the proper beginnings of its path. -/
theorem filterMap_hover_framesTo {tree m : Node} {path : Path}
    (resolved : tree.resolve? path = some m) :
    (tree.framesTo 0 path).filterMap Face.hover = path.outer.filterMap tree.regionAt? := by
  rw [framesTo, List.filterMap_flatMap, List.filterMap_eq_flatMap_toList]
  refine List.flatMap_congr fun above member => ?_
  obtain ⟨node, reached⟩ := exists_resolve?_of_prefix (Path.mem_outer_iff.1 member).1 resolved
  rw [reached, Option.elim_some, Nat.zero_add, filterMap_hover_frame,
    hover_containerFace_rank reached]

end Node

namespace TreeView

/-- A position of the pointer with the path of the node whose view has its container there;
outside there is neither. -/
inductive At (t : TreeView) : Option Nat → Option Path → Prop
  | outside : At t none none
  | container {view : View} {id : Nat} (member : view ∈ t.views)
      (container : view.container = some id) : At t (some id) (some view.source)

variable {tree : Node} {isOpen : Nat → Bool} {left entered : Option Nat} {p q : Option Path}

theorem hoverChain_shown_at (here : (shown tree isOpen).At left p) :
    (shown tree isOpen).hoverChain left = (Path.beginnings p).filterMap tree.regionAt? := by
  rw [hoverChain_shown]
  cases here with
  | outside => rfl
  | @container view id member container =>
      obtain ⟨i, found⟩ := Array.getElem?_of_mem member
      obtain ⟨node, k, children, resolved, noted, inside⟩ := exists_container_shown found
      obtain ⟨-, -, -, ranked⟩ := exists_node_of_getElem?_shown found
      obtain rfl : k = id := Option.some.inj (noted.symm.trans container)
      -- The root element is no region; all other faces belong to the path.
      have own := Node.hover_containerFace_rank resolved
      rw [ranked] at own
      show tree.rootElement.regionsAt k = view.source.inits.reverse.filterMap tree.regionAt?
      rw [inside.regionsAt_eq, Path.reverse_inits, List.filterMap_cons, List.filterMap_cons, own,
        List.filterMap_append, Node.filterMap_hover_framesTo resolved,
        List.filterMap_cons_none rfl, List.filterMap_nil, List.append_nil]

/-! ## Moves between containers -/

/-- A move enters the regions at the beginnings of the new path that are none of the old one. -/
theorem enteredViews_shown_at (before : (shown tree isOpen).At left p)
    (after : (shown tree isOpen).At entered q) :
    (shown tree isOpen).enteredViews left entered =
      ((Path.beginnings q).filter (· ∉ Path.beginnings p)).filterMap tree.regionAt? := by
  rw [enteredViews, hoverChain_shown_at before, hoverChain_shown_at after, List.filter_filterMap,
    List.filterMap_filter]
  refine List.filterMap_congr fun path _ => ?_
  cases region : tree.regionAt? path with
  | none => simp
  | some view =>
      -- Views and paths of regions correspond, so it does not matter which are compared.
      by_cases member : path ∈ Path.beginnings p
      · have also : view ∈ (Path.beginnings p).filterMap tree.regionAt? :=
          List.mem_filterMap.2 ⟨path, member, region⟩
        rw [Option.filter_some, List.contains_eq_mem, decide_eq_true also]
        simp [member]
      · have apart : view ∉ (Path.beginnings p).filterMap tree.regionAt? := by
          intro inside
          obtain ⟨other, begins, also⟩ := List.mem_filterMap.1 inside
          rw [Node.eq_of_regionAt?_eq region also] at member
          exact member begins
        rw [Option.filter_some, List.contains_eq_mem, decide_eq_false apart]
        simp [member]

theorem pointerMoved_eq (t : TreeView) (left entered : Option Nat) :
    t.pointerMoved left entered =
      ((t.leftViews left entered).filterMap t.node?).map (HoverEvent.exit, ·) ++
        ((t.enteredViews left entered).filterMap t.node?).reverse.map (HoverEvent.enter, ·) := by
  rw [pointerMoved, hoverViews_eq, List.filterMap_append, List.filterMap_map, List.filterMap_map,
    ← List.filterMap_reverse, List.map_filterMap, List.map_filterMap]
  rfl

theorem node?_regionAt? (tree : Node) (isOpen : Nat → Bool) (path : Path) :
    (tree.regionAt? path).bind (shown tree isOpen).node? = tree.expandableAt? path := by
  rw [Node.regionAt?]
  cases found : tree.expandableAt? path with
  | none => rfl
  | some node =>
      obtain ⟨resolved, -⟩ := Option.filter_eq_some_iff.1 found
      exact node?_shown (Node.getElem?_outline_rank resolved []) isOpen

/-- **Pointer moves follow the paths of nodes.** After any toggles and clicks on a fresh render,
a move between the containers of two views, or between one and the outside, leaves the nodes
that can be opened at the beginnings of the old path that are no beginnings of the new one,
longest first, and then enters those at the beginnings of the new path that are no beginnings
of the old one, shortest first. -/
theorem pointerMoved_performAll_render (tree : Node) (gestures : List Gesture) :
    let t := (render tree).performAll gestures
    ∀ {left entered : Option Nat} {p q : Option Path}, t.At left p → t.At entered q →
      t.pointerMoved left entered =
        (tree.branch p q).map (HoverEvent.exit, ·) ++
          (tree.branch q p).reverse.map (HoverEvent.enter, ·) := by
  intro t left entered p q before after
  obtain ⟨isOpen, state⟩ : ∃ isOpen, t = shown tree isOpen := ⟨_, performAll_render tree gestures⟩
  rw [state] at before after ⊢
  have branches : ∀ {left entered : Option Nat} {p q : Option Path},
      (shown tree isOpen).At left p → (shown tree isOpen).At entered q →
      ((shown tree isOpen).enteredViews left entered).filterMap (shown tree isOpen).node? =
        tree.branch q p := by
    intro left entered p q before after
    rw [enteredViews_shown_at before after, List.filterMap_filterMap, Node.branch]
    exact List.filterMap_congr fun path _ => node?_regionAt? tree isOpen path
  rw [pointerMoved_eq, leftViews, branches before after, branches after before]

/-- From a leaf deep inside a closed object to an empty array beside it, which is no region: only
the object and the array around the leaf are left. -/
theorem pointerMoved_performAll_render_beside :
    let items : Node := .array [.null]
    let call : Node := .object (some "N") [("b", items)] none
    let tree : Node := .object none [("a", call), ("c", .array [])] none
    let t := (render tree).performAll [.toggle 1]
    t.At (some 23) (some [.field 0, .field 0, .item 0]) ∧ t.At (some 29) (some [.field 1]) ∧
      t.pointerMoved (some 23) (some 29) = [(.exit, items), (.exit, call)] ∧
      t.pointerMoved none (some 23) = [(.enter, tree), (.enter, call), (.enter, items)] := by
  intro items call tree t
  have leaf : t.views[3]? = some
      { kind := .primitive, isOpen := true, container := some 23, content := none,
        ellipsis := none, glyph := none, braces := [],
        source := [.field 0, .field 0, .item 0] } := by decide
  have empty : t.views[4]? = some
      { kind := .emptyArray, isOpen := true, container := some 29, content := none,
        ellipsis := none, glyph := none, braces := [], source := [.field 1] } := by decide
  have before : t.At (some 23) (some [.field 0, .field 0, .item 0]) :=
    .container (Array.mem_of_getElem? leaf) rfl
  have after : t.At (some 29) (some [.field 1]) := .container (Array.mem_of_getElem? empty) rfl
  refine ⟨before, after, ?_, ?_⟩
  · exact pointerMoved_performAll_render tree [.toggle 1] before after
  · exact pointerMoved_performAll_render tree [.toggle 1] .outside before

end TreeView

end TreeLens
