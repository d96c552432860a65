import Mathlib.Data.List.Basic
import TreeLens.Proofs.View.Regions
import TreeLens.Proofs.Widget.Ancestors

/-!
# Nesting of hover regions

The regions around two positions share an outer part and nothing else, because every region
is one widget (`exists_fork_regionsAround`). So a pointer move takes the regions that it
leaves off a stack and puts the entered ones on it (`stacks_hoverViews`), and over a whole
run, with views opened and closed in between, the stack holds the regions around the
pointer (`PointerRun.Balanced.run`).
-/

namespace TreeLens

/-! ## Stacks -/

/-- Hover events lead from one stack to another: entering puts something on the stack, and
what is left is on top and is taken off. -/
inductive HoverEvent.Stacks {α : Type} : List α → List (HoverEvent × α) → List α → Prop
  | done (stack : List α) : Stacks stack [] stack
  | enter {a : α} {stack last : List α} {rest : List (HoverEvent × α)}
      (later : Stacks (a :: stack) rest last) : Stacks stack ((.enter, a) :: rest) last
  | exit {a : α} {stack last : List α} {rest : List (HoverEvent × α)}
      (later : Stacks stack rest last) : Stacks (a :: stack) ((.exit, a) :: rest) last

namespace HoverEvent.Stacks

variable {α β : Type} {first middle last : List α} {events more : List (HoverEvent × α)}

theorem append (one : Stacks first events middle) (two : Stacks middle more last) :
    Stacks first (events ++ more) last := by
  induction one with
  | done stack => exact two
  | enter _ ih => exact .enter (ih two)
  | exit _ ih => exact .exit (ih two)

theorem map (f : α → β) (one : Stacks first events last) :
    Stacks (first.map f) (events.map fun e => (e.1, f e.2)) (last.map f) := by
  induction one with
  | done stack => exact .done _
  | enter _ ih => exact .enter ih
  | exit _ ih => exact .exit ih

theorem exits (front stack : List α) :
    Stacks (front ++ stack) (front.map (HoverEvent.exit, ·)) stack := by
  induction front with
  | nil => exact .done stack
  | cons a rest ih => exact .exit ih

theorem enters (front stack : List α) :
    Stacks stack (front.reverse.map (HoverEvent.enter, ·)) (front ++ stack) := by
  induction front with
  | nil => exact .done stack
  | cons a rest ih =>
      rw [List.reverse_cons, List.map_append]
      exact ih.append (.enter (.done _))

end HoverEvent.Stacks

open HoverEvent (Stacks)

/-! ## Regions of a drawn tree -/

/-- The views whose regions hold a position, innermost first, by the nesting of what is
drawn for a tree. -/
def Node.regionsAround (tree : Node) : Option Nat → List Nat
  | none => []
  | some widget => tree.rootElement.regionsAt widget

theorem Element.regionsAtAll_eq_nil (es : List Element) {k : Nat} (outside : sizeAll es ≤ k) :
    regionsAtAll es k = [] := by
  induction es generalizing k with
  | nil => rfl
  | cons e rest ih =>
      rw [sizeAll] at outside
      rw [regionsAtAll, if_neg (by omega)]
      exact ih (by omega)

/-- The outermost element is no region, so nothing is drawn around a number without a
widget. -/
theorem Node.regionsAt_rootElement_eq_nil (tree : Node) {widget : Nat}
    (outside : tree.rootElement.size ≤ widget) : tree.rootElement.regionsAt widget = [] := by
  rw [rootElement, Element.size] at outside
  obtain ⟨k, rfl⟩ := Nat.exists_eq_add_of_le' outside
  rw [rootElement, show k + (1 + Element.sizeAll [tree.element 0 true]) =
      k + Element.sizeAll [tree.element 0 true] + 1 by omega, Element.regionsAt,
    Element.regionsAtAll_eq_nil _ (Nat.le_add_left ..)]
  rfl

namespace TreeView

/-- Walking up from a widget meets the regions that are drawn around it. -/
theorem hoverChain_shown (tree : Node) (isOpen : Nat → Bool) (position : Option Nat) :
    (shown tree isOpen).hoverChain position = tree.regionsAround position := by
  cases position with
  | none => rfl
  | some widget =>
      show (shown tree isOpen).widgets.regions widget = tree.rootElement.regionsAt widget
      by_cases inside : widget < tree.rootElement.size
      · have chain := WidgetTree.regions_of_holdsFrom none 0 (by simp)
          (tree.rootElement.mapFaces (Face.shownAs isOpen)) widget
          (WidgetTree.HoldsFrom.of_toArray _) (by rwa [Element.size_mapFaces])
        rw [Nat.zero_add, Option.elim_none, List.append_nil,
          Element.regionsAt_mapFaces (Face.hover_shownAs isOpen)] at chain
        exact chain
      · have missing : tree.rootElement.faces[widget]? = none := by
          rw [List.getElem?_eq_none_iff, Element.length_faces]
          omega
        have gone : (shown tree isOpen).widgets.get? widget = none :=
          getElem?_widgets_shown_none missing isOpen
        rw [tree.regionsAt_rootElement_eq_nil (by omega), WidgetTree.regions,
          WidgetTree.ancestors, gone]
        rfl

/-- A view has one region: its container. -/
theorem eq_of_region? {tree : Node} {isOpen : Nat → Bool} {a b view : Nat}
    (one : (shown tree isOpen).widgets.region? a = some view)
    (two : (shown tree isOpen).widgets.region? b = some view) : a = b := by
  obtain ⟨face, drawn, part⟩ := exists_face_of_hover one
  obtain ⟨entry, found⟩ := Node.exists_entry_of_mem_parts
    (List.mem_filterMap.2 ⟨face, List.mem_of_getElem? drawn, part⟩)
  obtain ⟨noted, here, -⟩ := exists_view_of_getElem?_outline found isOpen
  obtain ⟨rendered, original, -⟩ := exists_rendered_of_getElem?_shown here
  have first : a ∈ rendered.container.toList := (mem_ids_iff original).2 ⟨face, drawn, part⟩
  have second : b ∈ rendered.container.toList := (mem_ids_iff original).2 (exists_face_of_hover two)
  rw [Option.mem_toList] at first second
  exact Option.some.inj (first.symm.trans second)

/-- Widgets that are no ancestors of a widget are not its regions either. -/
theorem not_mem_regions {tree : Node} {isOpen : Nat → Bool} {ids : List Nat} {widget : Nat}
    (apart : ∀ id ∈ ids, id ∉ (shown tree isOpen).widgets.ancestors widget) :
    ∀ view ∈ ids.filterMap (shown tree isOpen).widgets.region?,
      view ∉ (shown tree isOpen).widgets.regions widget := by
  intro view inside again
  obtain ⟨id, member, region⟩ := List.mem_filterMap.1 inside
  obtain ⟨ancestor, above, same⟩ := List.mem_filterMap.1 again
  obtain rfl := eq_of_region? region same
  exact apart id member above

/-- The regions around two positions are different on the inside and then the same. -/
theorem exists_fork_regionsAround (tree : Node) (position other : Option Nat) :
    ∃ front back common, tree.regionsAround position = front ++ common ∧
      tree.regionsAround other = back ++ common ∧
      (∀ view ∈ front, view ∉ tree.regionsAround other) ∧
      ∀ view ∈ back, view ∉ tree.regionsAround position := by
  cases position with
  | none =>
      exact ⟨[], tree.regionsAround other, [], rfl, by simp, by simp, by simp [Node.regionsAround]⟩
  | some a =>
      cases other with
      | none =>
          exact ⟨tree.regionsAround (some a), [], [], by simp, rfl, by simp [Node.regionsAround],
            by simp⟩
      | some b =>
          have chain : ∀ w, tree.regionsAround (some w) = (render tree).widgets.regions w := by
            intro w
            rw [render_eq_shown, ← hoverChain_shown tree fun _ => true]
            rfl
          obtain ⟨front, back, common, left, right, leftOnly, rightOnly⟩ :=
            (render tree).widgets.exists_fork a b
          refine ⟨front.filterMap (render tree).widgets.region?,
            back.filterMap (render tree).widgets.region?,
            common.filterMap (render tree).widgets.region?, ?_, ?_, ?_, ?_⟩
          · rw [chain, WidgetTree.regions, left, List.filterMap_append]
          · rw [chain, WidgetTree.regions, right, List.filterMap_append]
          · rw [chain]
            rw [render_eq_shown] at leftOnly ⊢
            exact not_mem_regions leftOnly
          · rw [chain]
            rw [render_eq_shown] at rightOnly ⊢
            exact not_mem_regions rightOnly

/-! ## Pointer moves -/

/-- What a move leaves and enters are the parts before the fork. -/
theorem enteredViews_shown {tree : Node} {isOpen : Nat → Bool} {left entered : Option Nat}
    {front back common : List Nat} (before : tree.regionsAround left = front ++ common)
    (after : tree.regionsAround entered = back ++ common)
    (apart : ∀ view ∈ back, view ∉ tree.regionsAround left) :
    (shown tree isOpen).enteredViews left entered = back := by
  rw [enteredViews, hoverChain_shown, hoverChain_shown, after, List.filter_append,
    List.filter_eq_self.2 (by simpa using apart), List.filter_eq_nil_iff.2 ?_, List.append_nil]
  intro view inside
  simp [before, inside]

/-- A move takes the regions around the old position off the stack, as far as they are left,
and puts the entered ones on it. -/
theorem stacks_hoverViews (tree : Node) (isOpen : Nat → Bool) (left entered : Option Nat) :
    Stacks (tree.regionsAround left) ((shown tree isOpen).hoverViews left entered)
      (tree.regionsAround entered) := by
  obtain ⟨front, back, common, before, after, leftOnly, enteredOnly⟩ :=
    exists_fork_regionsAround tree left entered
  rw [hoverViews_eq, leftViews, enteredViews_shown after before leftOnly,
    enteredViews_shown before after enteredOnly, before, after]
  exact (Stacks.exits front common).append (Stacks.enters back common)

theorem node?_shown_eq (tree : Node) (isOpen : Nat → Bool) (view : Nat) :
    (shown tree isOpen).node? view = (render tree).node? view := by
  rw [node?, node?, getElem?_views_shown]
  cases (render tree).views[view]? <;> rfl

/-- The regions around a position have nodes. -/
theorem exists_node?_of_mem_regionsAround {tree : Node} {position : Option Nat} {view : Nat}
    (member : view ∈ tree.regionsAround position) :
    ∃ node, (render tree).node? view = some node := by
  rw [← hoverChain_shown tree fun _ => true] at member
  obtain ⟨node, found⟩ := exists_node?_of_mem_hoverChain member
  exact ⟨node, by rw [← found, node?_shown_eq]⟩

/-- No event of a move is dropped: all crossed regions have nodes. -/
theorem map_pointerMoved (tree : Node) (isOpen : Nat → Bool) (left entered : Option Nat) :
    ((shown tree isOpen).pointerMoved left entered).map (fun e => (e.1, some e.2)) =
      ((shown tree isOpen).hoverViews left entered).map
        fun e => (e.1, (render tree).node? e.2) := by
  have nodes : ∀ e ∈ (shown tree isOpen).hoverViews left entered,
      ∃ node, (render tree).node? e.2 = some node := by
    intro e crossed
    rw [hoverViews_eq, leftViews, enteredViews, enteredViews, hoverChain_shown,
      hoverChain_shown] at crossed
    rcases List.mem_append.1 crossed with left | entered
    · obtain ⟨view, member, rfl⟩ := List.mem_map.1 left
      exact exists_node?_of_mem_regionsAround (List.mem_filter.1 member).1
    · obtain ⟨view, member, rfl⟩ := List.mem_map.1 entered
      exact exists_node?_of_mem_regionsAround
        (List.mem_filter.1 (List.mem_reverse.1 member)).1
  rw [pointerMoved, List.map_filterMap, List.filterMap_eq_map_iff_forall_eq_some]
  intro e crossed
  obtain ⟨node, found⟩ := nodes e crossed
  rw [node?_shown_eq, found]
  rfl

end TreeView

/-! ## Runs of a pointer -/

/-- What happens to a shown tree under a pointer. -/
inductive PointerStep where
  | perform (gesture : TreeView.Gesture)
  | move (entered : Option Nat)
deriving DecidableEq, Repr

/-- A shown tree, where the pointer is, and what the pointer did so far: the views whose
regions it crossed, and the events with nodes that were passed on. -/
structure PointerRun where
  view : TreeView
  position : Option Nat
  crossings : List (HoverEvent × Nat)
  events : List (HoverEvent × Node)

namespace PointerRun

/-- A tree that was just rendered, with the pointer outside. -/
def start (tree : Node) : PointerRun :=
  ⟨.render tree, none, [], []⟩

def step (r : PointerRun) : PointerStep → PointerRun
  | .perform gesture => { r with view := r.view.perform gesture }
  | .move entered =>
    { r with
      position := entered
      crossings := r.crossings ++ r.view.hoverViews r.position entered
      events := r.events ++ r.view.pointerMoved r.position entered }

def run (r : PointerRun) (steps : List PointerStep) : PointerRun :=
  steps.foldl step r

/-- The crossings so far lead from nothing to the regions around the pointer, and each was
passed on with its node. -/
structure Balanced (tree : Node) (r : PointerRun) : Prop where
  drawn : ∃ isOpen, r.view = TreeView.shown tree isOpen
  nested : Stacks [] r.crossings (tree.regionsAround r.position)
  resolved : r.events.map (fun e => (e.1, some e.2)) =
    r.crossings.map fun e => (e.1, (TreeView.render tree).node? e.2)

theorem Balanced.start (tree : Node) : (start tree).Balanced tree where
  drawn := ⟨fun _ => true, TreeView.render_eq_shown tree⟩
  nested := .done []
  resolved := rfl

theorem Balanced.step {tree : Node} {r : PointerRun} (balanced : r.Balanced tree)
    (s : PointerStep) : (r.step s).Balanced tree := by
  obtain ⟨isOpen, drawn⟩ := balanced.drawn
  cases s with
  | perform gesture =>
      have performed := TreeView.perform_shown tree isOpen gesture
      rw [← drawn] at performed
      exact ⟨⟨_, performed⟩, balanced.nested, balanced.resolved⟩
  | move entered =>
      refine ⟨⟨isOpen, drawn⟩, ?_, ?_⟩
      · rw [PointerRun.step, drawn]
        exact balanced.nested.append (TreeView.stacks_hoverViews tree isOpen r.position entered)
      · rw [PointerRun.step, drawn]
        simp only [List.map_append, balanced.resolved, TreeView.map_pointerMoved]

theorem Balanced.run {tree : Node} {r : PointerRun} (balanced : r.Balanced tree)
    (steps : List PointerStep) : (r.run steps).Balanced tree := by
  induction steps generalizing r with
  | nil => exact balanced
  | cons s rest ih => exact ih (balanced.step s)

/-- **Hovering is properly nested.** Whatever moves a pointer makes over a rendered tree,
to widgets that exist or not, and whatever views are opened and closed in between: all
crossed regions have nodes and are passed on; every region that is left is on top of the
stack of the entered ones; and at the end the stack, read from the top, holds the regions
drawn around the pointer, from the innermost to the outermost. -/
theorem stacks_run_start (tree : Node) (steps : List PointerStep) :
    let r := (start tree).run steps
    Stacks [] r.crossings (tree.regionsAround r.position) ∧
      r.crossings.map (fun e => (e.1, r.view.node? e.2)) =
        r.events.map (fun e => (e.1, some e.2)) ∧
      ∃ nodes, (tree.regionsAround r.position).map r.view.node? = nodes.map some ∧
        Stacks [] r.events nodes := by
  intro r
  have balanced : r.Balanced tree := (Balanced.start tree).run steps
  obtain ⟨isOpen, drawn⟩ := balanced.drawn
  have node? : r.view.node? = (TreeView.render tree).node? := by
    rw [drawn]
    exact funext (TreeView.node?_shown_eq tree isOpen)
  refine ⟨balanced.nested, by rw [node?, balanced.resolved], ?_⟩
  -- The nodes of the stack, and of the events, are those of the views.
  let nodeOf (view : Nat) : Node := ((TreeView.render tree).node? view).getD .null
  refine ⟨(tree.regionsAround r.position).map nodeOf, ?_, ?_⟩
  · rw [node?, List.map_map]
    refine List.map_congr_left fun view member => ?_
    obtain ⟨node, found⟩ := TreeView.exists_node?_of_mem_regionsAround member
    simp [nodeOf, found]
  · have events : r.events = r.crossings.map fun e => (e.1, nodeOf e.2) := by
      have same := congrArg (List.map fun e => (e.1, e.2.getD Node.null)) balanced.resolved
      simpa [Function.comp_def] using same
    rw [events]
    exact balanced.nested.map nodeOf

/-- From an object in a field over the brace that the field draws into an array beside it,
and away: the brace is outside the object's region. -/
example :
    let tree : Node := .object none [("a", .object none [] none), ("b", .array [.null])] none
    ((start tree).run [.move (some 9), .perform (.toggle 1), .move (some 12), .move (some 18),
        .move (some 99)]).crossings =
      [(.enter, 0), (.enter, 1), (.exit, 1), (.enter, 2), (.exit, 2), (.exit, 0)] := by
  decide +kernel

end PointerRun

end TreeLens
