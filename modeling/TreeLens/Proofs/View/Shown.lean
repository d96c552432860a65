import Mathlib.Logic.Function.Basic
import TreeLens.Proofs.View.Parts

/-!
# Shown trees

A rendered tree after any use is determined by the tree and by which of its views are
open. `TreeView.shown` writes this state down directly, without a history:

* a fresh render shows all views open (`render_eq_shown`);
* a toggle flips one view of the shown state (`toggle?_shown`), and a click is a toggle;
* so a run of gestures ends in the shown state in which the views that it flipped an odd
  number of times are closed (`performAll_render`).
-/

namespace TreeLens

/-! ## Faces under open and closed views -/

/-- A face as it looks when the views for which `isOpen` holds are open. -/
def Face.shownAs (isOpen : Nat → Bool) (face : Face) : Face :=
  match face.part with
  | some (view, .content) => { face with display := if isOpen view then .block else .none }
  | some (view, .brace) => { face with display := if isOpen view then .inline else .none }
  | some (view, .ellipsis) => { face with display := if isOpen view then .none else .inline }
  | some (view, .glyph) =>
    { face with text := some (if isOpen view then openGlyph else closedGlyph) }
  | _ => face

/-- Rendering draws faces as they look when all views are open. -/
theorem Face.Drawn.shownAs_true {face : Face} (drawn : face.Drawn) :
    face.shownAs (fun _ => true) = face := by
  cases drawn <;> rfl

/-! ## The shown state -/

/-- Whether a number is that of a view that can be opened and closed. -/
def Node.canToggle (tree : Node) (view : Nat) : Bool :=
  (tree.outline [])[view]?.any fun entry => entry.2.isExpandable

theorem Node.isExpandable_viewKind (n : Node) : n.viewKind.isExpandable = n.isExpandable := by
  unfold viewKind
  split <;> rfl

namespace TreeView

/-- A tree whose open views are those for which `isOpen` holds. -/
def shown (tree : Node) (isOpen : Nat → Bool) : TreeView where
  tree := tree
  widgets := ⟨((tree.rootElement.mapFaces (Face.shownAs isOpen)).widgets none 0).toArray⟩
  views := (render tree).views.mapIdx fun i view => { view with isOpen := isOpen i }

theorem getElem?_views_shown (tree : Node) (isOpen : Nat → Bool) (i : Nat) :
    (shown tree isOpen).views[i]? =
      (render tree).views[i]?.map fun view => { view with isOpen := isOpen i } := by
  simp [shown, Array.getElem?_mapIdx]

/-- A shown view is a rendered view, open as the state says. -/
theorem exists_rendered_of_getElem?_shown {tree : Node} {isOpen : Nat → Bool} {i : Nat}
    {view : View} (found : (shown tree isOpen).views[i]? = some view) :
    ∃ rendered, (render tree).views[i]? = some rendered ∧
      view = { rendered with isOpen := isOpen i } := by
  rw [getElem?_views_shown, Option.map_eq_some_iff] at found
  obtain ⟨rendered, found, rfl⟩ := found
  exact ⟨rendered, found, rfl⟩

/-- The widgets of a shown tree are its faces as they look, with links that do not depend
on what is open. -/
theorem getElem?_widgets_shown {tree : Node} {id : Nat} {face : Face}
    (found : tree.rootElement.faces[id]? = some face) :
    ∃ above below, ∀ isOpen : Nat → Bool,
      (shown tree isOpen).widgets.widgets[id]? =
        some ((face.shownAs isOpen).link above below) := by
  obtain ⟨above, below, linked⟩ :=
    Element.exists_link_of_getElem?_faces none 0 tree.rootElement id found
  exact ⟨above, below, fun isOpen => by simp [shown, linked]⟩

/-- There are no other widgets. -/
theorem getElem?_widgets_shown_none {tree : Node} {id : Nat}
    (missing : tree.rootElement.faces[id]? = none) (isOpen : Nat → Bool) :
    (shown tree isOpen).widgets.widgets[id]? = none := by
  rw [List.getElem?_eq_none_iff, Element.length_faces] at missing
  simp [shown, Element.length_widgets, Element.size_mapFaces, missing]

/-- A fresh render shows all views open. -/
theorem render_eq_shown (tree : Node) : render tree = shown tree fun _ => true := by
  have faces : tree.rootElement.mapFaces (Face.shownAs fun _ => true) = tree.rootElement :=
    Element.mapFaces_eq_self _ fun _ member => (Node.drawn_of_mem_faces member).shownAs_true
  have views : (shown tree fun _ => true).views = (render tree).views := by
    refine Array.ext_getElem? fun i => ?_
    rw [getElem?_views_shown]
    cases found : (render tree).views[i]? with
    | none => rfl
    | some view =>
        obtain ⟨-, -, -, -, isOpen, -⟩ := exists_entry_of_getElem?_render found
        simp [← isOpen]
  rw [shown, faces] at views ⊢
  exact congrArg (TreeView.mk tree _) views.symm

/-! ## Views by path -/

/-- Every entry of the outline has a view, with the path of the entry. -/
theorem exists_view_of_getElem?_outline {tree : Node} {i : Nat} {entry : Path × Node}
    (found : (tree.outline [])[i]? = some entry) (isOpen : Nat → Bool) :
    ∃ view, (shown tree isOpen).views[i]? = some view ∧ view.source = entry.1 ∧
      view.isOpen = isOpen i := by
  have inside : i < (render tree).views.size := by
    rw [size_views_render, ← Node.length_outline []]
    exact (List.getElem?_eq_some_iff.1 found).1
  have rendered : (render tree).views[i]? = some (render tree).views[i] :=
    Array.getElem?_eq_getElem inside
  obtain ⟨other, here, -, source, -⟩ := exists_entry_of_getElem?_render rendered
  rw [found] at here
  obtain rfl := Option.some.inj here
  refine ⟨{ (render tree).views[i] with isOpen := isOpen i }, ?_, source, rfl⟩
  rw [getElem?_views_shown, rendered]
  rfl

/-- The view of a path is the one of its entry in the outline. -/
theorem findView?_shown {tree : Node} {i : Nat} {entry : Path × Node}
    (found : (tree.outline [])[i]? = some entry) (isOpen : Nat → Bool) :
    (shown tree isOpen).findView? entry.1 = some i := by
  obtain ⟨view, here, source, -⟩ := exists_view_of_getElem?_outline found isOpen
  obtain ⟨inside, same⟩ := Array.getElem?_eq_some_iff.1 here
  rw [findView?, Array.findIdx?_eq_some_iff_getElem]
  refine ⟨inside, by simp [same, source], ?_⟩
  intro j earlier matched
  -- An earlier view with this path would repeat a path of the outline.
  have also : (shown tree isOpen).views[j]? = some (shown tree isOpen).views[j] :=
    Array.getElem?_eq_getElem (Nat.lt_trans earlier inside)
  obtain ⟨rendered, original, equal⟩ := exists_rendered_of_getElem?_shown also
  obtain ⟨other, place, -, path, -⟩ := exists_entry_of_getElem?_render original
  have repeated : other.1 = entry.1 := by
    rw [← path]
    simpa [equal] using matched
  have distinct := (List.pairwise_iff_getElem.1 (Node.nodup_outline [] tree)) j i
    (by simpa using (List.getElem?_eq_some_iff.1 place).1)
    (by simpa using (List.getElem?_eq_some_iff.1 found).1) earlier
  simp only [List.getElem_map, (List.getElem?_eq_some_iff.1 place).2,
    (List.getElem?_eq_some_iff.1 found).2] at distinct
  exact distinct repeated

end TreeView

/-! ## Toggling a shown tree -/

theorem WidgetTree.getElem?_setDisplays (t : WidgetTree) (ids : List Nat) (display : Display)
    (i : Nat) :
    (t.setDisplays ids display).widgets[i]? =
      t.widgets[i]?.map fun w => if i ∈ ids then { w with display } else w := by
  induction ids generalizing t with
  | nil => simp [setDisplays]
  | cons id rest ih =>
      rw [show t.setDisplays (id :: rest) display =
        (t.setDisplay id display).setDisplays rest display from rfl, ih]
      simp only [setDisplay, modify, Array.getElem?_modify, List.mem_cons]
      by_cases own : id = i
      · subst own
        cases t.widgets[id]? <;> simp
      · simp [own, Ne.symm own]

theorem WidgetTree.getElem?_setTexts (t : WidgetTree) (ids : List Nat) (text : String) (i : Nat) :
    (t.setTexts ids text).widgets[i]? =
      t.widgets[i]?.map fun w => if i ∈ ids then { w with text := some text } else w := by
  induction ids generalizing t with
  | nil => simp [setTexts]
  | cons id rest ih =>
      rw [show t.setTexts (id :: rest) text = (t.setText id text).setTexts rest text from rfl, ih]
      simp only [setText, modify, Array.getElem?_modify, List.mem_cons]
      by_cases own : id = i
      · subst own
        cases t.widgets[id]? <;> simp
      · simp [own, Ne.symm own]

/-- The widget of a face after the parts of a view were shown open or closed, if the view
notes exactly the widgets drawn as its parts. -/
theorem View.getElem?_apply {view : View} {widgets : WidgetTree} {owner i : Nat} {face : Face}
    {isOpen : Nat → Bool} {above : Option Nat} {below : List Nat} (open? : Bool)
    (noted : ∀ part, i ∈ view.ids part ↔ face.part = some (owner, part))
    (found : widgets.widgets[i]? = some ((face.shownAs isOpen).link above below)) :
    (view.apply open? widgets).widgets[i]? =
      some ((face.shownAs (Function.update isOpen owner open?)).link above below) := by
  have content : i ∈ view.content.toList ↔ face.part = some (owner, .content) := noted .content
  have ellipsis : i ∈ view.ellipsis.toList ↔ face.part = some (owner, .ellipsis) := noted .ellipsis
  have glyph : i ∈ view.glyph.toList ↔ face.part = some (owner, .glyph) := noted .glyph
  have brace : i ∈ view.braces ↔ face.part = some (owner, .brace) := noted .brace
  simp only [apply, WidgetTree.getElem?_setTexts, WidgetTree.getElem?_setDisplays, found,
    content, ellipsis, glyph, brace, Option.map_some]
  -- The widget changes exactly if it plays a part for this view.
  cases played : face.part with
  | none => simp [Face.shownAs, played]
  | some role =>
      obtain ⟨player, part⟩ := role
      by_cases own : player = owner
      · subst own
        cases part <;> simp [Face.shownAs, played, Face.link]
      · cases part <;> simp [Face.shownAs, played, own]

namespace TreeView

/-- Showing the parts of one view otherwise gives the widgets of the state in which this
view is otherwise. -/
theorem apply_shown {tree : Node} {view : Nat} {noted : View}
    (found : (render tree).views[view]? = some noted) (isOpen : Nat → Bool) (open? : Bool) :
    noted.apply open? (shown tree isOpen).widgets =
      (shown tree (Function.update isOpen view open?)).widgets := by
  have same : ∀ i : Nat, (noted.apply open? (shown tree isOpen).widgets).widgets[i]? =
      (shown tree (Function.update isOpen view open?)).widgets.widgets[i]? := by
    intro i
    cases drawn : tree.rootElement.faces[i]? with
    | none =>
        rw [getElem?_widgets_shown_none drawn, View.apply, WidgetTree.getElem?_setTexts]
        simp only [WidgetTree.getElem?_setDisplays, getElem?_widgets_shown_none drawn,
          Option.map_none]
    | some face =>
        obtain ⟨above, below, linked⟩ := getElem?_widgets_shown drawn
        rw [linked]
        refine View.getElem?_apply open? (fun part => ?_) (linked isOpen)
        rw [mem_ids_iff found, drawn]
        simp
  exact congrArg WidgetTree.mk (Array.ext_getElem? same)

theorem modify_views_shown (tree : Node) (isOpen : Nat → Bool) (view : Nat) :
    (shown tree isOpen).views.modify view (fun v => { v with isOpen := !v.isOpen }) =
      (shown tree (Function.update isOpen view (!isOpen view))).views := by
  refine Array.ext_getElem? fun i => ?_
  rw [Array.getElem?_modify, getElem?_views_shown, getElem?_views_shown]
  by_cases own : view = i
  · subst own
    simp [Function.comp_def]
  · simp [own, Ne.symm own]

/-- A toggle flips the state of one view, if that can be toggled. -/
theorem toggle?_shown (tree : Node) (isOpen : Nat → Bool) (view : Nat) :
    (shown tree isOpen).toggle? view =
      if tree.canToggle view then
        some (shown tree (Function.update isOpen view (!isOpen view)))
      else none := by
  rw [toggle?, getElem?_views_shown, Node.canToggle]
  cases found : (render tree).views[view]? with
  | none =>
      -- There are as many views as entries of the outline.
      have outside : (tree.outline [])[view]? = none := by
        rw [Array.getElem?_eq_none_iff, size_views_render] at found
        rw [List.getElem?_eq_none_iff, Node.length_outline]
        exact found
      simp [outside]
  | some noted =>
      obtain ⟨entry, here, kind, -⟩ := exists_entry_of_getElem?_render found
      rw [here, Option.any_some, ← Node.isExpandable_viewKind, ← kind]
      simp only [Option.map_some, Option.bind_some, modify_views_shown]
      have widgets := apply_shown found isOpen (!isOpen view)
      split
      · exact congrArg (fun w => some (TreeView.mk tree w _)) widgets
      · rfl

/-! ## Runs of gestures -/

/-- What a user or a caller can do to a shown tree. -/
inductive Gesture where
  | toggle (view : Nat)
  | click (widget : Nat)
deriving DecidableEq, Repr

/-- The tree after a gesture; one that is not possible changes nothing. -/
def perform (t : TreeView) : Gesture → TreeView
  | .toggle view => (t.toggle? view).getD t
  | .click widget => (t.click? widget).getD t

/-- The tree after gestures, one after the other. -/
def performAll (t : TreeView) (gestures : List Gesture) : TreeView :=
  gestures.foldl perform t

/-- The view that a gesture is aimed at. -/
def target? (t : TreeView) : Gesture → Option Nat
  | .toggle view => some view
  | .click widget => (t.widgets.get? widget).bind (·.click)

/-- The view that a gesture opens or closes. -/
def flip? (t : TreeView) (gesture : Gesture) : Option Nat :=
  (t.target? gesture).filter fun view => (t.toggle? view).isSome

/-- The views that gestures open or close, in order and with repetitions. -/
def flips (t : TreeView) : List Gesture → List Nat
  | [] => []
  | gesture :: rest => (t.flip? gesture).toList ++ flips (t.perform gesture) rest

theorem perform_eq (t : TreeView) (gesture : Gesture) :
    t.perform gesture = ((t.target? gesture).bind t.toggle?).getD t := by
  cases gesture <;> rfl

/-- The states of views after flipping some, one after the other. -/
def flipAll (isOpen : Nat → Bool) (views : List Nat) : Nat → Bool :=
  views.foldl (fun isOpen view => Function.update isOpen view (!isOpen view)) isOpen

/-- Only whether a view is flipped an odd number of times matters. -/
theorem flipAll_apply (isOpen : Nat → Bool) (views : List Nat) (view : Nat) :
    flipAll isOpen views view = (isOpen view ^^ decide (views.count view % 2 = 1)) := by
  induction views generalizing isOpen with
  | nil => simp [flipAll]
  | cons head rest ih =>
      rw [show flipAll isOpen (head :: rest) =
        flipAll (Function.update isOpen head (!isOpen head)) rest from rfl, ih]
      by_cases own : head = view
      · subst own
        rw [Function.update_self, List.count_cons_self]
        rcases Nat.mod_two_eq_zero_or_one (rest.count head) with even | odd
        · simp [even, Nat.add_mod]
        · simp [odd, Nat.add_mod]
      · rw [Function.update_of_ne (Ne.symm own), List.count_cons_of_ne own]

theorem perform_shown (tree : Node) (isOpen : Nat → Bool) (gesture : Gesture) :
    (shown tree isOpen).perform gesture =
      shown tree (flipAll isOpen ((shown tree isOpen).flip? gesture).toList) := by
  rw [perform_eq, flip?]
  cases (shown tree isOpen).target? gesture with
  | none => rfl
  | some view =>
      rw [Option.bind_some, Option.filter_some, toggle?_shown]
      split <;> rfl

/-- A run of gestures flips the views that its gestures flip. -/
theorem performAll_shown (tree : Node) (isOpen : Nat → Bool) (gestures : List Gesture) :
    (shown tree isOpen).performAll gestures =
      shown tree (flipAll isOpen ((shown tree isOpen).flips gestures)) := by
  induction gestures generalizing isOpen with
  | nil => rfl
  | cons gesture rest ih =>
      rw [show (shown tree isOpen).performAll (gesture :: rest) =
        ((shown tree isOpen).perform gesture).performAll rest from rfl, flips, perform_shown, ih]
      simp only [flipAll, List.foldl_append]

theorem performAll_render (tree : Node) (gestures : List Gesture) :
    (render tree).performAll gestures =
      shown tree (flipAll (fun _ => true) ((render tree).flips gestures)) := by
  rw [render_eq_shown, performAll_shown]

/-- Gestures flip only views that can be toggled. -/
theorem canToggle_of_mem_flips {tree : Node} {isOpen : Nat → Bool} {gestures : List Gesture}
    {view : Nat} (flipped : view ∈ (shown tree isOpen).flips gestures) :
    tree.canToggle view = true := by
  induction gestures generalizing isOpen with
  | nil => simp [flips] at flipped
  | cons gesture rest ih =>
      rw [flips, List.mem_append, perform_shown] at flipped
      rcases flipped with now | later
      · rw [Option.mem_toList, flip?, Option.filter_eq_some_iff, toggle?_shown] at now
        by_contra fixed
        simp [fixed] at now
      · exact ih later

/-- Toggling views that can be toggled flips exactly these. -/
theorem flips_map_toggle {tree : Node} {views : List Nat}
    (possible : ∀ view ∈ views, tree.canToggle view = true) (isOpen : Nat → Bool) :
    (shown tree isOpen).flips (views.map .toggle) = views := by
  induction views generalizing isOpen with
  | nil => rfl
  | cons view rest ih =>
      have flip : (shown tree isOpen).flip? (.toggle view) = some view := by
        simp [flip?, target?, toggle?_shown, possible view]
      rw [List.map_cons, flips, perform_shown, flip,
        ih fun other member => possible other (List.mem_cons_of_mem _ member)]
      rfl

end TreeView

end TreeLens
