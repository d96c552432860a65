import TreeLens.Proofs.View.Shown

/-!
# Opening and closing views

After any gestures a view that can be toggled looks open exactly when it is open and
closed exactly when it is closed (`isOpen_iff_looks`), no two views share a part
(`disjoint_ids_shown`), and what is left of a run of gestures is which views were flipped an
odd number of times (`performAll_map_toggle`).
-/

namespace TreeLens

namespace View

/-- Some widgets are noted for a part, and all of them are displayed in the same way. -/
def Displays (view : View) (widgets : WidgetTree) (part : Part) (display : Display) : Prop :=
  view.ids part ≠ [] ∧ ∀ id ∈ view.ids part, ∃ w, widgets.get? id = some w ∧ w.display = display

/-- The glyph of a view, if it has one, reads as given. -/
def Reads (view : View) (widgets : WidgetTree) (text : String) : Prop :=
  ∀ id ∈ view.ids .glyph, ∃ w, widgets.get? id = some w ∧ w.text = some text

/-- The parts of a view look as those of an open one. -/
structure LooksOpen (view : View) (widgets : WidgetTree) : Prop where
  content : view.Displays widgets .content .block
  braces : view.Displays widgets .brace .inline
  ellipsis : view.Displays widgets .ellipsis .none
  glyph : view.Reads widgets "-"

/-- The parts of a view look as those of a closed one. -/
structure LooksClosed (view : View) (widgets : WidgetTree) : Prop where
  content : view.Displays widgets .content .none
  braces : view.Displays widgets .brace .none
  ellipsis : view.Displays widgets .ellipsis .inline
  glyph : view.Reads widgets "+"

theorem Displays.unique {view : View} {widgets : WidgetTree} {part : Part}
    {display other : Display} (one : view.Displays widgets part display)
    (two : view.Displays widgets part other) : display = other := by
  obtain ⟨id, member⟩ := List.exists_mem_of_ne_nil _ one.1
  obtain ⟨w, found, rfl⟩ := one.2 id member
  obtain ⟨w', found', rfl⟩ := two.2 id member
  rw [found] at found'
  exact congrArg Widget.display (Option.some.inj found')

theorem LooksOpen.not_looksClosed {view : View} {widgets : WidgetTree}
    (looks : view.LooksOpen widgets) : ¬ view.LooksClosed widgets := by
  intro closed
  exact absurd (looks.content.unique closed.content) (by decide)

end View

namespace TreeView

variable {tree : Node} {isOpen : Nat → Bool} {i : Nat} {view : View}

theorem mem_ids_shown_iff (found : (shown tree isOpen).views[i]? = some view) {part : Part}
    {id : Nat} :
    id ∈ view.ids part ↔
      ∃ face, tree.rootElement.faces[id]? = some face ∧ face.part = some (i, part) := by
  obtain ⟨rendered, original, rfl⟩ := exists_rendered_of_getElem?_shown found
  rw [← mem_ids_iff original]
  cases part <;> rfl

theorem length_ids_shown (found : (shown tree isOpen).views[i]? = some view) (part : Part) :
    (view.ids part).length = view.kind.parts.count part := by
  obtain ⟨rendered, original, rfl⟩ := exists_rendered_of_getElem?_shown found
  rw [← length_ids original part]
  cases part <;> rfl

theorem nodup_braces_shown (found : (shown tree isOpen).views[i]? = some view) :
    view.braces.Nodup := by
  obtain ⟨rendered, original, rfl⟩ := exists_rendered_of_getElem?_shown found
  obtain ⟨-, -, -, -, -, ids⟩ := exists_entry_of_getElem?_render original
  have braces : rendered.braces = Face.players i .brace 0 tree.rootElement.faces := ids .brace
  show rendered.braces.Nodup
  rw [braces]
  exact Face.nodup_players i .brace 0 tree.rootElement.faces

theorem isOpen_shown (found : (shown tree isOpen).views[i]? = some view) :
    view.isOpen = isOpen i := by
  obtain ⟨rendered, -, rfl⟩ := exists_rendered_of_getElem?_shown found
  rfl

/-- A part's widgets are faces of this part, as they look in the shown state. -/
theorem exists_face_of_mem_ids (found : (shown tree isOpen).views[i]? = some view) {part : Part}
    {id : Nat} (member : id ∈ view.ids part) :
    ∃ (face : Face) (above : Option Nat) (below : List Nat), face.part = some (i, part) ∧
      (shown tree isOpen).widgets.get? id = some ((face.shownAs isOpen).link above below) := by
  obtain ⟨face, drawn, played⟩ := (mem_ids_shown_iff found).1 member
  obtain ⟨above, below, linked⟩ := getElem?_widgets_shown drawn
  exact ⟨face, above, below, played, linked isOpen⟩

theorem displays_shown (found : (shown tree isOpen).views[i]? = some view) {part : Part}
    {display : Display} (due : 0 < view.kind.parts.count part)
    (looks : ∀ face : Face, face.part = some (i, part) →
      (face.shownAs isOpen).display = display) :
    view.Displays (shown tree isOpen).widgets part display := by
  refine ⟨?_, ?_⟩
  · rw [← length_ids_shown found part] at due
    exact List.length_pos_iff.1 due
  · intro id member
    obtain ⟨face, above, below, played, linked⟩ := exists_face_of_mem_ids found member
    exact ⟨_, linked, looks face played⟩

theorem reads_shown (found : (shown tree isOpen).views[i]? = some view) {text : String}
    (looks : ∀ face : Face, face.part = some (i, .glyph) →
      (face.shownAs isOpen).text = some text) :
    view.Reads (shown tree isOpen).widgets text := by
  intro id member
  obtain ⟨face, above, below, played, linked⟩ := exists_face_of_mem_ids found member
  exact ⟨_, linked, looks face played⟩

/-- Views that can be toggled have content, braces and an ellipsis. -/
theorem count_parts_pos {kind : ViewKind} (expandable : kind.isExpandable = true) :
    0 < kind.parts.count .content ∧ 0 < kind.parts.count .ellipsis ∧
      kind.parts.count .brace = 2 := by
  cases kind <;> first | decide | exact absurd expandable (by decide)

theorem looksOpen_shown (found : (shown tree isOpen).views[i]? = some view)
    (expandable : view.kind.isExpandable = true) (opened : isOpen i = true) :
    view.LooksOpen (shown tree isOpen).widgets := by
  obtain ⟨content, ellipsis, braces⟩ := count_parts_pos expandable
  constructor
  · exact displays_shown found content fun face played => by simp [Face.shownAs, played, opened]
  · exact displays_shown found (by omega) fun face played => by
      simp [Face.shownAs, played, opened]
  · exact displays_shown found ellipsis fun face played => by simp [Face.shownAs, played, opened]
  · exact reads_shown found fun face played => by
      simp [Face.shownAs, played, opened, openGlyph]

theorem looksClosed_shown (found : (shown tree isOpen).views[i]? = some view)
    (expandable : view.kind.isExpandable = true) (closed : isOpen i = false) :
    view.LooksClosed (shown tree isOpen).widgets := by
  obtain ⟨content, ellipsis, braces⟩ := count_parts_pos expandable
  constructor
  · exact displays_shown found content fun face played => by simp [Face.shownAs, played, closed]
  · exact displays_shown found (by omega) fun face played => by
      simp [Face.shownAs, played, closed]
  · exact displays_shown found ellipsis fun face played => by simp [Face.shownAs, played, closed]
  · exact reads_shown found fun face played => by
      simp [Face.shownAs, played, closed, closedGlyph]

/-- In a shown state the looks of a view say whether it is open. -/
theorem isOpen_iff_looks (found : (shown tree isOpen).views[i]? = some view)
    (expandable : view.kind.isExpandable = true) :
    (view.isOpen = true ↔ view.LooksOpen (shown tree isOpen).widgets) ∧
      (view.isOpen = false ↔ view.LooksClosed (shown tree isOpen).widgets) := by
  rw [isOpen_shown found]
  cases state : isOpen i with
  | true =>
      have looks := looksOpen_shown found expandable state
      simp [looks, looks.not_looksClosed]
  | false =>
      have looks := looksClosed_shown found expandable state
      have notOpen : ¬ view.LooksOpen (shown tree isOpen).widgets :=
        fun opened => opened.not_looksClosed looks
      simp [looks, notOpen]

/-- A widget is a part of one view only. -/
theorem disjoint_ids_shown {j : Nat} {other : View}
    (found : (shown tree isOpen).views[i]? = some view)
    (found' : (shown tree isOpen).views[j]? = some other) (different : i ≠ j) (part part' : Part) :
    (view.ids part).Disjoint (other.ids part') := by
  intro id member member'
  obtain ⟨face, drawn, played⟩ := (mem_ids_shown_iff found).1 member
  obtain ⟨face', drawn', played'⟩ := (mem_ids_shown_iff found').1 member'
  rw [drawn] at drawn'
  obtain rfl := Option.some.inj drawn'
  rw [played] at played'
  exact different (Prod.mk.inj (Option.some.inj played')).1

/-- Runs that flip the same views an odd number of times end in the same state. -/
theorem performAll_map_toggle (tree : Node) (gestures : List Gesture) {order : List Nat}
    (once : order.Nodup)
    (odd : ∀ v, v ∈ order ↔ ((render tree).flips gestures).count v % 2 = 1) :
    (render tree).performAll (order.map .toggle) = (render tree).performAll gestures := by
  rw [render_eq_shown] at odd ⊢
  -- Flipped views can be toggled, so toggling each of them once flips each of them once.
  have possible : ∀ v ∈ order, tree.canToggle v = true := by
    intro v member
    have flipped := (odd v).1 member
    have positive : 0 < ((shown tree fun _ => true).flips gestures).count v := by omega
    exact canToggle_of_mem_flips (List.count_pos_iff.1 positive)
  rw [performAll_shown, performAll_shown, flips_map_toggle possible]
  refine congrArg (shown tree) (funext fun v => ?_)
  rw [flipAll_apply, flipAll_apply, once.count]
  by_cases member : v ∈ order
  · simp [member, (odd v).1 member]
  · simp [member, mt (odd v).2 member]

/-- **Toggling.** After any toggles and clicks on a fresh render: a view that can be
toggled looks open exactly when it is open and closed exactly when it is closed, and it
has two braces, whoever drew them; parts of different views are different widgets; and
the whole tree view is what a fresh render becomes by toggling once, in any order, the
views that were flipped an odd number of times. -/
theorem looks_performAll_render (tree : Node) (gestures : List Gesture) :
    (∀ (i : Nat) (view : View), ((render tree).performAll gestures).views[i]? = some view →
      view.kind.isExpandable = true →
        (view.isOpen = true ↔ view.LooksOpen ((render tree).performAll gestures).widgets) ∧
        (view.isOpen = false ↔ view.LooksClosed ((render tree).performAll gestures).widgets) ∧
        view.braces.length = 2 ∧ view.braces.Nodup ∧
        (view.glyph.isSome = true ↔ view.kind = .namedObject)) ∧
    (∀ (i j : Nat) (view other : View), i ≠ j →
      ((render tree).performAll gestures).views[i]? = some view →
      ((render tree).performAll gestures).views[j]? = some other →
      ∀ part part' : Part, (view.ids part).Disjoint (other.ids part')) ∧
    (∀ order : List Nat, order.Nodup →
      (∀ v, v ∈ order ↔ ((render tree).flips gestures).count v % 2 = 1) →
      (render tree).performAll (order.map .toggle) = (render tree).performAll gestures) := by
  refine ⟨?_, ?_, fun order => performAll_map_toggle tree gestures⟩
  · intro i view found expandable
    rw [performAll_render] at found ⊢
    obtain ⟨opened, closed⟩ := isOpen_iff_looks found expandable
    obtain ⟨-, -, braces⟩ := count_parts_pos expandable
    have two : view.braces.length = 2 := by rw [← braces, ← length_ids_shown found]; rfl
    refine ⟨opened, closed, two, nodup_braces_shown found, ?_⟩
    have glyph : view.glyph.toList.length = view.kind.parts.count .glyph :=
      length_ids_shown found .glyph
    cases noted : view.glyph <;> cases kind : view.kind <;>
      simp [noted, kind, ViewKind.parts] at glyph ⊢
  · intro i j view other different found found'
    rw [performAll_render] at found found'
    exact disjoint_ids_shown found found' different

/-- An unnamed object in a field, whose braces the field draws, is closed through its key
and its parent is flipped twice. -/
theorem looks_performAll_render_nested :
    let tree : Node := .object none [("a", .object none [] none), ("b", .array [.null])] none
    (render tree).flips [.toggle 0, .click 6, .toggle 0, .toggle 3] = [0, 1, 0] ∧
      (render tree).performAll ([1].map .toggle) =
        (render tree).performAll [.toggle 0, .click 6, .toggle 0, .toggle 3] := by
  refine ⟨by decide, ?_⟩
  refine (looks_performAll_render _ _).2.2 [1] (by decide) fun v => ?_
  rw [show (render _).flips _ = [0, 1, 0] by decide]
  rcases v with _ | _ | v <;> simp

end TreeView

end TreeLens
