import TreeLens.Proofs.View.Parts
import TreeLens.Proofs.Widget.Inside
import TreeLens.View.Builder

/-!
# Views built step by step

`TreeView.build` adds widgets and views one at a time, notes the parts of a view when they are
all there, and lets a field note the braces it draws afterwards. What it gives is what
`TreeView.render` gives by numbering elements (`TreeView.build_eq_render`).

The effect of every step is a `Builder.drawn`: some elements are added below a widget, with
fresh views in which the parts among them are noted. Two laws put such effects together, one
for elements in a row (`Builder.drawn_append`) and one for elements inside another
(`Builder.drawn_mk`). A widget that is added has no part at first; that the parts can be noted
later rests on `View.assignAll_modify`: notes in a view commute with what is noted for others.
-/

namespace TreeLens

/-! ## Arrays with one entry changed -/

section

variable {α : Type} (xs : Array α) (f g : α → α)

/-- Two changes commute, of different entries always, and of one entry if the functions do. -/
theorem modify_comm {i j : Nat} (commute : i = j → ∀ x, f (g x) = g (f x)) :
    (xs.modify i f).modify j g = (xs.modify j g).modify i f := by
  apply Array.ext_getElem?
  intro k
  simp only [Array.getElem?_modify]
  by_cases first : i = k
  · by_cases second : j = k
    · have same := commute (first.trans second.symm)
      simp [first, second, same, Function.comp_def]
    · simp [first, second]
  · simp [first]

theorem modify_modify (i : Nat) : (xs.modify i f).modify i g = xs.modify i fun x => g (f x) := by
  apply Array.ext_getElem?
  intro k
  simp only [Array.getElem?_modify]
  split
  · simp [Function.comp_def]
  · rfl

variable {xs}

theorem modify_append {i : Nat} (inside : i < xs.size) (ys : Array α) :
    (xs ++ ys).modify i f = xs.modify i f ++ ys := by
  apply Array.ext_getElem?
  intro k
  simp only [Array.getElem?_modify, Array.getElem?_append, Array.size_modify]
  by_cases front : k < xs.size
  · simp [front]
  · rw [if_neg (show ¬ i = k by omega), if_neg front, if_neg front]

theorem modify_append_singleton {i : Nat} (last : i = xs.size) (x : α) :
    (xs ++ #[x]).modify i f = xs ++ #[f x] := by
  subst last
  apply Array.ext_getElem?
  intro k
  simp only [Array.getElem?_modify, Array.getElem?_append]
  by_cases front : k < xs.size
  · rw [if_neg (show ¬ xs.size = k by omega), if_pos front, if_pos front]
  · by_cases own : xs.size = k
    · simp [← own]
    · simp [own, front, show k - xs.size ≠ 0 by omega]

end

/-! ## Elements, and faces before their parts are noted -/

/-- A face without its part. -/
def Face.bare (face : Face) : Face :=
  { face with part := none }

namespace Element

theorem numbers_append (id : Nat) (es fs : List Element) :
    numbers id (es ++ fs) = numbers id es ++ numbers (id + sizeAll es) fs := by
  induction es generalizing id with
  | nil => rfl
  | cons e rest ih => simp only [List.cons_append, numbers, sizeAll, ih, Nat.add_assoc]

theorem parts_leaf_of_bare {face : Face} (bare : face.part = none) : parts [.leaf face] = [] := by
  rw [leaf, parts_cons, bare]
  rfl

mutual

theorem widgets_mapFaces_bare (parent : Option Nat) (id : Nat) :
    ∀ e : Element, (e.mapFaces Face.bare).widgets parent id = e.widgets parent id
  | .mk face children => by
      rw [mapFaces, widgets, widgets, numbers_mapFacesAll, widgetsAll_mapFacesAll_bare]
      rfl

/-- Widgets do not depend on the parts that they play. -/
theorem widgetsAll_mapFacesAll_bare (parent id : Nat) :
    ∀ es : List Element, widgetsAll parent id (mapFacesAll Face.bare es) = widgetsAll parent id es
  | [] => rfl
  | e :: rest => by
      rw [mapFacesAll, widgetsAll, widgetsAll, widgets_mapFaces_bare, size_mapFaces,
        widgetsAll_mapFacesAll_bare]

end

end Element

/-! ## Widgets below a widget -/

/-- A widget with more children. -/
def Widget.adopt (ids : List Nat) (w : Widget) : Widget :=
  { w with children := w.children ++ ids }

namespace WidgetTree

/-- The widgets of elements added below a widget. -/
def grow (t : WidgetTree) (parent : Nat) (es : List Element) : WidgetTree :=
  ⟨t.widgets.modify parent (Widget.adopt (Element.numbers t.size es)) ++
    (Element.widgetsAll parent t.size es).toArray⟩

variable (t : WidgetTree) {parent : Nat}

theorem size_grow (parent : Nat) (es : List Element) :
    (t.grow parent es).size = t.size + Element.sizeAll es := by
  simp [grow, size, Element.length_widgetsAll]

theorem grow_eq_of_bare {es fs : List Element}
    (same : Element.mapFacesAll Face.bare es = Element.mapFacesAll Face.bare fs) (parent : Nat) :
    t.grow parent es = t.grow parent fs := by
  have numbers : Element.numbers t.size es = Element.numbers t.size fs := by
    rw [← Element.numbers_mapFacesAll Face.bare, same, Element.numbers_mapFacesAll]
  have widgets : Element.widgetsAll parent t.size es = Element.widgetsAll parent t.size fs := by
    rw [← Element.widgetsAll_mapFacesAll_bare, same, Element.widgetsAll_mapFacesAll_bare]
  rw [grow, grow, numbers, widgets]

theorem grow_nil (parent : Nat) : t.grow parent [] = t := by
  have same : Widget.adopt [] = id := by
    funext w
    simp [Widget.adopt]
  have kept : t.widgets.modify parent id = t.widgets := by
    apply Array.ext_getElem?
    intro k
    simp [Array.getElem?_modify]
  simp [grow, Element.numbers, Element.widgetsAll, same, kept]

theorem grow_append (inside : parent < t.size) (es fs : List Element) :
    t.grow parent (es ++ fs) = (t.grow parent es).grow parent fs := by
  have adopted : (fun w => Widget.adopt (Element.numbers (t.size + Element.sizeAll es) fs)
      (Widget.adopt (Element.numbers t.size es) w)) =
        Widget.adopt (Element.numbers t.size (es ++ fs)) := by
    funext w
    simp [Widget.adopt, Element.numbers_append]
  rw [grow, grow, size_grow]
  simp only [grow]
  rw [modify_append _ (by rwa [Array.size_modify]), modify_modify, adopted,
    Element.widgetsAll_append, Array.append_assoc, ← List.append_toArray]

theorem grow_leaf (parent : Nat) (face : Face) :
    t.grow parent [.leaf face] =
      ⟨t.widgets.modify parent (Widget.adopt [t.size]) ++ #[face.link (some parent) []]⟩ :=
  rfl

/-- A widget and then those below it. -/
theorem grow_mk (parent : Nat) (face : Face) (children : List Element) :
    t.grow parent [.mk face children] = (t.grow parent [.leaf face]).grow t.size children := by
  have one : (t.grow parent [.leaf face]).size = t.size + 1 := t.size_grow parent _
  have last : t.size = (t.widgets.modify parent (Widget.adopt [t.size])).size := by
    rw [Array.size_modify, size]
  rw [grow, grow, one, grow_leaf, modify_append_singleton _ last]
  simp [Element.numbers, Element.widgetsAll, Element.widgets, Face.link, Widget.adopt]

/-- A change of a widget can be made before others are added, if it leaves its children
alone. -/
theorem modify_grow {i : Nat} (inside : i < t.size) {f : Widget → Widget}
    (apart : ∀ ids w, f (Widget.adopt ids w) = Widget.adopt ids (f w)) (parent : Nat)
    (es : List Element) : (t.modify i f).grow parent es = (t.grow parent es).modify i f := by
  have same : (t.modify i f).size = t.size := by simp [size, modify]
  simp only [grow, same]
  simp only [modify]
  rw [modify_append _ (by rwa [Array.size_modify]), modify_comm]
  exact fun _ w => apart _ w

/-- A change of the widget that was added last. -/
theorem modify_grow_leaf (parent : Nat) {face other : Face} {f : Widget → Widget}
    (changed : f (face.link (some parent) []) = other.link (some parent) []) :
    (t.grow parent [.leaf face]).modify t.size f = t.grow parent [.leaf other] := by
  rw [grow_leaf, grow_leaf, ← changed, modify]
  simp only
  rw [modify_append_singleton _ (by rw [Array.size_modify, size])]

theorem push_eq_grow (inside : parent < t.size) (style : StyleClass) (display : Display)
    (text : Option String) :
    t.push (some parent) style display text = t.grow parent [.leaf { style, display, text }] := by
  simp only [push, modify, grow]
  rw [← Array.append_singleton, modify_append _ inside]
  rfl

end WidgetTree

/-! ## Notes in views -/

namespace View

theorem assignAll_append (id : Nat) (views : Array View) (faces others : List Face) :
    assignAll id views (faces ++ others) =
      assignAll (id + faces.length) (assignAll id views faces) others := by
  induction faces generalizing id views with
  | nil => rfl
  | cons face rest ih =>
      have next : id + 1 + rest.length = id + (face :: rest).length := by
        simp only [List.length_cons]
        omega
      rw [List.cons_append, assignAll, assignAll]
      split <;> rw [ih, next]

/-- A change of a view commutes with notes for others, and with notes for the view itself if
it commutes with each of them. -/
theorem assignAll_modify (id : Nat) (views : Array View) {i : Nat} {f : View → View}
    {faces : List Face}
    (commute : ∀ part, (i, part) ∈ faces.filterMap Face.part →
      ∀ id v, f (assign id v part) = assign id (f v) part) :
    assignAll id (views.modify i f) faces = (assignAll id views faces).modify i f := by
  induction faces generalizing id views with
  | nil => rfl
  | cons face rest ih =>
      rw [assignAll, assignAll]
      cases played : face.part with
      | none =>
          refine ih _ _ fun part member => commute part ?_
          simpa [played] using member
      | some noted =>
          obtain ⟨owner, part⟩ := noted
          have later := ih (id + 1) (views.modify owner fun v => v.assign id part)
            fun other member => commute other (by simp [played, member])
          simp only
          rw [← later, modify_comm]
          rintro rfl v
          exact commute part (by simp [played]) id v

/-- A change of a view commutes with notes for later views. -/
theorem assignAll_modify_of_lt (id : Nat) (views : Array View) {i : Nat} (f : View → View)
    {faces : List Face} (above : ∀ noted ∈ faces.filterMap Face.part, i < noted.1) :
    assignAll id (views.modify i f) faces = (assignAll id views faces).modify i f :=
  assignAll_modify id views fun _ member => absurd (above _ member) (Nat.lt_irrefl i)

/-- Notes do not reach views that are added at the end. -/
theorem assignAll_append_views (id : Nat) (views more : Array View) {faces : List Face}
    (owned : ∀ noted ∈ faces.filterMap Face.part, noted.1 < views.size) :
    assignAll id (views ++ more) faces = assignAll id views faces ++ more := by
  induction faces generalizing id views with
  | nil => rfl
  | cons face rest ih =>
      rw [assignAll, assignAll]
      cases played : face.part with
      | none => exact ih _ _ fun noted member => owned noted (by simp [played, member])
      | some noted =>
          simp only
          rw [modify_append _ (owned noted (by simp [played]))]
          refine ih _ _ fun other member => ?_
          rw [Array.size_modify]
          exact owned other (by simp [played, member])

end View

/-! ## Owners of parts -/

theorem bounds_of_mem_dueParts {view : Nat} {entries : List (Path × Node)} {noted : Nat × Part}
    (member : noted ∈ dueParts view entries) :
    view ≤ noted.1 ∧ noted.1 < view + entries.length := by
  induction entries generalizing view with
  | nil => cases member
  | cons entry rest ih =>
      rw [dueParts, List.mem_append] at member
      rw [List.length_cons]
      rcases member with own | later
      · obtain ⟨part, -, rfl⟩ := List.mem_map.1 own
        exact ⟨Nat.le_refl view, by omega⟩
      · have bounds := ih later
        omega

namespace Element

/-- An element together with the braces around it notes parts in the views of its node. -/
theorem bounds_of_mem_parts_drawn (path : Path) {view : Nat} {braces : Bool} {n : Node}
    {noted : Nat × Part} (member : noted ∈ parts (drawn view braces n)) :
    view ≤ noted.1 ∧ noted.1 < view + (n.outline path).length :=
  bounds_of_mem_dueParts ((parts_drawn_perm path view braces n).mem_iff.1 member)

theorem drawn_of_fieldBraces? {n : Node} {left right : String}
    (around : n.fieldBraces? = some (left, right)) (view : Nat) :
    drawn view false n =
      [leaf (.brace view left), n.element view false, leaf (.brace view right)] := by
  simp [drawn, around, enclosed]

theorem parts_drawn_of_fieldBraces? {n : Node} {left right : String}
    (around : n.fieldBraces? = some (left, right)) (view : Nat) :
    parts (drawn view false n) =
      (view, .brace) :: (parts [n.element view false] ++ [(view, .brace)]) := by
  rw [drawn_of_fieldBraces? around, leaf, parts_cons, parts_nil]
  exact congrArg (_ :: ·) (parts_append [n.element view false] [leaf (.brace view right)])

/-- The braces that a field draws are the only ones of the view of its value. -/
theorem not_mem_parts_of_fieldBraces? {n : Node} {left right : String}
    (around : n.fieldBraces? = some (left, right)) (view : Nat) :
    (view, Part.brace) ∉ parts [n.element view false] := by
  have two : (dueParts view (n.outline [])).count (view, .brace) = 2 := by
    rw [count_dueParts, if_pos (Nat.le_refl view), Nat.sub_self]
    cases n with
    | leaf => cases around
    | array items =>
        cases items with
        | nil => cases around
        | cons => rfl
    | object name =>
        cases name with
        | none => rfl
        | some => cases around
  rw [← (parts_drawn_perm [] view false n).count_eq, parts_drawn_of_fieldBraces? around] at two
  rw [← List.count_eq_zero]
  simpa using two

end Element

/-! ## What is drawn -/

/-- The open views of the entries of an outline, without parts. -/
def freshViews (entries : List (Path × Node)) : Array View :=
  (entries.map fun entry => View.fresh entry.1 entry.2).toArray

theorem freshViews_append (entries others : List (Path × Node)) :
    freshViews (entries ++ others) = freshViews entries ++ freshViews others := by
  simp [freshViews]

namespace Builder

/-- The builder after some elements were added below a widget, with views for some entries of
an outline. -/
def drawn (b : Builder) (parent : Nat) (entries : List (Path × Node)) (es : List Element) :
    Builder where
  widgets := b.widgets.grow parent es
  views := View.assignAll b.widgets.size (b.views ++ freshViews entries) (Element.facesAll es)

variable (b : Builder) {parent : Nat}

theorem size_widgets_drawn (parent : Nat) (entries : List (Path × Node)) (es : List Element) :
    (b.drawn parent entries es).widgets.size = b.widgets.size + Element.sizeAll es :=
  b.widgets.size_grow parent es

theorem size_views_drawn (parent : Nat) (entries : List (Path × Node)) (es : List Element) :
    (b.drawn parent entries es).views.size = b.views.size + entries.length := by
  simp [drawn, View.size_assignAll, freshViews]

theorem drawn_nil (parent : Nat) : b.drawn parent [] [] = b := by
  refine Builder.ext (b.widgets.grow_nil parent) ?_
  simp [drawn, freshViews, Element.facesAll, View.assignAll]

/-- Elements in a row. -/
theorem drawn_append (inside : parent < b.widgets.size) {entries : List (Path × Node)}
    (others : List (Path × Node)) {es : List Element} (fs : List Element)
    (owned : ∀ noted ∈ Element.parts es, noted.1 < b.views.size + entries.length) :
    (b.drawn parent entries es).drawn parent others fs =
      b.drawn parent (entries ++ others) (es ++ fs) := by
  have reached : ∀ noted ∈ (Element.facesAll es).filterMap Face.part,
      noted.1 < (b.views ++ freshViews entries).size := by
    simpa [freshViews, Element.parts] using owned
  refine Builder.ext (b.widgets.grow_append inside es fs).symm ?_
  simp only [drawn]
  rw [Element.facesAll_append, View.assignAll_append, Element.length_facesAll,
    freshViews_append, ← Array.append_assoc, View.assignAll_append_views _ _ _ reached,
    WidgetTree.size_grow]

/-- A widget without a part, and then elements inside it. -/
theorem drawn_mk (parent : Nat) (entries others : List (Path × Node)) {face : Face}
    (bare : face.part = none) (children : List Element) :
    (b.drawn parent entries [.leaf face]).drawn b.widgets.size others children =
      b.drawn parent (entries ++ others) [.mk face children] := by
  refine Builder.ext (b.widgets.grow_mk parent face children).symm ?_
  simp only [drawn, WidgetTree.size_grow, freshViews_append, ← Array.append_assoc]
  simp [Element.leaf, Element.facesAll, Element.faces, Element.sizeAll, Element.size,
    View.assignAll, bare]

/-! ## Steps -/

theorem reserve_eq (parent : Nat) (path : Path) (n : Node) :
    b.reserve n.viewKind path = (b.views.size, b.drawn parent [(path, n)] []) := by
  refine Prod.ext rfl (Builder.ext (b.widgets.grow_nil parent).symm ?_)
  simp [reserve, drawn, freshViews, Element.facesAll, View.assignAll, View.fresh]

theorem push_eq (inside : parent < b.widgets.size) (style : StyleClass) (display : Display)
    (text : Option String) :
    b.push parent style display text =
      (b.widgets.size, b.drawn parent [] [.leaf { style, display, text }]) := by
  refine Prod.ext rfl (Builder.ext (b.widgets.push_eq_grow inside style display text) ?_)
  simp [push, drawn, freshViews, Element.leaf, Element.facesAll, Element.faces, View.assignAll]

/-- The braces of an unnamed object or an array, before they are noted. -/
def bareBraces (text : Option String) : List Element :=
  text.toList.map fun text => .leaf (Face.brace 0 text).bare

theorem parts_bareBraces (text : Option String) : Element.parts (bareBraces text) = [] := by
  cases text <;> rfl

theorem brace?_eq (inside : parent < b.widgets.size) (text : Option String) :
    b.brace? parent text =
      (text.map fun _ => b.widgets.size,
        b.drawn parent [] (bareBraces text)) := by
  cases text with
  | none => exact Prod.ext rfl (b.drawn_nil parent).symm
  | some text =>
      simp only [brace?, trivia]
      rw [push_eq b inside]
      rfl

theorem change_drawn {i : Nat} (inside : i < b.widgets.size) {f : Widget → Widget}
    (apart : ∀ ids w, f (Widget.adopt ids w) = Widget.adopt ids (f w)) (parent : Nat)
    (entries : List (Path × Node)) (es : List Element) :
    (b.drawn parent entries es).change i f = (b.change i f).drawn parent entries es := by
  refine Builder.ext (b.widgets.modify_grow inside apart parent es).symm ?_
  simp [change, drawn, WidgetTree.modify, WidgetTree.size]

/-- A change of the widget that was added last. -/
theorem change_drawn_leaf (parent : Nat) {face other : Face} {f : Widget → Widget}
    (changed : f (face.link (some parent) []) = other.link (some parent) [])
    (same : face.part = other.part) :
    (b.drawn parent [] [.leaf face]).change b.widgets.size f = b.drawn parent [] [.leaf other] := by
  refine Builder.ext (b.widgets.modify_grow_leaf parent changed) ?_
  simp [change, drawn, Element.leaf, Element.facesAll, Element.faces, View.assignAll, same]

/-- Parts that are noted in a view afterwards. -/
theorem note_drawn {entries : List (Path × Node)} {es fs : List Element}
    (same : Element.mapFacesAll Face.bare es = Element.mapFacesAll Face.bare fs) {view : Nat}
    {f : View → View}
    (noted : (View.assignAll b.widgets.size (b.views ++ freshViews entries)
        (Element.facesAll es)).modify view f =
      View.assignAll b.widgets.size (b.views ++ freshViews entries) (Element.facesAll fs)) :
    (b.drawn parent entries es).note view f = b.drawn parent entries fs :=
  Builder.ext (b.widgets.grow_eq_of_bare same parent) noted

-- From here on the laws above are all that is used of it.
attribute [irreducible] drawn

/-! ## Kinds of views -/

/-- `fill` adds these elements and views below any widget, if `view` is the next view. -/
def Fills (fill : Nat → Builder → Builder) (view : Nat) (entries : List (Path × Node))
    (es : List Element) : Prop :=
  ∀ (d : Builder) (id : Nat), id < d.widgets.size → d.views.size = view →
    fill id d = d.drawn id entries es

theorem region_eq (inside : parent < b.widgets.size) (path : Path) (n : Node)
    (style : StyleClass) :
    b.region n.viewKind parent path style =
      (b.views.size, b.widgets.size,
        b.drawn parent [(path, n)]
          [.leaf { style, display := .block, hover := some b.views.size }]) := by
  let reserved := b.drawn parent [(path, n)] []
  let face : Face := { style, display := .block }
  have size : reserved.widgets.size = b.widgets.size := b.size_widgets_drawn _ _ _
  have pushed := reserved.push_eq (size.symm ▸ inside) style .block none
  have hovered : (reserved.drawn parent [] [.leaf face]).setHover b.widgets.size b.views.size =
      reserved.drawn parent [] [.leaf { face with hover := some b.views.size }] := by
    rw [setHover, ← size]
    exact reserved.change_drawn_leaf parent rfl rfl
  unfold region
  rw [reserve_eq b parent path n]
  simp only
  rw [pushed]
  simp only [size]
  rw [hovered, drawn_append b inside [] _ (by simp [Element.parts_nil])]
  rfl

theorem size_widgets_drawn_leaf (parent : Nat) (entries : List (Path × Node)) (face : Face) :
    (b.drawn parent entries [.leaf face]).widgets.size = b.widgets.size + 1 :=
  b.size_widgets_drawn parent entries _

/-- An element after one without parts. -/
theorem drawn_leaf_append (inside : parent < b.widgets.size) {face : Face}
    (bare : face.part = none) (entries : List (Path × Node)) (es : List Element) :
    (b.drawn parent [] [.leaf face]).drawn parent entries es =
      b.drawn parent entries (.leaf face :: es) :=
  b.drawn_append inside entries es (by simp [Element.parts_leaf_of_bare bare])

theorem body_eq {container : Nat} (inside : container < b.widgets.size) (style : StyleClass)
    {fill : Nat → Builder → Builder} {entries : List (Path × Node)} {es : List Element}
    (fills : Fills fill b.views.size entries es) (view : Nat) :
    b.body container style fill =
      (b.widgets.size, b.widgets.size + 1,
        b.drawn container entries
          [.leaf (Face.ellipsis view).bare, .mk (Face.content style view).bare es]) := by
  let started := b.drawn container [] [.leaf (Face.ellipsis view).bare]
  let opened := started.drawn container [] [.leaf (Face.content style view).bare]
  have size : started.widgets.size = b.widgets.size + 1 := b.size_widgets_drawn_leaf ..
  have room : opened.widgets.size = started.widgets.size + 1 := started.size_widgets_drawn_leaf ..
  have first : b.trivia container ellipsisText .none = (b.widgets.size, started) :=
    b.push_eq inside .trivia .none (some ellipsisText)
  have second : started.push container style .block none = (started.widgets.size, opened) :=
    started.push_eq (by omega) style .block none
  have filled : fill started.widgets.size opened = b.drawn container entries
      [.leaf (Face.ellipsis view).bare, .mk (Face.content style view).bare es] := calc
    _ = opened.drawn started.widgets.size entries es :=
      fills opened _ (by omega) ((started.size_views_drawn ..).trans (b.size_views_drawn ..))
    _ = started.drawn container entries [.mk (Face.content style view).bare es] :=
      started.drawn_mk container [] entries rfl es
    _ = _ := b.drawn_leaf_append inside rfl entries _
  simp only [body, first, second, filled]
  rw [size]

theorem header_eq {container : Nat} (inside : container < b.widgets.size) (view : Nat)
    (name : String) :
    b.header container view name =
      (b.widgets.size + 1, b.widgets.size + 3,
        b.drawn container []
          [.mk (.group .objectHeader .block)
            [.leaf (Face.glyph view).bare, .leaf (.title view name),
              .leaf (Face.brace view "\x7b").bare]]) := by
  let started := b.drawn container [] [.leaf (.group .objectHeader .block)]
  let marked := started.drawn b.widgets.size [] [.leaf (Face.glyph view).bare]
  let bareTitle : Face := { style := .headerName, display := .inline, text := some name }
  let named := marked.drawn b.widgets.size [] [.leaf (.title view name)]
  have size : started.widgets.size = b.widgets.size + 1 := b.size_widgets_drawn_leaf ..
  have second : marked.widgets.size = started.widgets.size + 1 :=
    started.size_widgets_drawn_leaf ..
  have third : named.widgets.size = marked.widgets.size + 1 := marked.size_widgets_drawn_leaf ..
  have first : b.push container .objectHeader .block none = (b.widgets.size, started) :=
    b.push_eq inside .objectHeader .block none
  have glyph : started.push b.widgets.size .headerToggle .inline (some openGlyph) =
      (started.widgets.size, marked) :=
    started.push_eq (by omega) .headerToggle .inline (some openGlyph)
  have title : marked.push b.widgets.size .headerName .inline (some name) =
      (marked.widgets.size, marked.drawn b.widgets.size [] [.leaf bareTitle]) :=
    marked.push_eq (by omega) .headerName .inline (some name)
  have clicked : (marked.drawn b.widgets.size [] [.leaf bareTitle]).setClick
      marked.widgets.size view = named :=
    marked.change_drawn_leaf b.widgets.size rfl rfl
  have brace : named.trivia b.widgets.size "\x7b" .inline =
      (named.widgets.size, named.drawn b.widgets.size [] [.leaf (Face.brace view "\x7b").bare]) :=
    named.push_eq (by omega) .trivia .inline (some "\x7b")
  have joined : named.drawn b.widgets.size [] [.leaf (Face.brace view "\x7b").bare] =
      b.drawn container [] [.mk (.group .objectHeader .block)
        [.leaf (Face.glyph view).bare, .leaf (.title view name),
          .leaf (Face.brace view "\x7b").bare]] := calc
    _ = marked.drawn b.widgets.size [] [.leaf (.title view name),
        .leaf (Face.brace view "\x7b").bare] :=
      marked.drawn_leaf_append (by omega) rfl [] _
    _ = started.drawn b.widgets.size [] [.leaf (Face.glyph view).bare, .leaf (.title view name),
        .leaf (Face.brace view "\x7b").bare] :=
      started.drawn_leaf_append (by omega) rfl [] _
    _ = _ := b.drawn_mk container [] [] rfl _
  simp only [header, first, glyph, title, clicked, brace, joined]
  rw [third, second, size]

theorem single_eq (inside : parent < b.widgets.size) (path : Path) (n : Node)
    (style : StyleClass) (text : String) :
    b.single n.viewKind parent path style text =
      (b.views.size,
        b.drawn parent [(path, n)] [.leaf (.single style b.views.size text)]) := by
  let reserved := b.drawn parent [(path, n)] []
  have size : reserved.widgets.size = b.widgets.size := b.size_widgets_drawn _ _ _
  have pushed : reserved.push parent style .inline (some text) = (reserved.widgets.size,
      b.drawn parent [(path, n)] [.leaf (Face.single style b.views.size text).bare]) := by
    rw [reserved.push_eq (by omega), b.drawn_append inside [] _ (by simp [Element.parts_nil])]
    rfl
  simp only [single, b.reserve_eq parent path n]
  rw [pushed]
  refine Prod.ext rfl (b.note_drawn ?_ ?_)
  · rfl
  · simp only [size]
    rfl

/-- A container, what stands before its content, the content, and what stands after it. -/
theorem drawn_framed (own : Path × Node) {face : Face} (bare : face.part = none)
    {front inner : List Element} (unnoted : Element.parts front = [])
    {entries : List (Path × Node)}
    (owned : ∀ noted ∈ Element.parts inner, noted.1 < b.views.size + 1 + entries.length)
    (back : List Element) :
    let opened := b.drawn parent [own] [.leaf face]
    ((opened.drawn b.widgets.size [] front).drawn b.widgets.size entries inner).drawn
        b.widgets.size [] back =
      b.drawn parent (own :: entries) [.mk face (front ++ (inner ++ back))] := by
  intro opened
  let fronted := opened.drawn b.widgets.size [] front
  have room : opened.widgets.size = b.widgets.size + 1 := b.size_widgets_drawn_leaf ..
  have more : fronted.widgets.size = opened.widgets.size + Element.sizeAll front :=
    opened.size_widgets_drawn ..
  have views : fronted.views.size = b.views.size + 1 :=
    (opened.size_views_drawn ..).trans (b.size_views_drawn ..)
  calc
    _ = fronted.drawn b.widgets.size (entries ++ []) (inner ++ back) :=
      fronted.drawn_append (by omega) [] back (by rwa [views])
    _ = opened.drawn b.widgets.size (entries ++ []) (front ++ (inner ++ back)) :=
      opened.drawn_append (by omega) _ _ (by simp [unnoted])
    _ = b.drawn parent ([own] ++ (entries ++ [])) [.mk face (front ++ (inner ++ back))] :=
      b.drawn_mk parent [own] (entries ++ []) bare _
    _ = _ := by
      rw [List.append_nil]
      rfl

theorem bracketed_eq (inside : parent < b.widgets.size) (path : Path) (n : Node)
    (style contentStyle : StyleClass) (braces : Option (String × String))
    {fill : Nat → Builder → Builder} {entries : List (Path × Node)} {content : List Element}
    (fills : Fills fill (b.views.size + 1) entries content)
    (owned : ∀ noted ∈ Element.parts content, b.views.size < noted.1 ∧
      noted.1 < b.views.size + 1 + entries.length) :
    b.bracketed n.viewKind parent path style contentStyle braces fill =
      (b.views.size, b.drawn parent ((path, n) :: entries)
        [.bracketed b.views.size style contentStyle braces content]) := by
  let left := bareBraces (braces.map (·.1))
  let right := bareBraces (braces.map (·.2))
  let inner : List Element := [.leaf (Face.ellipsis b.views.size).bare,
    .mk (Face.content contentStyle b.views.size).bare content]
  let opened := b.drawn parent [(path, n)] [.leaf (Face.region style b.views.size).bare]
  let braced := opened.drawn b.widgets.size [] left
  let filled := braced.drawn b.widgets.size entries inner
  have size : opened.widgets.size = b.widgets.size + 1 := b.size_widgets_drawn_leaf ..
  have sizeBraced : braced.widgets.size = opened.widgets.size + Element.sizeAll left :=
    opened.size_widgets_drawn ..
  have sizeFilled : filled.widgets.size = braced.widgets.size + Element.sizeAll inner :=
    braced.size_widgets_drawn ..
  have views : braced.views.size = b.views.size + 1 :=
    (opened.size_views_drawn ..).trans (b.size_views_drawn ..)
  have region : b.region n.viewKind parent path style = (b.views.size, b.widgets.size, opened) :=
    b.region_eq inside path n style
  have first : opened.brace? b.widgets.size (braces.map (·.1)) =
      ((braces.map (·.1)).map fun _ => opened.widgets.size, braced) :=
    opened.brace?_eq (by omega) _
  have body : braced.body b.widgets.size contentStyle fill =
      (braced.widgets.size, braced.widgets.size + 1, filled) :=
    braced.body_eq (by omega) contentStyle (views ▸ fills) b.views.size
  have last : filled.brace? b.widgets.size (braces.map (·.2)) =
      ((braces.map (·.2)).map fun _ => filled.widgets.size,
        filled.drawn b.widgets.size [] right) :=
    filled.brace?_eq (by omega) _
  have bare : Element.parts inner = Element.parts content := by
    simp [inner, Element.leaf, Element.parts_cons, Element.parts_nil, Face.bare]
  have joined : filled.drawn b.widgets.size [] right = b.drawn parent ((path, n) :: entries)
      [.mk (Face.region style b.views.size).bare (left ++ (inner ++ right))] :=
    b.drawn_framed (path, n) rfl (parts_bareBraces _)
      (by rw [bare]; exact fun noted member => (owned noted member).2) right
  simp only [bracketed, region, first, body, last, joined]
  refine Prod.ext rfl (b.note_drawn ?_ ?_)
  · cases braces <;> rfl
  · -- Every part is one of the view itself, which nothing inside the content notes parts of.
    have later (id : Nat) (all : Array View) (f : View → View) :=
      View.assignAll_modify_of_lt id all f fun noted member => (owned noted member).1
    have second : braced.widgets.size = b.widgets.size + 1 + Element.sizeAll left := by
      rw [sizeBraced, size]
    cases braces with
    | none =>
        simp only [left, right, inner, bareBraces, Element.bracketed,
          Element.enclosed, Option.map_none, Option.toList_none, List.map_nil, List.nil_append,
          List.append_nil, List.cons_append, Element.facesAll, Element.faces, Element.leaf,
          View.assignAll, Face.bare, Face.region, Face.ellipsis, Face.content, later,
          modify_modify, second]
        rfl
    | some pair =>
        simp only [left, right, inner, bareBraces, Element.bracketed,
          Element.enclosed, Option.map_some, Option.toList_some, List.map_cons, List.map_nil,
          List.nil_append, List.append_nil, List.cons_append, Element.facesAll, Element.faces,
          Element.leaf, View.assignAll, View.assignAll_append, Face.bare, Face.region, Face.brace,
          Face.ellipsis, Face.content, later, modify_modify, Element.length_facesAll, sizeFilled,
          second, size]
        refine congrArg (Array.modify _ _) (funext fun v => ?_)
        simp only [View.assign, Element.sizeAll, Element.size, Nat.add_zero, List.append_assoc,
          List.cons_append, List.nil_append, View.mk.injEq, List.append_cancel_left_eq,
          List.cons.injEq, and_true, true_and]
        omega

theorem titled_eq (inside : parent < b.widgets.size) (path : Path) (name : String)
    (fields : List (String × Node)) (span : Option Span)
    {fill : Nat → Builder → Builder} {entries : List (Path × Node)} {content : List Element}
    (fills : Fills fill (b.views.size + 1) entries content)
    (owned : ∀ noted ∈ Element.parts content, b.views.size < noted.1 ∧
      noted.1 < b.views.size + 1 + entries.length) :
    b.titled parent path name fill =
      (b.views.size, b.drawn parent ((path, .object (some name) fields span) :: entries)
        [.titled b.views.size name content]) := by
  let own : Path × Node := (path, .object (some name) fields span)
  let head : Element := .mk (.group .objectHeader .block)
    [.leaf (Face.glyph b.views.size).bare, .leaf (.title b.views.size name),
      .leaf (Face.brace b.views.size "\x7b").bare]
  let inner : List Element := [.leaf (Face.ellipsis b.views.size).bare,
    .mk (Face.content .objectContent b.views.size).bare content]
  let right : Element := .leaf (Face.brace b.views.size "\x7d").bare
  let opened := b.drawn parent [own] [.leaf (Face.region .object b.views.size).bare]
  let headed := opened.drawn b.widgets.size [] [head]
  let filled := headed.drawn b.widgets.size entries inner
  have size : opened.widgets.size = b.widgets.size + 1 := b.size_widgets_drawn_leaf ..
  have sizeHeaded : headed.widgets.size = opened.widgets.size + 4 := opened.size_widgets_drawn ..
  have sizeFilled : filled.widgets.size = headed.widgets.size + Element.sizeAll inner :=
    headed.size_widgets_drawn ..
  have views : headed.views.size = b.views.size + 1 :=
    (opened.size_views_drawn ..).trans (b.size_views_drawn ..)
  have region : b.region .namedObject parent path .object =
      (b.views.size, b.widgets.size, opened) :=
    b.region_eq inside path (.object (some name) fields span) .object
  have header : opened.header b.widgets.size b.views.size name =
      (opened.widgets.size + 1, opened.widgets.size + 3, headed) :=
    opened.header_eq (by omega) b.views.size name
  have body : headed.body b.widgets.size .objectContent fill =
      (headed.widgets.size, headed.widgets.size + 1, filled) :=
    headed.body_eq (by omega) .objectContent (views ▸ fills) b.views.size
  have last : filled.trivia b.widgets.size "\x7d" .inline =
      (filled.widgets.size, filled.drawn b.widgets.size [] [right]) :=
    filled.push_eq (by omega) .trivia .inline (some "\x7d")
  have bare : Element.parts inner = Element.parts content := by
    simp [inner, Element.leaf, Element.parts_cons, Element.parts_nil, Face.bare]
  have unnoted : Element.parts [head] = [] := by
    simp [head, Element.leaf, Element.parts_cons, Element.parts_nil, Face.bare, Face.group,
      Face.title]
  have joined : filled.drawn b.widgets.size [] [right] = b.drawn parent (own :: entries)
      [.mk (Face.region .object b.views.size).bare (head :: (inner ++ [right]))] :=
    b.drawn_framed own rfl unnoted
      (by rw [bare]; exact fun noted member => (owned noted member).2) [right]
  simp only [titled, region, header, body, last, joined]
  refine Prod.ext rfl (b.note_drawn ?_ ?_)
  · rfl
  · have later (id : Nat) (all : Array View) (f : View → View) :=
      View.assignAll_modify_of_lt id all f fun noted member => (owned noted member).1
    simp only [head, right, inner, Element.titled, List.nil_append, List.append_nil,
      List.cons_append, Element.facesAll, Element.faces, Element.leaf, View.assignAll,
      View.assignAll_append, Face.bare, Face.region, Face.group, Face.glyph, Face.title, Face.brace,
      Face.ellipsis, Face.content, later, modify_modify, Element.length_facesAll, sizeFilled,
      sizeHeaded, size]
    refine congrArg (Array.modify _ _) (funext fun v => ?_)
    simp only [View.assign, Element.sizeAll, Element.size, Nat.add_zero, List.append_assoc,
      List.cons_append, List.nil_append, View.mk.injEq, List.append_cancel_left_eq,
      List.cons.injEq, and_true, true_and]
    omega

/-! ## Fields -/

/-- A value and the braces that its field draws around it. -/
theorem enclosed_eq (inside : parent < b.widgets.size) (path : Path) (n : Node)
    {draw : Bool → Builder → Nat × Builder}
    (draws : ∀ braces (d : Builder), parent < d.widgets.size → d.views.size = b.views.size →
      draw braces d =
        (b.views.size, d.drawn parent (n.outline path) [n.element b.views.size braces])) :
    b.enclosed parent n.fieldBraces? draw =
      (b.views.size, b.drawn parent (n.outline path)
        (Element.drawn b.views.size n.fieldBraces?.isNone n)) := by
  cases around : n.fieldBraces? with
  | none => exact draws true b inside rfl
  | some texts =>
      obtain ⟨left, right⟩ := texts
      let opened := b.drawn parent [] [.leaf (Face.brace b.views.size left).bare]
      let filled := opened.drawn parent (n.outline path) [n.element b.views.size false]
      have size : opened.widgets.size = b.widgets.size + 1 := b.size_widgets_drawn_leaf ..
      have sizeFilled : filled.widgets.size = opened.widgets.size +
          Element.sizeAll [n.element b.views.size false] :=
        opened.size_widgets_drawn ..
      have views : opened.views.size = b.views.size := b.size_views_drawn ..
      have first : b.trivia parent left .inline = (b.widgets.size, opened) :=
        b.push_eq inside .trivia .inline (some left)
      have middle : draw false opened = (b.views.size, filled) :=
        draws false opened (by omega) views
      have last : filled.trivia parent right .inline = (filled.widgets.size,
          filled.drawn parent [] [.leaf (Face.brace b.views.size right).bare]) :=
        filled.push_eq (by omega) .trivia .inline (some right)
      have owned : ∀ noted ∈ Element.parts [n.element b.views.size false],
          noted.1 < opened.views.size + (n.outline path).length := by
        intro noted member
        have drawn : noted ∈ Element.parts (Element.drawn b.views.size false n) := by
          rw [Element.parts_drawn_of_fieldBraces? around]
          exact List.mem_cons_of_mem _ (List.mem_append_left _ member)
        rw [views]
        exact (Element.bounds_of_mem_parts_drawn path drawn).2
      have joined : filled.drawn parent [] [.leaf (Face.brace b.views.size right).bare] =
          b.drawn parent (n.outline path) [.leaf (Face.brace b.views.size left).bare,
            n.element b.views.size false, .leaf (Face.brace b.views.size right).bare] := calc
        _ = opened.drawn parent (n.outline path ++ []) ([n.element b.views.size false] ++
              [.leaf (Face.brace b.views.size right).bare]) :=
          opened.drawn_append (by omega) [] _ owned
        _ = b.drawn parent (n.outline path ++ []) (.leaf (Face.brace b.views.size left).bare ::
              ([n.element b.views.size false] ++ [.leaf (Face.brace b.views.size right).bare])) :=
          b.drawn_leaf_append inside rfl _ _
        _ = _ := by rw [List.append_nil, List.singleton_append]
      -- The value notes other parts in its view, but no braces, so the left one can wait.
      have later (id : Nat) (all : Array View) (brace : Nat) :
          View.assignAll id (all.modify b.views.size fun v => v.assign brace .brace)
              (n.element b.views.size false).faces =
            (View.assignAll id all (n.element b.views.size false).faces).modify b.views.size
              fun v => v.assign brace .brace := by
        refine View.assignAll_modify id all fun part member id v => ?_
        have unbraced := Element.not_mem_parts_of_fieldBraces? around b.views.size
        cases part with
        | brace => exact absurd (by simpa [Element.parts, Element.facesAll] using member) unbraced
        | container | content | ellipsis | glyph => rfl
      simp only [enclosed, first, middle, last, joined, Option.isNone_some,
        Element.drawn_of_fieldBraces? around]
      refine Prod.ext rfl (b.note_drawn ?_ ?_)
      · rfl
      · simp only [List.nil_append, List.append_nil, List.cons_append, Element.facesAll,
          Element.faces, Element.leaf, View.assignAll, View.assignAll_append, Face.bare, Face.brace,
          later, modify_modify, Element.length_faces, sizeFilled, size]
        refine congrArg (Array.modify _ _) (funext fun v => ?_)
        simp [View.assign, Element.sizeAll]

theorem field_eq {content : Nat} (inside : content < b.widgets.size) (key : String) (path : Path)
    (value : Node) {draw : Nat → Bool → Builder → Nat × Builder}
    (draws : ∀ id braces (d : Builder), id < d.widgets.size → d.views.size = b.views.size →
      draw id braces d =
        (b.views.size, d.drawn id (value.outline path) [value.element b.views.size braces])) :
    b.field content key value draw =
      b.drawn content (value.outline path)
        [.field b.views.size key value
          (value.element b.views.size value.fieldBraces?.isNone)] := by
  let around := Element.drawn b.views.size value.fieldBraces?.isNone value
  let started := b.drawn content [] [.leaf (.group .contentItem .block)]
  let labelled := started.drawn b.widgets.size [] [.leaf (.key key none)]
  let held := labelled.drawn b.widgets.size [] [.leaf (.group .itemValue .inline)]
  have size : started.widgets.size = b.widgets.size + 1 := b.size_widgets_drawn_leaf ..
  have second : labelled.widgets.size = started.widgets.size + 1 :=
    started.size_widgets_drawn_leaf ..
  have third : held.widgets.size = labelled.widgets.size + 1 :=
    labelled.size_widgets_drawn_leaf ..
  have views : held.views.size = b.views.size :=
    (labelled.size_views_drawn ..).trans
      ((started.size_views_drawn ..).trans (b.size_views_drawn ..))
  have item : b.push content .contentItem .block none = (b.widgets.size, started) :=
    b.push_eq inside .contentItem .block none
  have label : started.push b.widgets.size .itemKey .inline (some key) =
      (started.widgets.size, labelled) :=
    started.push_eq (by omega) .itemKey .inline (some key)
  have holder : labelled.push b.widgets.size .itemValue .inline none =
      (labelled.widgets.size, held) :=
    labelled.push_eq (by omega) .itemValue .inline none
  have child : held.enclosed labelled.widgets.size value.fieldBraces?
      (draw labelled.widgets.size) =
        (b.views.size, held.drawn labelled.widgets.size (value.outline path) around) := by
    have drawsHeld := draws labelled.widgets.size
    rw [← views] at drawsHeld
    rw [held.enclosed_eq (by omega) path value drawsHeld, views]
  have valued : held.drawn labelled.widgets.size (value.outline path) around =
      labelled.drawn b.widgets.size (value.outline path)
        [.mk (.group .itemValue .inline) around] :=
    labelled.drawn_mk b.widgets.size [] (value.outline path) rfl around
  -- The key becomes a button after the value was added, and could have been one before.
  have pressed : ((labelled.drawn b.widgets.size (value.outline path)
      [.mk (.group .itemValue .inline) around]).addClass started.widgets.size .keyButton).setClick
        started.widgets.size b.views.size =
      (started.drawn b.widgets.size [] [.leaf (.key key (some b.views.size))]).drawn
        b.widgets.size (value.outline path) [.mk (.group .itemValue .inline) around] := by
    let classed : Face := { Face.key key none with extra := [.keyButton] }
    have marked : labelled.change started.widgets.size
        (fun w => { w with extra := w.extra ++ [.keyButton] }) =
          started.drawn b.widgets.size [] [.leaf classed] :=
      started.change_drawn_leaf b.widgets.size rfl rfl
    have clicked : (started.drawn b.widgets.size [] [.leaf classed]).change started.widgets.size
        (fun w => { w with click := some b.views.size }) =
          started.drawn b.widgets.size [] [.leaf (.key key (some b.views.size))] :=
      started.change_drawn_leaf b.widgets.size rfl rfl
    have room := started.size_widgets_drawn_leaf b.widgets.size [] classed
    rw [addClass, setClick, change_drawn labelled (by omega) (fun _ _ => rfl), marked,
      change_drawn _ (by omega) (fun _ _ => rfl), clicked]
  have whole (button : Option Nat) :
      (started.drawn b.widgets.size [] [.leaf (.key key button)]).drawn b.widgets.size
          (value.outline path) [.mk (.group .itemValue .inline) around] =
        b.drawn content (value.outline path) [.mk (.group .contentItem .block)
          [.leaf (.key key button), .mk (.group .itemValue .inline) around]] := calc
    _ = started.drawn b.widgets.size (value.outline path)
          [.leaf (.key key button), .mk (.group .itemValue .inline) around] :=
      started.drawn_leaf_append (by omega) rfl _ _
    _ = _ := b.drawn_mk content [] (value.outline path) rfl _
  simp only [field, item, label, holder, child, valued, pressed, Element.field,
    Element.enclosed_fieldBraces?]
  cases value.isExpandable with
  | true => exact whole (some b.views.size)
  | false => exact whole none

/-! ## Nodes -/

mutual

theorem node_eq (b : Builder) {parent : Nat} (inside : parent < b.widgets.size) (braces : Bool)
    (path : Path) : ∀ n : Node,
      b.node parent braces path n =
        (b.views.size, b.drawn parent (n.outline path) [n.element b.views.size braces])
  | .leaf value => b.single_eq inside path (.leaf value) _ _
  | .array [] => b.single_eq inside path (.array []) _ _
  | .array (first :: rest) => by
      have fills : Fills (fun content d => d.items content path 0 (first :: rest))
          (b.views.size + 1) (Node.outlineItems path 0 (first :: rest))
          (Node.itemElements (b.views.size + 1) (first :: rest)) := by
        intro d id room next
        rw [← next]
        exact items_eq d room path 0 (first :: rest)
      exact b.bracketed_eq inside path (.array (first :: rest)) .array .arrayContent _ fills
        fun noted member => bounds_of_mem_dueParts
          ((Element.parts_itemElements_perm path _ 0 (first :: rest)).mem_iff.1 member)
  | .object name fields span => by
      have fills : Fills (fun content d => d.fields content path 0 fields) (b.views.size + 1)
          (Node.outlineFields path 0 fields) (Node.fieldElements (b.views.size + 1) fields) := by
        intro d id room next
        rw [← next]
        exact fields_eq d room path 0 fields
      have owned : ∀ noted ∈ Element.parts (Node.fieldElements (b.views.size + 1) fields),
          b.views.size < noted.1 ∧
            noted.1 < b.views.size + 1 + (Node.outlineFields path 0 fields).length :=
        fun _ member => bounds_of_mem_dueParts
          ((Element.parts_fieldElements_perm path (b.views.size + 1) 0 fields).mem_iff.1 member)
      cases name with
      | some name => exact b.titled_eq inside path name fields span fills owned
      | none =>
          exact b.bracketed_eq inside path (.object none fields span) .object .objectContent _
            fills owned

theorem items_eq (b : Builder) {content : Nat} (inside : content < b.widgets.size) (path : Path)
    (i : Nat) : ∀ items : List Node,
      b.items content path i items =
        b.drawn content (Node.outlineItems path i items) (Node.itemElements b.views.size items)
  | [] => (b.drawn_nil content).symm
  | item :: rest => by
      let started := b.drawn content [] [.leaf (.group .arrayItem .block)]
      have size : started.widgets.size = b.widgets.size + 1 := b.size_widgets_drawn_leaf ..
      have views : started.views.size = b.views.size := b.size_views_drawn ..
      have slot : b.push content .arrayItem .block none = (b.widgets.size, started) :=
        b.push_eq inside .arrayItem .block none
      have room : b.widgets.size < started.widgets.size := by omega
      have inner := node_eq started room true (path ++ [.item i]) item
      have valued : started.drawn b.widgets.size (item.outline (path ++ [.item i]))
          [item.element b.views.size true] = b.drawn content (item.outline (path ++ [.item i]))
            [.item (item.element b.views.size true)] :=
        b.drawn_mk content [] _ rfl _
      rw [views, valued] at inner
      have owned : ∀ noted ∈ Element.parts [.item (item.element b.views.size true)],
          noted.1 < b.views.size + (item.outline (path ++ [.item i])).length := by
        intro noted member
        rw [Element.parts_item, Element.parts_nil, List.append_nil, ← Element.drawn_true] at member
        exact (Element.bounds_of_mem_parts_drawn _ member).2
      simp only [items, slot, inner]
      rw [items_eq _ (Nat.lt_of_lt_of_le inside (by simp [size_widgets_drawn])) path (i + 1) rest,
        size_views_drawn, Node.length_outline, b.drawn_append inside _ _ owned]
      rfl

theorem fields_eq (b : Builder) {content : Nat} (inside : content < b.widgets.size) (path : Path)
    (i : Nat) : ∀ fields : List (String × Node),
      b.fields content path i fields =
        b.drawn content (Node.outlineFields path i fields)
          (Node.fieldElements b.views.size fields)
  | [] => (b.drawn_nil content).symm
  | (key, value) :: rest => by
      let element := value.element b.views.size value.fieldBraces?.isNone
      have first := b.field_eq inside key (path ++ [Step.field i]) value
        fun id braces d room next => next ▸ node_eq d room braces (path ++ [Step.field i]) value
      have owned : ∀ noted ∈ Element.parts [.field b.views.size key value element],
          noted.1 < b.views.size + (value.outline (path ++ [.field i])).length := by
        intro noted member
        rw [Element.parts_field, Element.parts_nil, List.append_nil] at member
        exact (Element.bounds_of_mem_parts_drawn _ member).2
      simp only [fields, first]
      rw [fields_eq _ (Nat.lt_of_lt_of_le inside (by simp [size_widgets_drawn])) path (i + 1) rest,
        size_views_drawn, Node.length_outline, b.drawn_append inside _ _ owned]
      rfl

end

end Builder

/-- **Views step by step.** Building a view one widget and one view at a time gives the view
that is rendered by numbering elements. -/
theorem TreeView.build_eq_render (tree : Node) : build tree = render tree := by
  let start : Builder := ⟨WidgetTree.empty.push none .container .block none, #[]⟩
  have built := start.node_eq (show rootWidget < start.widgets.size from Nat.one_pos) true [] tree
  have widgets : (start.drawn rootWidget (tree.outline []) [tree.element 0 true]).widgets =
      (render tree).widgets := by
    simp [start, Builder.drawn, WidgetTree.grow, WidgetTree.push, WidgetTree.empty,
      WidgetTree.size, rootWidget, render, Node.rootElement, Element.widgets, Face.root, Face.link,
      Widget.adopt]
  have views : (start.drawn rootWidget (tree.outline []) [tree.element 0 true]).views =
      (render tree).views := by
    simp [start, Builder.drawn, render, Node.rootElement, Element.faces, View.assignAll,
      Face.root, freshViews, WidgetTree.push, WidgetTree.empty, WidgetTree.size]
  change ({ tree
            widgets := (start.node rootWidget true [] tree).2.widgets
            views := (start.node rootWidget true [] tree).2.views } : TreeView) = render tree
  rw [built]
  exact congr (congrArg (TreeView.mk tree) widgets) views

end TreeLens
