import TreeLens.View.Element

/-!
# Numbered elements

What the numbers of an element's widgets depend on. Changing the faces of an element
leaves all numbers and links as they are (`exists_link_of_getElem?_faces`), so a widget
tree that holds the widgets of an element can be read as that element again
(`WidgetTree.HoldsFrom`).
-/

namespace TreeLens

namespace Element

/-! ## Sizes -/

mutual

theorem length_widgets (parent : Option Nat) (id : Nat) :
    ∀ e : Element, (e.widgets parent id).length = e.size
  | .mk face children => by
      simp only [widgets, size, List.length_cons, length_widgetsAll id (id + 1) children]
      omega

theorem length_widgetsAll (parent id : Nat) :
    ∀ es : List Element, (widgetsAll parent id es).length = sizeAll es
  | [] => rfl
  | e :: rest => by
      simp only [widgetsAll, sizeAll, List.length_append, length_widgets (some parent) id e,
        length_widgetsAll parent (id + e.size) rest]

end

mutual

theorem length_faces : ∀ e : Element, e.faces.length = e.size
  | .mk face children => by
      simp only [faces, size, List.length_cons, length_facesAll children]
      omega

theorem length_facesAll : ∀ es : List Element, (facesAll es).length = sizeAll es
  | [] => rfl
  | e :: rest => by
      simp only [facesAll, sizeAll, List.length_append, length_faces e, length_facesAll rest]

end

theorem facesAll_append (es ds : List Element) :
    facesAll (es ++ ds) = facesAll es ++ facesAll ds := by
  induction es with
  | nil => rfl
  | cons e rest ih => simp only [List.cons_append, facesAll, ih, List.append_assoc]

/-! ## Changing faces -/

mutual

/-- The element with every face changed. -/
def mapFaces (g : Face → Face) : Element → Element
  | .mk face children => .mk (g face) (mapFacesAll g children)

/-- The elements with every face changed. -/
def mapFacesAll (g : Face → Face) : List Element → List Element
  | [] => []
  | e :: rest => e.mapFaces g :: mapFacesAll g rest

end

mutual

theorem size_mapFaces (g : Face → Face) : ∀ e : Element, (e.mapFaces g).size = e.size
  | .mk face children => by simp only [mapFaces, size, sizeAll_mapFacesAll g children]

theorem sizeAll_mapFacesAll (g : Face → Face) :
    ∀ es : List Element, sizeAll (mapFacesAll g es) = sizeAll es
  | [] => rfl
  | e :: rest => by
      simp only [mapFacesAll, sizeAll, size_mapFaces g e, sizeAll_mapFacesAll g rest]

end

theorem numbers_mapFacesAll (g : Face → Face) (id : Nat) (es : List Element) :
    numbers id (mapFacesAll g es) = numbers id es := by
  induction es generalizing id with
  | nil => rfl
  | cons e rest ih => simp only [mapFacesAll, numbers, size_mapFaces, ih]

mutual

theorem mapFaces_eq_self {g : Face → Face} :
    ∀ e : Element, (∀ face ∈ e.faces, g face = face) → e.mapFaces g = e
  | .mk face children, fixed => by
      simp only [faces, List.mem_cons, forall_eq_or_imp] at fixed
      simp only [mapFaces, fixed.1, mapFacesAll_eq_self children fixed.2]

theorem mapFacesAll_eq_self {g : Face → Face} :
    ∀ es : List Element, (∀ face ∈ facesAll es, g face = face) → mapFacesAll g es = es
  | [], _ => rfl
  | e :: rest, fixed => by
      simp only [facesAll, List.mem_append] at fixed
      rw [mapFacesAll, mapFaces_eq_self e fun face member => fixed face (.inl member),
        mapFacesAll_eq_self rest fun face member => fixed face (.inr member)]

end

mutual

/-- The links of a widget do not depend on what the faces are. -/
theorem exists_link_of_getElem?_faces {face : Face} (parent : Option Nat) (id : Nat) :
    ∀ (e : Element) (k : Nat), e.faces[k]? = some face →
      ∃ above below, ∀ g : Face → Face,
        ((e.mapFaces g).widgets parent id)[k]? = some ((g face).link above below)
  | .mk own children, 0, found => by
      simp only [faces, List.getElem?_cons_zero, Option.some.injEq] at found
      subst found
      refine ⟨parent, numbers (id + 1) children, fun g => ?_⟩
      simp only [mapFaces, widgets, numbers_mapFacesAll, List.getElem?_cons_zero]
  | .mk own children, k + 1, found => by
      simp only [faces, List.getElem?_cons_succ] at found
      obtain ⟨above, below, linked⟩ := exists_link_of_getElem?_facesAll id (id + 1) children k found
      refine ⟨above, below, fun g => ?_⟩
      simp only [mapFaces, widgets, List.getElem?_cons_succ, linked g]

theorem exists_link_of_getElem?_facesAll {face : Face} (parent id : Nat) :
    ∀ (es : List Element) (k : Nat), (facesAll es)[k]? = some face →
      ∃ above below, ∀ g : Face → Face,
        (widgetsAll parent id (mapFacesAll g es))[k]? = some ((g face).link above below)
  | [], k, found => by simp [facesAll] at found
  | e :: rest, k, found => by
      simp only [facesAll] at found
      by_cases inside : k < e.size
      · rw [List.getElem?_append_left (by rwa [length_faces])] at found
        obtain ⟨above, below, linked⟩ :=
          exists_link_of_getElem?_faces (some parent) id e k found
        refine ⟨above, below, fun g => ?_⟩
        rw [mapFacesAll, widgetsAll,
          List.getElem?_append_left (by rwa [length_widgets, size_mapFaces]), linked g]
      · rw [List.getElem?_append_right (by rw [length_faces]; omega), length_faces] at found
        obtain ⟨above, below, linked⟩ :=
          exists_link_of_getElem?_facesAll parent (id + e.size) rest (k - e.size) found
        refine ⟨above, below, fun g => ?_⟩
        rw [mapFacesAll, widgetsAll,
          List.getElem?_append_right (by rw [length_widgets, size_mapFaces]; omega),
          length_widgets, size_mapFaces, linked g]

end

end Element

/-! ## Widget trees that hold an element -/

/-- The widgets from a number on begin with the given ones. -/
def WidgetTree.HoldsFrom (t : WidgetTree) (id : Nat) (widgets : List Widget) : Prop :=
  ∀ k w, widgets[k]? = some w → t.widgets[id + k]? = some w

namespace WidgetTree.HoldsFrom

theorem of_toArray (widgets : List Widget) : HoldsFrom ⟨widgets.toArray⟩ 0 widgets := by
  intro k w found
  simpa using found

theorem head {t : WidgetTree} {id : Nat} {w : Widget} {rest : List Widget}
    (holds : t.HoldsFrom id (w :: rest)) : t.widgets[id]? = some w :=
  holds 0 w rfl

theorem tail {t : WidgetTree} {id : Nat} {w : Widget} {rest : List Widget}
    (holds : t.HoldsFrom id (w :: rest)) : t.HoldsFrom (id + 1) rest := by
  intro k v found
  rw [Nat.add_right_comm]
  exact holds (k + 1) v found

theorem left {t : WidgetTree} {id : Nat} {front back : List Widget}
    (holds : t.HoldsFrom id (front ++ back)) : t.HoldsFrom id front := by
  intro k w found
  have inside : k < front.length := (List.getElem?_eq_some_iff.1 found).1
  exact holds k w (by rw [List.getElem?_append_left inside, found])

theorem right {t : WidgetTree} {id : Nat} {front back : List Widget}
    (holds : t.HoldsFrom id (front ++ back)) : t.HoldsFrom (id + front.length) back := by
  intro k w found
  rw [Nat.add_assoc]
  refine holds (front.length + k) w ?_
  rw [List.getElem?_append_right (Nat.le_add_right ..), Nat.add_sub_cancel_left, found]

end WidgetTree.HoldsFrom

end TreeLens
