import TreeLens.Proofs.Widget.Ancestors

/-!
# Elements inside elements

`Element.Inside` says where an element stands inside another one: the number of its widget
and the faces around it, from the inside to the outside. In a tree that holds the widgets of
the outer element, these faces decide what lies on the way up from the inner one: whether it
can be seen (`isVisible_of_holdsFrom`) and in which regions it lies (`Inside.regionsAt_eq`).
-/

namespace TreeLens

/-! ## Visible widgets -/

namespace WidgetTree

/-- A widget can be seen if it is not hidden itself and its parent can be seen. -/
theorem isVisible_of_get? {t : WidgetTree} {id : Nat} {w : Widget} (found : t.get? id = some w)
    (above : ∀ p ∈ w.parent, p < id ∧ (t.get? p).isSome) :
    t.isVisible id = (w.display != .none && w.parent.all t.isVisible) := by
  rw [isVisible, ancestors_of_get? found, found, Option.isSome_some, Bool.true_and, List.all_cons,
    found, Option.all_some]
  cases parent : w.parent with
  | none => rfl
  | some p =>
      obtain ⟨lower, there⟩ := above p parent
      rw [Option.elim_some, if_pos lower, Option.all_some, isVisible, there, Bool.true_and]

end WidgetTree

namespace Element

/-! ## Inside -/

/-- An element stands inside another one: its widget has number `k` there, and `faces` are
those around it, innermost first. -/
inductive Inside : Element → Nat → Element → List Face → Prop
  | self (e : Element) : Inside e 0 e []
  | child {e inner : Element} {k : Nat} {faces : List Face} (face : Face)
      (before after : List Element) (inside : Inside e k inner faces) :
      Inside (.mk face (before ++ e :: after)) (1 + sizeAll before + k) inner (faces ++ [face])

theorem sizeAll_append (es ds : List Element) : sizeAll (es ++ ds) = sizeAll es + sizeAll ds := by
  induction es with
  | nil => simp [sizeAll]
  | cons e rest ih => simp only [List.cons_append, sizeAll, ih, Nat.add_assoc]

theorem widgetsAll_append (parent id : Nat) (es ds : List Element) :
    widgetsAll parent id (es ++ ds) =
      widgetsAll parent id es ++ widgetsAll parent (id + sizeAll es) ds := by
  induction es generalizing id with
  | nil => rfl
  | cons e rest ih =>
      simp only [List.cons_append, widgetsAll, ih, sizeAll, List.append_assoc, Nat.add_assoc]

theorem mapFacesAll_append (g : Face → Face) (es ds : List Element) :
    mapFacesAll g (es ++ ds) = mapFacesAll g es ++ mapFacesAll g ds := by
  induction es with
  | nil => rfl
  | cons e rest ih => simp only [List.cons_append, mapFacesAll, ih]

theorem regionsAtAll_append_right (es ds : List Element) (k : Nat) :
    regionsAtAll (es ++ ds) (sizeAll es + k) = regionsAtAll ds k := by
  induction es with
  | nil => simp [sizeAll]
  | cons e rest ih =>
      rw [List.cons_append, regionsAtAll, sizeAll, if_neg (by omega), Nat.add_assoc,
        Nat.add_sub_cancel_left, ih]

namespace Inside

variable {e inner deep : Element} {k j : Nat} {faces more : List Face}

theorem trans (outside : Inside e k inner faces) (inside : Inside inner j deep more) :
    Inside e (k + j) deep (more ++ faces) := by
  induction outside with
  | self e => simpa using inside
  | child face before after _ ih =>
      rw [Nat.add_assoc, ← List.append_assoc]
      exact .child face before after (ih inside)

theorem mapFaces (g : Face → Face) (inside : Inside e k inner faces) :
    Inside (e.mapFaces g) k (inner.mapFaces g) (faces.map g) := by
  induction inside with
  | self e => exact .self _
  | child face before after _ ih =>
      rw [Element.mapFaces, mapFacesAll_append, mapFacesAll, List.map_append,
        ← sizeAll_mapFacesAll g before]
      exact .child _ _ _ ih

theorem add_size_le (inside : Inside e k inner faces) : k + inner.size ≤ e.size := by
  induction inside with
  | self e => omega
  | child face before after _ ih =>
      rw [size, sizeAll_append, sizeAll]
      omega

/-- The widget with the number of the inner element has the inner element's face. -/
theorem getElem?_faces {own : Face} {children : List Element}
    (inside : Inside e k (.mk own children) faces) : e.faces[k]? = some own := by
  generalize same : Element.mk own children = inner at inside
  induction inside with
  | self e =>
      subst same
      rfl
  | @child e inner k faces face before after inside ih =>
      have bound := inside.add_size_le
      subst same
      rw [size] at bound
      have next : 1 + sizeAll before + k = sizeAll before + k + 1 := by omega
      rw [Element.faces, facesAll_append, facesAll, next, List.getElem?_cons_succ,
        List.getElem?_append_right (by rw [length_facesAll]; omega), length_facesAll,
        Nat.add_sub_cancel_left, List.getElem?_append_left (by rw [length_faces]; omega), ih rfl]

/-- The regions around the inner element are those of the faces around it. -/
theorem regionsAt_eq {own : Face} {children : List Element}
    (inside : Inside e k (.mk own children) faces) :
    e.regionsAt k = (own :: faces).filterMap Face.hover := by
  generalize same : Element.mk own children = inner at inside
  induction inside with
  | self e =>
      subst same
      rw [regionsAt]
      cases hover : own.hover <;> simp [hover]
  | @child e inner k faces face before after inside ih =>
      have bound := inside.add_size_le
      subst same
      rw [size] at bound
      have next : 1 + sizeAll before + k = sizeAll before + k + 1 := by omega
      rw [next, regionsAt, regionsAtAll_append_right, regionsAtAll, if_pos (by omega), ih rfl,
        ← List.cons_append, List.filterMap_append]
      cases hover : face.hover <;> simp [hover]

end Inside

end Element

/-- In a tree that holds the widgets of an element, one inside can be seen if no face from it
outwards is hidden, and what the whole stands in can be seen. -/
theorem WidgetTree.isVisible_of_holdsFrom {t : WidgetTree} {e : Element} {own : Face}
    {children : List Element} {k : Nat} {faces : List Face}
    (inside : Element.Inside e k (.mk own children) faces) (parent : Option Nat) (id : Nat)
    (above : ∀ p ∈ parent, p < id ∧ (t.get? p).isSome)
    (holds : t.HoldsFrom id (e.widgets parent id)) :
    t.isVisible (id + k) =
      ((own :: faces).all (fun face => face.display != .none) && parent.all t.isVisible) := by
  generalize same : Element.mk own children = inner at inside
  induction inside generalizing parent id with
  | self e =>
      subst same
      rw [Element.widgets] at holds
      rw [Nat.add_zero, List.all_cons, List.all_nil, Bool.and_true]
      exact isVisible_of_get? holds.head above
  | @child e inner k faces face before after inside ih =>
      rw [Element.widgets] at holds
      have own : t.isVisible id = (face.display != .none && parent.all t.isVisible) :=
        isVisible_of_get? holds.head above
      have there : (t.get? id).isSome := by
        rw [show t.get? id = _ from holds.head]
        rfl
      have below := holds.tail
      rw [Element.widgetsAll_append] at below
      have rest := below.right
      rw [Element.length_widgetsAll, Element.widgetsAll] at rest
      have up := ih (some id) (id + 1 + Element.sizeAll before)
        (by rintro p ⟨⟩; exact ⟨by omega, there⟩) rest.left same
      rw [show id + (1 + Element.sizeAll before + k) = id + 1 + Element.sizeAll before + k by omega,
        up, Option.all_some, own, ← List.cons_append, List.all_append, Bool.and_assoc]
      simp

end TreeLens
