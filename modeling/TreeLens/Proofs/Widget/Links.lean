import TreeLens.Proofs.Widget.Inside

/-!
# Links between widgets

In a tree that holds the widgets of an element, the links lead along the nesting of the element.
Every number belongs to exactly one element inside (`exists_inside_of_lt`, `Inside.unique`), the
face around it is that of its parent (`Inside.exists_around`), and so a widget that names another
one as its parent stands in a child of that one's element (`exists_child_of_parent`). A property
of faces and the faces around them can be checked along the nesting (`AllAround`).
-/

namespace TreeLens

namespace Element

/-! ## Numbers -/

mutual

theorem exists_inside_of_lt :
    ∀ (e : Element) (k : Nat), k < e.size →
      ∃ own children faces, Inside e k (.mk own children) faces
  | .mk face children, 0, _ => ⟨face, children, [], .self _⟩
  | .mk face children, k + 1, inside => by
      rw [size] at inside
      obtain ⟨before, e, after, j, own, inner, faces, rfl, rfl, found⟩ :=
        exists_inside_of_lt_sizeAll children k (by omega)
      refine ⟨own, inner, faces ++ [face], ?_⟩
      rw [show sizeAll before + j + 1 = 1 + sizeAll before + j by omega]
      exact .child face before after found

theorem exists_inside_of_lt_sizeAll :
    ∀ (es : List Element) (k : Nat), k < sizeAll es →
      ∃ before e after j own children faces, es = before ++ e :: after ∧ k = sizeAll before + j ∧
        Inside e j (.mk own children) faces
  | [], k, inside => by simp [sizeAll] at inside
  | e :: rest, k, inside => by
      rw [sizeAll] at inside
      by_cases here : k < e.size
      · obtain ⟨own, children, faces, found⟩ := exists_inside_of_lt e k here
        exact ⟨[], e, rest, k, own, children, faces, rfl, by simp [sizeAll], found⟩
      · obtain ⟨before, d, after, j, own, children, faces, rfl, number, found⟩ :=
          exists_inside_of_lt_sizeAll rest (k - e.size) (by omega)
        refine ⟨e :: before, d, after, j, own, children, faces, rfl, ?_, found⟩
        rw [sizeAll]
        omega

end

theorem size_pos (e : Element) : 0 < e.size := by
  obtain ⟨face, children⟩ := e
  rw [size]
  omega

/-- A number in a row of elements belongs to one of them. -/
theorem eq_of_append_cons_eq {before after before' after' : List Element} {e d : Element}
    {k j : Nat} (row : before ++ e :: after = before' ++ d :: after')
    (number : sizeAll before + k = sizeAll before' + j) (inside : k < e.size)
    (inside' : j < d.size) : before = before' ∧ e = d ∧ after = after' ∧ k = j := by
  induction before generalizing before' with
  | nil =>
      cases before' with
      | nil =>
          cases row
          simp only [sizeAll] at number
          exact ⟨rfl, rfl, rfl, by omega⟩
      | cons first rest =>
          cases row
          simp only [sizeAll] at number
          omega
  | cons first rest ih =>
      cases before' with
      | nil =>
          cases row
          simp only [sizeAll] at number
          omega
      | cons first' rest' =>
          obtain ⟨rfl, later⟩ := List.cons.inj row
          simp only [sizeAll] at number
          obtain ⟨rfl, rfl, rfl, rfl⟩ := ih later (by omega)
          exact ⟨rfl, rfl, rfl, rfl⟩

namespace Inside

variable {e inner : Element} {k : Nat} {faces : List Face}

theorem lt_size (inside : Inside e k inner faces) : k < e.size := by
  have bound := inside.add_size_le
  have positive := inner.size_pos
  omega

/-- A number belongs to one element inside. -/
theorem unique {other : Element} {faces' : List Face} (one : Inside e k inner faces)
    (two : Inside e k other faces') : inner = other ∧ faces = faces' := by
  induction one generalizing other faces' with
  | self e =>
      generalize zero : 0 = j at two
      cases two with
      | self => exact ⟨rfl, rfl⟩
      | child face before after inside => omega
  | @child e inner k faces face before after inside ih =>
      generalize whole : Element.mk face (before ++ e :: after) = outer at two
      generalize number : 1 + sizeAll before + k = j at two
      cases two with
      | self => omega
      | @child d _ j _ face' before' after' inside' =>
          obtain ⟨rfl, row⟩ := Element.mk.inj whole
          obtain ⟨rfl, rfl, rfl, rfl⟩ :=
            eq_of_append_cons_eq row (by omega) inside.lt_size inside'.lt_size
          obtain ⟨rfl, rfl⟩ := ih inside'
          exact ⟨rfl, rfl⟩

theorem eq_of_faces_nil (inside : Inside e k inner []) : k = 0 ∧ inner = e := by
  generalize none : ([] : List Face) = faces at inside
  cases inside with
  | self => exact ⟨rfl, rfl⟩
  | child => simp at none

/-- The innermost of the faces around an element is that of the element that holds it. -/
theorem exists_around {face : Face} {rest : List Face} (inside : Inside e k inner (face :: rest)) :
    ∃ j before after, Inside e j (.mk face (before ++ inner :: after)) rest ∧
      k = j + (1 + sizeAll before) := by
  generalize around : face :: rest = faces at inside
  induction inside generalizing rest with
  | self e => cases around
  | @child e inner k faces outer before after inside ih =>
      cases faces with
      | nil =>
          cases around
          obtain ⟨rfl, rfl⟩ := inside.eq_of_faces_nil
          exact ⟨0, before, after, .self _, by omega⟩
      | cons first others =>
          obtain ⟨rfl, rfl⟩ := List.cons.inj around
          obtain ⟨j, front, back, found, number⟩ := ih rfl
          exact ⟨_, front, back, .child outer before after found, by omega⟩

end Inside

/-! ## Faces and the faces around them -/

mutual

/-- Every face of an element has a property together with the faces around it, innermost first,
where `around` are those around the element. -/
def AllAround (P : Face → List Face → Prop) (around : List Face) : Element → Prop
  | .mk face children => P face around ∧ AllAroundAll P (face :: around) children

def AllAroundAll (P : Face → List Face → Prop) (around : List Face) : List Element → Prop
  | [] => True
  | e :: rest => e.AllAround P around ∧ AllAroundAll P around rest

end

theorem allAroundAll_append {P : Face → List Face → Prop} {around : List Face}
    {es ds : List Element} :
    AllAroundAll P around (es ++ ds) ↔ AllAroundAll P around es ∧ AllAroundAll P around ds := by
  induction es with
  | nil => simp [AllAroundAll]
  | cons e rest ih => simp only [List.cons_append, AllAroundAll, ih, and_assoc]

theorem AllAround.of_inside {P : Face → List Face → Prop} {e : Element} {around faces : List Face}
    {own : Face} {children : List Element} {k : Nat} (all : e.AllAround P around)
    (inside : Inside e k (.mk own children) faces) : P own (faces ++ around) := by
  generalize same : Element.mk own children = inner at inside
  induction inside generalizing around with
  | self e =>
      subst same
      exact all.1
  | @child e inner k faces face before after inside ih =>
      obtain ⟨-, below⟩ := all
      obtain ⟨-, here, -⟩ := allAroundAll_append.1 below
      rw [List.append_assoc]
      exact ih here same

/-! ## Numbers of children -/

theorem exists_of_getElem?_numbers {id i item : Nat} {es : List Element}
    (found : (numbers id es)[i]? = some item) :
    ∃ before e after, es = before ++ e :: after ∧ before.length = i ∧
      item = id + sizeAll before := by
  induction es generalizing id i with
  | nil => simp [numbers] at found
  | cons first rest ih =>
      cases i with
      | zero =>
          cases found
          exact ⟨[], first, rest, rfl, rfl, rfl⟩
      | succ i =>
          obtain ⟨before, e, after, rfl, rfl, rfl⟩ := ih found
          exact ⟨first :: before, e, after, rfl, rfl, by rw [sizeAll, Nat.add_assoc]⟩

theorem getElem?_numbers_length (id : Nat) (before : List Element) (e : Element)
    (after : List Element) :
    (numbers id (before ++ e :: after))[before.length]? = some (id + sizeAll before) := by
  induction before generalizing id with
  | nil => rfl
  | cons first rest ih =>
      rw [List.cons_append, numbers, List.length_cons, List.getElem?_cons_succ, ih, sizeAll,
        Nat.add_assoc]

end Element

/-! ## Links -/

/-- The widgets of an element with changed faces, from number zero on. -/
def Element.toTree (g : Face → Face) (e : Element) : WidgetTree :=
  ⟨((e.mapFaces g).widgets none 0).toArray⟩

namespace WidgetTree

open Element (Inside numbers sizeAll)

theorem HoldsFrom.child {t : WidgetTree} {e : Element} {face : Face} {before after : List Element}
    {parent : Option Nat} {id : Nat}
    (holds : t.HoldsFrom id ((Element.mk face (before ++ e :: after)).widgets parent id)) :
    t.HoldsFrom (id + (1 + sizeAll before)) (e.widgets (some id) (id + (1 + sizeAll before))) := by
  rw [Element.widgets] at holds
  have below := holds.tail
  rw [Element.widgetsAll_append] at below
  have rest := below.right
  rw [Element.length_widgetsAll, Element.widgetsAll, Nat.add_assoc] at rest
  exact rest.left

theorem HoldsFrom.inside {t : WidgetTree} {e inner : Element} {parent : Option Nat} {id k : Nat}
    {faces : List Face} (holds : t.HoldsFrom id (e.widgets parent id))
    (inside : Inside e k inner faces) :
    ∃ above, t.HoldsFrom (id + k) (inner.widgets above (id + k)) := by
  induction inside generalizing parent id with
  | self e => exact ⟨parent, holds⟩
  | child face before after _ ih =>
      rw [← Nat.add_assoc]
      exact ih holds.child

end WidgetTree

namespace Element

variable {e : Element} {g : Face → Face} {k : Nat} {own face : Face}
  {children before after : List Element} {faces : List Face}

theorem exists_holdsFrom_toTree (g : Face → Face) {inner : Element}
    (inside : Inside e k inner faces) :
    ∃ above, (e.toTree g).HoldsFrom k ((inner.mapFaces g).widgets above k) := by
  have holds := WidgetTree.HoldsFrom.of_toArray ((e.mapFaces g).widgets none 0)
  obtain ⟨above, held⟩ := holds.inside (inside.mapFaces g)
  rw [Nat.zero_add] at held
  exact ⟨above, held⟩

/-- The widget of an element inside has its face, and links to its children. -/
theorem exists_get?_toTree (inside : Inside e k (.mk own children) faces) :
    ∃ above, (e.toTree g).get? k = some ((g own).link above (numbers (k + 1) children)) := by
  obtain ⟨above, holds⟩ := exists_holdsFrom_toTree g inside
  rw [mapFaces, widgets, numbers_mapFacesAll] at holds
  exact ⟨above, holds.head⟩

/-- The widget of a child links to the parent as well. -/
theorem get?_toTree_child
    (inside : Inside e k (.mk face (before ++ .mk own children :: after)) faces) :
    (e.toTree g).get? (k + (1 + sizeAll before)) =
      some ((g own).link (some k) (numbers (k + (1 + sizeAll before) + 1) children)) := by
  obtain ⟨above, holds⟩ := exists_holdsFrom_toTree g inside
  rw [mapFaces, mapFacesAll_append, mapFacesAll] at holds
  have child := holds.child
  rw [sizeAll_mapFacesAll, mapFaces, widgets, numbers_mapFacesAll] at child
  exact child.head

theorem exists_inside_of_get?_toTree {id : Nat} {w : Widget}
    (found : (e.toTree g).get? id = some w) :
    ∃ own children faces above, Inside e id (.mk own children) faces ∧
      w = (g own).link above (numbers (id + 1) children) := by
  have inside : id < e.size := by
    rw [← size_mapFaces g, ← length_widgets none 0, ← List.size_toArray]
    exact (Array.getElem?_eq_some_iff.1 found).1
  obtain ⟨own, children, faces, placed⟩ := exists_inside_of_lt e id inside
  obtain ⟨above, linked⟩ := exists_get?_toTree (g := g) placed
  exact ⟨own, children, faces, above, placed, Option.some.inj (found.symm.trans linked)⟩

theorem Inside.into {inner : Element}
    (inside : Inside e k (.mk face (before ++ inner :: after)) faces) :
    Inside e (k + (1 + sizeAll before)) inner (face :: faces) :=
  inside.trans (.child face before after (.self inner))

/-- A widget that names another one as its parent belongs to a child of that one's element. -/
theorem exists_child_of_parent {id : Nat} {w : Widget} (found : (e.toTree g).get? id = some w)
    (parent : w.parent = some k) (inside : Inside e k (.mk face children) faces) :
    ∃ own inner, .mk own inner ∈ children ∧ Inside e id (.mk own inner) (face :: faces) ∧
      w = (g own).link (some k) (numbers (id + 1) inner) := by
  obtain ⟨own, inner, around, above, placed, rfl⟩ := exists_inside_of_get?_toTree found
  obtain rfl : above = some k := parent
  cases around with
  | nil =>
      -- The outermost widget has no parent.
      obtain ⟨rfl, rfl⟩ := placed.eq_of_faces_nil
      have outermost : (Element.toTree g (.mk own inner)).get? 0 = some ((g own).link none _) := rfl
      cases Option.some.inj (found.symm.trans outermost)
  | cons outer rest =>
      obtain ⟨j, before, after, holder, rfl⟩ := placed.exists_around
      have linked := found.symm.trans (get?_toTree_child holder)
      obtain rfl : k = j := by simpa [Face.link] using linked
      obtain ⟨same, rfl⟩ := inside.unique holder
      cases same
      exact ⟨own, inner, by simp, placed, rfl⟩

end Element

end TreeLens
