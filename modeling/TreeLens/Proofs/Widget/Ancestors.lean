import TreeLens.Proofs.View.Numbering

/-!
# Ancestors

The ancestors of a widget are in descending order, and from any of them on they are the
ancestors of that one (`exists_append_of_mem_ancestors`). So the ancestors of two widgets
have an upper part in common and are different below it (`exists_fork`). In a tree that
holds the widgets of an element, the way up from a widget leads through the elements around
it, from the inside to the outside (`regions_of_holdsFrom`).
-/

namespace TreeLens

namespace WidgetTree

theorem ancestors_of_get? {t : WidgetTree} {id : Nat} {w : Widget} (found : t.get? id = some w) :
    t.ancestors id = id :: w.parent.elim [] fun p => if p < id then t.ancestors p else [] := by
  rw [ancestors]
  cases parent : w.parent <;> simp [found, parent]

/-- The way up from a number: there is no such widget, or it has no parent, or the way goes
on at a smaller number. -/
theorem ancestors_cases (t : WidgetTree) (id : Nat) :
    t.ancestors id = [] ∨ t.ancestors id = [id] ∨
      ∃ p < id, t.ancestors id = id :: t.ancestors p := by
  cases found : t.get? id with
  | none => exact .inl (by rw [ancestors, found])
  | some w =>
      rw [ancestors_of_get? found]
      cases w.parent with
      | none => exact .inr (.inl rfl)
      | some p =>
          by_cases lower : p < id
          · exact .inr (.inr ⟨p, lower, by simp [lower]⟩)
          · exact .inr (.inl (by simp [lower]))

theorem le_of_mem_ancestors {t : WidgetTree} {id above : Nat} (member : above ∈ t.ancestors id) :
    above ≤ id := by
  induction id using Nat.strongRecOn with
  | ind id ih =>
      rcases t.ancestors_cases id with none | own | ⟨p, lower, up⟩
      · simp [none] at member
      · simp only [own, List.mem_singleton] at member
        omega
      · rw [up] at member
        rcases List.mem_cons.1 member with rfl | member
        · exact Nat.le_refl _
        · have := ih p lower member
          omega

/-- From each of its members on, the way up is the way up from there. -/
theorem exists_append_of_mem_ancestors {t : WidgetTree} {id above : Nat}
    (member : above ∈ t.ancestors id) :
    ∃ front, t.ancestors id = front ++ t.ancestors above ∧ ∀ a ∈ front, above < a := by
  induction id using Nat.strongRecOn with
  | ind id ih =>
      rcases t.ancestors_cases id with none | own | ⟨p, lower, up⟩
      · simp [none] at member
      · simp only [own, List.mem_singleton] at member
        subst member
        exact ⟨[], rfl, by simp⟩
      · rw [up] at member
        rcases List.mem_cons.1 member with rfl | member
        · exact ⟨[], rfl, by simp⟩
        · obtain ⟨front, same, below⟩ := ih p lower member
          refine ⟨id :: front, by rw [up, same, List.cons_append], ?_⟩
          have bound := le_of_mem_ancestors member
          intro a inside
          rcases List.mem_cons.1 inside with rfl | inside
          · omega
          · exact below a inside

/-- The ways up from two widgets are different at first and then the same. -/
theorem exists_fork (t : WidgetTree) (id other : Nat) :
    ∃ front back common, t.ancestors id = front ++ common ∧ t.ancestors other = back ++ common ∧
      (∀ a ∈ front, a ∉ t.ancestors other) ∧ ∀ a ∈ back, a ∉ t.ancestors id := by
  induction id using Nat.strongRecOn with
  | ind id ih =>
      by_cases met : id ∈ t.ancestors other
      · obtain ⟨back, same, below⟩ := exists_append_of_mem_ancestors met
        refine ⟨[], back, t.ancestors id, rfl, same, by simp, ?_⟩
        intro a inside again
        have := below a inside
        have := le_of_mem_ancestors again
        omega
      · rcases t.ancestors_cases id with none | own | ⟨p, lower, up⟩
        · exact ⟨[], t.ancestors other, [], by simp [none], by simp, by simp, by simp [none]⟩
        · refine ⟨[id], t.ancestors other, [], by simp [own], by simp, by simpa using met, ?_⟩
          intro a inside again
          rw [own, List.mem_singleton] at again
          exact met (again ▸ inside)
        · obtain ⟨front, back, common, left, right, leftOnly, rightOnly⟩ := ih p lower
          refine ⟨id :: front, back, common, by rw [up, left, List.cons_append], right, ?_, ?_⟩
          · intro a inside
            rcases List.mem_cons.1 inside with rfl | inside
            · exact met
            · exact leftOnly a inside
          · intro a inside again
            rw [up] at again
            rcases List.mem_cons.1 again with rfl | again
            · exact met (right ▸ List.mem_append_left _ inside)
            · exact rightOnly a inside again

end WidgetTree

/-! ## Regions around a widget -/

namespace Element

mutual

/-- The views whose regions hold the widget with a number, innermost first, read off the
nesting of an element; the element's own widget has number zero. -/
def regionsAt : Element → Nat → List Nat
  | .mk face _, 0 => face.hover.toList
  | .mk face children, k + 1 => regionsAtAll children k ++ face.hover.toList

/-- The same for elements in a row, the first of them having number zero. -/
def regionsAtAll : List Element → Nat → List Nat
  | [], _ => []
  | e :: rest, k => if k < e.size then e.regionsAt k else regionsAtAll rest (k - e.size)

end

mutual

theorem regionsAt_mapFaces {g : Face → Face} (same : ∀ face, (g face).hover = face.hover) :
    ∀ (e : Element) (k : Nat), (e.mapFaces g).regionsAt k = e.regionsAt k
  | .mk face children, 0 => by rw [mapFaces, regionsAt, regionsAt, same]
  | .mk face children, k + 1 => by
      rw [mapFaces, regionsAt, regionsAt, same, regionsAtAll_mapFacesAll same children k]

theorem regionsAtAll_mapFacesAll {g : Face → Face} (same : ∀ face, (g face).hover = face.hover) :
    ∀ (es : List Element) (k : Nat), regionsAtAll (mapFacesAll g es) k = regionsAtAll es k
  | [], k => rfl
  | e :: rest, k => by
      rw [mapFacesAll, regionsAtAll, regionsAtAll, size_mapFaces, regionsAt_mapFaces same e k,
        regionsAtAll_mapFacesAll same rest (k - e.size)]

end

end Element

namespace WidgetTree

/-- The view whose region a widget is. -/
def region? (t : WidgetTree) (id : Nat) : Option Nat :=
  (t.get? id).bind (·.hover)

/-- The views whose regions a widget and its ancestors are, innermost first. -/
def regions (t : WidgetTree) (id : Nat) : List Nat :=
  (t.ancestors id).filterMap t.region?

theorem regions_of_get? {t : WidgetTree} {id : Nat} {w : Widget} (found : t.get? id = some w)
    (above : ∀ p ∈ w.parent, p < id) :
    t.regions id = w.hover.toList ++ w.parent.elim [] t.regions := by
  have own : t.region? id = w.hover := by rw [region?, found, Option.bind_some]
  have rest : (w.parent.elim [] fun p => if p < id then t.ancestors p else []).filterMap
      t.region? = w.parent.elim [] t.regions := by
    cases parent : w.parent with
    | none => rfl
    | some p => simp [above p parent, regions]
  rw [regions, ancestors_of_get? found, List.filterMap_cons, own, rest]
  cases w.hover <;> rfl

mutual

theorem regions_of_holdsFrom {t : WidgetTree} (parent : Option Nat) (id : Nat)
    (above : ∀ p ∈ parent, p < id) :
    ∀ (e : Element) (k : Nat), t.HoldsFrom id (e.widgets parent id) → k < e.size →
      t.regions (id + k) = e.regionsAt k ++ parent.elim [] t.regions
  | .mk face children, 0, holds, _ => by
      rw [Element.widgets] at holds
      exact regions_of_get? holds.head above
  | .mk face children, k + 1, holds, inside => by
      rw [Element.widgets] at holds
      rw [Element.size] at inside
      have own : t.regions id = face.hover.toList ++ parent.elim [] t.regions :=
        regions_of_get? holds.head above
      rw [show id + (k + 1) = id + 1 + k by omega, Element.regionsAt,
        regions_of_holdsFromAll id (id + 1) (Nat.lt_succ_self id) children k holds.tail (by omega),
        own, List.append_assoc]

theorem regions_of_holdsFromAll {t : WidgetTree} (parent id : Nat) (above : parent < id) :
    ∀ (es : List Element) (k : Nat), t.HoldsFrom id (Element.widgetsAll parent id es) →
      k < Element.sizeAll es →
      t.regions (id + k) = Element.regionsAtAll es k ++ t.regions parent
  | [], k, _, inside => by
      rw [Element.sizeAll] at inside
      omega
  | e :: rest, k, holds, inside => by
      rw [Element.widgetsAll] at holds
      rw [Element.sizeAll] at inside
      rw [Element.regionsAtAll]
      by_cases first : k < e.size
      · rw [if_pos first]
        exact regions_of_holdsFrom (some parent) id (by simpa using above) e k holds.left first
      · have later := holds.right
        rw [Element.length_widgets] at later
        rw [if_neg first, show id + k = id + e.size + (k - e.size) by omega]
        exact regions_of_holdsFromAll parent (id + e.size) (by omega) rest (k - e.size) later
          (by omega)

end

end WidgetTree

end TreeLens
