import TreeLens.Query.Basic

/-!
# Properties of all parts of a value

`Json.Everywhere P` says that a value and everything in it has a property. It is stated
over the descendants of the value; `everywhere_arr` and `everywhere_obj` take it apart
along the shape of the value.
-/

namespace TreeLens.Json

/-- A value and all values in it have a property. -/
def Everywhere (P : Json → Prop) (value : Json) : Prop :=
  ∀ part ∈ value.descendants, P part

instance (P : Json → Prop) [DecidablePred P] (value : Json) : Decidable (value.Everywhere P) :=
  inferInstanceAs (Decidable (∀ part ∈ value.descendants, P part))

theorem descendantsOfItems_eq (items : List Json) :
    descendantsOfItems items = items.flatMap descendants := by
  induction items with
  | nil => rfl
  | cons item rest ih => rw [descendantsOfItems, ih, List.flatMap_cons]

theorem descendantsOfMembers_eq (members : List (String × Json)) :
    descendantsOfMembers members = members.flatMap fun member => member.2.descendants := by
  induction members with
  | nil => rfl
  | cons member rest ih => rw [descendantsOfMembers, ih, List.flatMap_cons]

variable {P : Json → Prop}

theorem everywhere_arr {items : List Json} :
    (Json.arr items).Everywhere P ↔ P (.arr items) ∧ ∀ item ∈ items, item.Everywhere P := by
  simp only [Everywhere, descendants, descendantsOfItems_eq, List.forall_mem_cons,
    List.forall_mem_flatMap]

theorem everywhere_obj {members : List (String × Json)} :
    (Json.obj members).Everywhere P ↔
      P (.obj members) ∧ ∀ member ∈ members, member.2.Everywhere P := by
  simp only [Everywhere, descendants, descendantsOfMembers_eq, List.forall_mem_cons,
    List.forall_mem_flatMap]

end TreeLens.Json
