import TreeLens.Proofs.Json.Keys
import TreeLens.Proofs.Query.Locations

/-!
# Values at locations

`Json.at?` follows the keys and indices of a location into a value. The query of a location
selects what is there and nothing else (`select_query`).

`Json.StandsAt` is the same as a relation that does not mind repeated keys: every member of an
object stands at its key. Where keys are distinct, a value that stands at a location is the
one that is found there (`StandsAt.at?_eq`).
-/

namespace TreeLens

/-- Numbers that are not negative do not count from the end. -/
theorem Selector.fromEnd_natCast (length : Int) (i : Nat) : fromEnd length i = i :=
  if_neg (by omega)

namespace Json

/-- The part of a value at a place. -/
def child? : Json → Place → Option Json
  | .obj members, .key name => members.lookup name
  | .arr items, .index number => items[number]?
  | _, _ => none

/-- The part of a value at a location. -/
def at? (value : Json) : Location → Option Json
  | [] => some value
  | place :: rest => (value.child? place).bind fun part => part.at? rest

theorem at?_append (value : Json) (front back : Location) :
    value.at? (front ++ back) = (value.at? front).bind fun part => part.at? back := by
  induction front generalizing value with
  | nil => rfl
  | cons place rest ih =>
      rw [List.cons_append, at?, at?]
      cases value.child? place with
      | none => rfl
      | some part => exact ih part

theorem at?_key {value part inner : Json} {location : Location} {key : String}
    (here : value.at? location = some part) (found : part.get? key = some inner) :
    value.at? (location ++ [.key key]) = some inner := by
  rw [at?_append, here]
  cases part with
  | obj members =>
      show (members.lookup key).bind _ = _
      rw [show members.lookup key = some inner from found]
      rfl
  | null => cases found
  | bool b => cases found
  | num n => cases found
  | str s => cases found
  | arr items => cases found

/-! ## Queries of locations -/

/-- From nothing, nothing is selected. -/
theorem foldl_select_nil (query : Query) :
    query.foldl (fun values segment => segment.select values) [] = [] := by
  induction query with
  | nil => rfl
  | cons segment rest ih =>
      have none : segment.select [] = [] := by simp [Segment.select]
      rw [List.foldl_cons, none, ih]

theorem select_segment (value : Json) (place : Place) :
    place.segment.select [value] = (value.child? place).toList := by
  cases place with
  | key name =>
      cases value <;> simp [Place.segment, Segment.select, Selector.select, child?]
  | index number =>
      cases value <;>
        simp [Place.segment, Segment.select, Selector.select, Selector.fromEnd_natCast, child?]

/-- The query of a location selects what is at the location. -/
theorem select_query (value : Json) (location : Location) :
    location.query.select value = (value.at? location).toList := by
  induction location generalizing value with
  | nil => rfl
  | cons place rest ih =>
      rw [Location.query, List.map_cons, Query.select, List.foldl_cons, select_segment, at?]
      cases value.child? place with
      | some part => exact ih part
      | none => exact foldl_select_nil _

/-! ## Values that stand in values -/

/-- A value stands at a location of another one. -/
inductive StandsAt : Json → Location → Json → Prop
  | here (value : Json) : StandsAt value [] value
  | item {items : List Json} {number : Nat} {item value : Json} {rest : Location}
      (found : items[number]? = some item) (stands : StandsAt item rest value) :
      StandsAt (.arr items) (.index number :: rest) value
  | member {members : List (String × Json)} {key : String} {part value : Json} {rest : Location}
      (found : (key, part) ∈ members) (stands : StandsAt part rest value) :
      StandsAt (.obj members) (.key key :: rest) value

namespace StandsAt

variable {whole part value : Json} {front back location : Location}

theorem append (first : whole.StandsAt front part) (later : part.StandsAt back value) :
    whole.StandsAt (front ++ back) value := by
  induction first with
  | here => exact later
  | item found _ ih => exact .item found (ih later)
  | member found _ ih => exact .member found (ih later)

theorem mem_descendants (stands : whole.StandsAt location value) :
    value ∈ whole.descendants := by
  induction stands with
  | here value => cases value <;> simp [descendants]
  | item found _ ih =>
      rw [descendants, descendantsOfItems_eq]
      exact List.mem_cons_of_mem _ (List.mem_flatMap.2 ⟨_, List.mem_of_getElem? found, ih⟩)
  | member found _ ih =>
      rw [descendants, descendantsOfMembers_eq]
      exact List.mem_cons_of_mem _ (List.mem_flatMap.2 ⟨_, found, ih⟩)

end StandsAt

theorem lookup_of_mem {key : String} {value : Json} {members : List (String × Json)}
    (distinct : (members.map (·.1)).Nodup) (member : (key, value) ∈ members) :
    members.lookup key = some value := by
  induction members with
  | nil => cases member
  | cons first rest ih =>
      obtain ⟨k, v⟩ := first
      obtain ⟨fresh, others⟩ := List.nodup_cons.1 distinct
      rw [lookup_cons_ite]
      rcases List.mem_cons.1 member with same | later
      · cases same
        exact if_pos rfl
      · have other : key ≠ k := by
          rintro rfl
          exact fresh (List.mem_map.2 ⟨_, later, rfl⟩)
        rw [if_neg other]
        exact ih others later

theorem StandsAt.at?_eq {whole value : Json} {location : Location}
    (stands : whole.StandsAt location value) (distinct : whole.Everywhere DistinctKeys) :
    whole.at? location = some value := by
  induction stands with
  | here value => rfl
  | item found _ ih =>
      rw [at?, child?, found]
      exact ih ((everywhere_arr.1 distinct).2 _ (List.mem_of_getElem? found))
  | member found _ ih =>
      obtain ⟨own, each⟩ := everywhere_obj.1 distinct
      rw [at?, child?, lookup_of_mem own found]
      exact ih (each _ found)

end Json

end TreeLens
