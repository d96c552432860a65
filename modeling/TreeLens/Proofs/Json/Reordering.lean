import Mathlib.Data.List.Perm.Basic
import TreeLens.Proofs.Json.Places
import TreeLens.Tree.Normalize

/-!
# Reordered data

Two values are reorderings of each other if they are the same up to the order of the members of
their objects, at whatever depth (`Json.Reordered`). As long as no key is repeated, looking members
up does not tell them apart: members under the same key are reorderings of each other again
(`Reordered.get?`), and so is what stands at the same location.
-/

namespace TreeLens

theorem Option.Rel.exists_of_some {α β : Type} {R : α → β → Prop} {a : α} {found : Option β}
    (related : Option.Rel R (some a) found) : ∃ b, found = some b ∧ R a b := by
  cases related with
  | some here => exact ⟨_, rfl, here⟩

namespace Json

/-- Two values are equal up to the order of members. The members of an object are listed with
both values of each, in the order of the first object. -/
inductive Reordered : Json → Json → Prop
  | null : Reordered .null .null
  | bool (b : Bool) : Reordered (.bool b) (.bool b)
  | num (n : Number) : Reordered (.num n) (.num n)
  | str (s : String) : Reordered (.str s) (.str s)
  | arr (pairs : List (Json × Json)) (each : ∀ pair ∈ pairs, Reordered pair.1 pair.2) :
      Reordered (.arr (pairs.map (·.1))) (.arr (pairs.map (·.2)))
  | obj (both : List (String × Json × Json)) {others : List (String × Json)}
      (each : ∀ member ∈ both, Reordered member.2.1 member.2.2)
      (order : (both.map fun member => (member.1, member.2.2)).Perm others) :
      Reordered (.obj (both.map fun member => (member.1, member.2.1))) (.obj others)

/-- Where keys are distinct, looking a key up does not depend on the order. -/
theorem lookup_perm {members others : List (String × Json)} (distinct : (members.map (·.1)).Nodup)
    (order : members.Perm others) (key : String) : members.lookup key = others.lookup key := by
  have distinct' : (others.map (·.1)).Nodup := (order.map _).nodup distinct
  refine Option.ext fun value => ?_
  constructor
  · intro found
    exact lookup_of_mem distinct' (order.mem_iff.1 (mem_of_lookup found))
  · intro found
    exact lookup_of_mem distinct (order.mem_iff.2 (mem_of_lookup found))

/-- The keys of members listed with both values are the same for both. -/
theorem nodup_keys_second {both : List (String × Json × Json)}
    (distinct : (Json.obj (both.map fun member => (member.1, member.2.1))).DistinctKeys) :
    ((both.map fun member => (member.1, member.2.2)).map (·.1)).Nodup := by
  rw [DistinctKeys, List.map_map] at distinct
  rw [List.map_map]
  exact distinct

/-- Members listed with both values have both values at the same key. -/
theorem lookup_both {R : Json → Json → Prop} {both : List (String × Json × Json)}
    (each : ∀ member ∈ both, R member.2.1 member.2.2) (key : String) :
    Option.Rel R ((both.map fun member => (member.1, member.2.1)).lookup key)
      ((both.map fun member => (member.1, member.2.2)).lookup key) := by
  induction both with
  | nil => exact .none
  | cons member rest ih =>
      obtain ⟨here, after⟩ := List.forall_mem_cons.1 each
      rw [List.map_cons, List.map_cons, lookup_cons_ite, lookup_cons_ite]
      by_cases own : key = member.1
      · rw [if_pos own, if_pos own]
        exact .some here
      · rw [if_neg own, if_neg own]
        exact ih after

namespace Reordered

variable {raw raw' : Json}

theorem get? (reordered : raw.Reordered raw') (distinct : raw.DistinctKeys) (key : String) :
    Option.Rel Reordered (raw.get? key) (raw'.get? key) := by
  cases reordered with
  | obj both each order =>
      have same := lookup_perm (nodup_keys_second distinct) order key
      show Option.Rel Reordered _ (List.lookup key _)
      rw [← same]
      exact lookup_both each key
  | null => exact .none
  | bool b => exact .none
  | num n => exact .none
  | str s => exact .none
  | arr pairs each => exact .none

end Reordered

/-! ## The same location -/

/-- Reorderings of each other that stand at the same location of two values. -/
structure Twins (whole whole' : Json) (location : Location) (raw raw' : Json) : Prop where
  reordered : raw.Reordered raw'
  distinct : raw.Everywhere DistinctKeys
  here : whole.at? location = some raw
  here' : whole'.at? location = some raw'

namespace Twins

variable {whole whole' raw raw' : Json} {location : Location}

theorem distinctKeys (twins : Twins whole whole' location raw raw') : raw.DistinctKeys :=
  twins.distinct raw (StandsAt.here raw).mem_descendants

/-- Members under the same key are twins again. -/
theorem member {key : String} {value : Json} (twins : Twins whole whole' location raw raw')
    (found : raw.get? key = some value) :
    ∃ value', raw'.get? key = some value' ∧
      Twins whole whole' (location ++ [.key key]) value value' := by
  have inside : value.Everywhere DistinctKeys := by
    cases raw with
    | obj members => exact (everywhere_obj.1 twins.distinct).2 (key, value) (mem_of_lookup found)
    | null => cases found
    | bool b => cases found
    | num n => cases found
    | str s => cases found
    | arr items => cases found
  have looked := twins.reordered.get? twins.distinctKeys key
  rw [found] at looked
  obtain ⟨value', found', reordered⟩ := Option.Rel.exists_of_some looked
  exact ⟨value', found', reordered, inside, at?_key twins.here found, at?_key twins.here' found'⟩

/-- Items at the same index are twins again. -/
theorem item {pairs : List (Json × Json)} {pair : Json × Json} {i : Nat}
    (twins : Twins whole whole' location (.arr (pairs.map (·.1))) (.arr (pairs.map (·.2))))
    (each : ∀ pair ∈ pairs, pair.1.Reordered pair.2) (found : pairs[i]? = some pair) :
    Twins whole whole' (location ++ [.index i]) pair.1 pair.2 where
  reordered := each pair (List.mem_of_getElem? found)
  distinct := (everywhere_arr.1 twins.distinct).2 pair.1
    (List.mem_map.2 ⟨pair, List.mem_of_getElem? found, rfl⟩)
  here := by simp [at?_append, twins.here, at?, child?, found]
  here' := by simp [at?_append, twins.here', at?, child?, found]

/-- Both values of a member are twins. -/
theorem both {both : List (String × Json × Json)} {others : List (String × Json)}
    (twins : Twins whole whole' location (.obj (both.map fun member => (member.1, member.2.1)))
      (.obj others))
    (order : (both.map fun member => (member.1, member.2.2)).Perm others)
    {member : String × Json × Json} (found : member ∈ both) :
    Twins whole whole' (location ++ [.key member.1]) member.2.1 member.2.2 := by
  have first : (Json.obj (both.map fun member => (member.1, member.2.1))).get? member.1 =
      some member.2.1 :=
    lookup_of_mem twins.distinctKeys (List.mem_map_of_mem found)
  have second : (both.map fun member => (member.1, member.2.2)).lookup member.1 =
      some member.2.2 :=
    lookup_of_mem (nodup_keys_second twins.distinctKeys)
      (List.mem_map_of_mem (f := fun member => (member.1, member.2.2)) found)
  obtain ⟨value', held, same⟩ := twins.member first
  rw [lookup_perm (nodup_keys_second twins.distinctKeys) order] at second
  cases held.symm.trans second
  exact same

end Twins

end Json

end TreeLens
