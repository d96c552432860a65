import TreeLens.Json.Reader
import TreeLens.Proofs.Json.Everywhere

/-!
# Keys of objects

`Json.put` sets one member and leaves the others (`lookup_put`), and it never repeats a key
(`nodup_keys_put`). So the objects of a value that was read have distinct keys, at whatever
depth (`everywhere_distinctKeys_of_read?`).
-/

namespace TreeLens.Json

/-- The keys of an object are distinct. -/
def DistinctKeys : Json → Prop
  | .obj members => (members.map (·.1)).Nodup
  | _ => True

instance : DecidablePred DistinctKeys
  | .obj members => inferInstanceAs (Decidable (members.map (·.1)).Nodup)
  | .null => .isTrue trivial
  | .bool _ => .isTrue trivial
  | .num _ => .isTrue trivial
  | .str _ => .isTrue trivial
  | .arr _ => .isTrue trivial

/-! ## Setting a member -/

theorem lookup_cons_ite (key k : String) (value : Json) (rest : List (String × Json)) :
    ((k, value) :: rest).lookup key = if key = k then some value else rest.lookup key := by
  rw [List.lookup_cons]
  by_cases same : key = k
  · subst same
    simp
  · rw [beq_false_of_ne same, if_neg same]

theorem mem_of_lookup {key : String} {value : Json} {members : List (String × Json)}
    (found : members.lookup key = some value) : (key, value) ∈ members := by
  induction members with
  | nil => cases found
  | cons first rest ih =>
      obtain ⟨k, v⟩ := first
      rw [lookup_cons_ite] at found
      split at found
      · next own =>
          cases found
          rw [own]
          exact List.mem_cons_self
      · exact List.mem_cons_of_mem _ (ih found)

theorem lookup_put (key other : String) (value : Json) (members : List (String × Json)) :
    (put key value members).lookup other =
      if other = key then some value else members.lookup other := by
  induction members with
  | nil => exact lookup_cons_ite other key value []
  | cons member rest ih =>
      obtain ⟨k, v⟩ := member
      rw [put, lookup_cons_ite]
      by_cases own : k = key
      · subst own
        rw [if_pos rfl, lookup_cons_ite]
        by_cases same : other = k
        · rw [if_pos same, if_pos same]
        · rw [if_neg same, if_neg same, if_neg same]
      · rw [if_neg own, lookup_cons_ite, ih]
        by_cases same : other = k
        · subst same
          rw [if_pos rfl, if_neg own, if_pos rfl]
        · rw [if_neg same, if_neg same]

theorem put_of_not_mem {key : String} (value : Json) {members : List (String × Json)}
    (fresh : key ∉ members.map (·.1)) : put key value members = members ++ [(key, value)] := by
  induction members with
  | nil => rfl
  | cons first rest ih =>
      obtain ⟨k, v⟩ := first
      obtain ⟨other, later⟩ := not_or.1 (mt List.mem_cons.2 fresh)
      rw [put, if_neg (Ne.symm other), ih later, List.cons_append]

theorem mem_of_mem_put {key : String} {value : Json} {member : String × Json}
    {members : List (String × Json)} (found : member ∈ put key value members) :
    member = (key, value) ∨ member ∈ members := by
  induction members with
  | nil => exact .inl (List.mem_singleton.1 found)
  | cons first rest ih =>
      obtain ⟨k, v⟩ := first
      rw [put] at found
      split at found
      · next own =>
          subst own
          exact (List.mem_cons.1 found).imp id (List.mem_cons_of_mem _)
      · rcases List.mem_cons.1 found with rfl | later
        · exact .inr List.mem_cons_self
        · exact (ih later).imp id (List.mem_cons_of_mem _)

theorem nodup_keys_put (key : String) (value : Json) {members : List (String × Json)}
    (distinct : (members.map (·.1)).Nodup) : ((put key value members).map (·.1)).Nodup := by
  induction members with
  | nil => simp [put]
  | cons first rest ih =>
      obtain ⟨k, v⟩ := first
      obtain ⟨fresh, others⟩ := List.nodup_cons.1 distinct
      rw [put]
      split
      · exact distinct
      · next other =>
          refine List.nodup_cons.2 ⟨?_, ih others⟩
          intro again
          obtain ⟨member, found, same⟩ := List.mem_map.1 again
          rcases mem_of_mem_put found with rfl | earlier
          · exact other same.symm
          · exact fresh (List.mem_map.2 ⟨member, earlier, same⟩)

/-! ## Merged values -/

/-- Merging members keeps keys distinct and takes every member from somewhere. -/
theorem mergeMembers_cases (members : List (String × Json)) :
    ((mergeMembers members).map (·.1)).Nodup ∧
      ∀ member ∈ mergeMembers members, member ∈ members := by
  suffices step : ∀ merged : List (String × Json), (merged.map (·.1)).Nodup →
      let all := members.foldl (fun merged m => put m.1 m.2 merged) merged
      (all.map (·.1)).Nodup ∧ ∀ member ∈ all, member ∈ merged ∨ member ∈ members by
    obtain ⟨distinct, each⟩ := step [] List.nodup_nil
    exact ⟨distinct, fun member found => (each member found).resolve_left List.not_mem_nil⟩
  induction members with
  | nil => exact fun merged distinct => ⟨distinct, fun member found => .inl found⟩
  | cons first rest ih =>
      intro merged distinct
      obtain ⟨all, each⟩ := ih _ (nodup_keys_put first.1 first.2 distinct)
      refine ⟨all, ?_⟩
      intro member found
      rcases each member found with set | later
      · rcases mem_of_mem_put set with rfl | earlier
        · exact .inr List.mem_cons_self
        · exact .inl earlier
      · exact .inr (List.mem_cons_of_mem _ later)

mutual

theorem everywhere_distinctKeys_merged : ∀ value : Json, value.merged.Everywhere DistinctKeys
  | .null => by decide
  | .bool b => by simp [merged, Everywhere, descendants, DistinctKeys]
  | .num n => by simp [merged, Everywhere, descendants, DistinctKeys]
  | .str s => by simp [merged, Everywhere, descendants, DistinctKeys]
  | .arr items => by
      rw [merged, everywhere_arr]
      exact ⟨trivial, everywhere_distinctKeys_mergedItems items⟩
  | .obj members => by
      rw [merged, everywhere_obj]
      obtain ⟨distinct, each⟩ := mergeMembers_cases (mergedMembers members)
      refine ⟨distinct, ?_⟩
      intro member found
      exact everywhere_distinctKeys_mergedMembers members member (each member found)

theorem everywhere_distinctKeys_mergedItems :
    ∀ items : List Json, ∀ item ∈ mergedItems items, item.Everywhere DistinctKeys
  | [] => by simp [mergedItems]
  | item :: rest => by
      rw [mergedItems, List.forall_mem_cons]
      exact ⟨everywhere_distinctKeys_merged item, everywhere_distinctKeys_mergedItems rest⟩

theorem everywhere_distinctKeys_mergedMembers :
    ∀ members : List (String × Json),
      ∀ member ∈ mergedMembers members, member.2.Everywhere DistinctKeys
  | [] => by simp [mergedMembers]
  | (key, value) :: rest => by
      rw [mergedMembers, List.forall_mem_cons]
      exact ⟨everywhere_distinctKeys_merged value, everywhere_distinctKeys_mergedMembers rest⟩

end

/-- A value that was read repeats no key. -/
theorem everywhere_distinctKeys_of_read? {text : String} {value : Json}
    (found : read? text = some value) : value.Everywhere DistinctKeys := by
  obtain ⟨raw, -, rfl⟩ := Option.map_eq_some_iff.1 found
  exact everywhere_distinctKeys_merged raw

end TreeLens.Json
