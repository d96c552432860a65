import TreeLens.Proofs.Tree.Shapes

/-!
# One visit is enough

The normal form visits what stands in a name wrapper to give it a name, and visits it again as a
field if it takes no name. `Normal.visitOnce` does it with one visit: the normal form of what is
inside is renamed or kept as the only field. Only a wrapper that repeats the key is looked into
once more, because there the field is another part. The two are the same function, errors included
(`Normal.visitOnce_eq`).
-/

namespace TreeLens

/-- The wrapper around a member that repeats its key, with the member inside that has the key. -/
def SpanWrapper.repeated? (key : String) (value : Json) : Option (SpanWrapper × Json) :=
  (SpanWrapper.ofKeyed? key value).bind fun w => (w.data.get? key).map (w, ·)

theorem SpanWrapper.repeated?_eq_some {key : String} {value inner : Json} {w : SpanWrapper}
    (repeated : repeated? key value = some (w, inner)) :
    ofKeyed? key value = some w ∧ w.data.get? key = some inner := by
  obtain ⟨own, keyed, found⟩ := Option.bind_eq_some_iff.1 repeated
  obtain ⟨held, data, same⟩ := Option.map_eq_some_iff.1 found
  cases same
  exact ⟨keyed, data⟩

theorem SpanWrapper.repeated?_eq_none {key : String} {value : Json} :
    repeated? key value = none ↔ ofKeyed? key value = none := by
  constructor
  · intro unlike
    cases keyed : ofKeyed? key value with
    | none => rfl
    | some w =>
        obtain ⟨-, inner, -, -, -, held, -⟩ := exists_inner_of_ofKeyed? keyed
        simp [repeated?, keyed, held] at unlike
  · intro unlike
    simp [repeated?, unlike]

namespace Normal

mutual

/-- The normal form of a value at a location, with one visit of what stands in a name wrapper. -/
def visitOnce (limit : Option Nat) (location : Location) (raw : Json) :
    Except NormalizeError Node :=
  match raw with
  | .null => .ok .null
  | .bool b => .ok (.leaf (.bool b))
  | .num n => .ok (.leaf (.num n.toDouble))
  | .str s => .ok (.leaf (Leaf.ofText s))
  | .arr items => (visitItemsOnce limit location 0 items).map .array
  | .obj members =>
    match _wrapper : SpanWrapper.ofMembers? members with
    | some w =>
      if w.data.isAbsent then .ok .null
      else
        (checkSpan limit location w.start w.stop).bind fun span =>
          (visitOnce limit (location ++ [.key "data"]) w.data).map (Node.withSpan span)
    | none =>
      match members with
      | [(key, .obj inner)] =>
        (visitOnce limit (location ++ [.key key]) (.obj inner)).bind fun node =>
          match node.named? (pascalCase key) with
          | some named => .ok named
          | none =>
            (visitKeyedOnce limit location key (.obj inner)).map fun keyed =>
              .object none [(key, keyed.getD node)] none
      | members =>
        (visitFieldsOnce limit location members).map fun fields => .object none fields none
termination_by sizeOf raw
decreasing_by
  · decreasing_tactic
  · exact SpanWrapper.sizeOf_data_lt _wrapper
  · decreasing_tactic
  · decreasing_tactic
  · decreasing_tactic

def visitItemsOnce (limit : Option Nat) (location : Location) (i : Nat) (items : List Json) :
    Except NormalizeError (List Node) :=
  match items with
  | [] => .ok []
  | item :: rest =>
    (visitOnce limit (location ++ [.index i]) item).bind fun node =>
      (visitItemsOnce limit location (i + 1) rest).map (node :: ·)
termination_by sizeOf items

def visitFieldsOnce (limit : Option Nat) (location : Location) (members : List (String × Json)) :
    Except NormalizeError (List (String × Node)) :=
  match members with
  | [] => .ok []
  | (key, value) :: rest =>
    let child : Except NormalizeError Node :=
      (visitKeyedOnce limit location key value).bind fun
        | some node => .ok node
        | none => visitOnce limit (location ++ [.key key]) value
    child.bind fun node => (visitFieldsOnce limit location rest).map ((key, node) :: ·)
termination_by sizeOf members

/-- The normal form of the member inside a wrapper that repeats the key of a field, with the
span of the wrapper; nothing for other fields. -/
def visitKeyedOnce (limit : Option Nat) (location : Location) (key : String) (value : Json) :
    Except NormalizeError (Option Node) :=
  match _repeated : SpanWrapper.repeated? key value with
  | none => .ok none
  | some (w, inner) =>
    (checkSpan limit (location ++ [.key key]) w.start w.stop).bind fun span =>
      (visitOnce limit (location ++ [.key key, .key "data", .key key]) inner).map fun node =>
        some (node.withSpan span)
termination_by sizeOf value
decreasing_by
  obtain ⟨keyed, held⟩ := SpanWrapper.repeated?_eq_some _repeated
  exact SpanWrapper.sizeOf_inner_lt keyed held

end

/-! ## The same function -/

variable {limit : Option Nat} {location : Location}

/-- A field is what stands under its key in a wrapper that repeats the key, or its value. -/
theorem visitField_eq {key : String} {value : Json}
    (below : ∀ part, sizeOf part < sizeOf value →
      ∀ location, visitOnce limit location part = visit limit location part) :
    visitField limit location (key, value) =
      (visitKeyedOnce limit location key value).bind fun
        | some node => .ok node
        | none => visit limit (location ++ [.key key]) value := by
  rw [visitKeyedOnce]
  split
  · next unlike =>
      rw [visitField_of_not_keyed (SpanWrapper.repeated?_eq_none.1 unlike)]
      rfl
  · next w inner repeated =>
      obtain ⟨keyed, held⟩ := SpanWrapper.repeated?_eq_some repeated
      rw [visitField_of_ofKeyed? keyed held, below inner (SpanWrapper.sizeOf_inner_lt keyed held)]
      cases checkSpan limit (location ++ [.key key]) w.start w.stop with
      | error e => rfl
      | ok span => cases visit limit (location ++ [.key key, .key "data", .key key]) inner <;> rfl

theorem visitItemsOnce_eq {items : List Json}
    (each : ∀ item ∈ items, ∀ location, visitOnce limit location item = visit limit location item)
    (i : Nat) : visitItemsOnce limit location i items = visitItems limit location i items := by
  induction items generalizing i with
  | nil => rw [visitItemsOnce, visitItems]
  | cons item rest ih =>
      obtain ⟨here, after⟩ := List.forall_mem_cons.1 each
      rw [visitItemsOnce, visitItems, here, ih after]

theorem visitFieldsOnce_eq {members : List (String × Json)}
    (each : ∀ member ∈ members, ∀ part, sizeOf part ≤ sizeOf member.2 →
      ∀ location, visitOnce limit location part = visit limit location part) :
    visitFieldsOnce limit location members = visitFields limit location members := by
  induction members with
  | nil => rw [visitFieldsOnce, visitFields]
  | cons member rest ih =>
      obtain ⟨key, value⟩ := member
      obtain ⟨here, after⟩ := List.forall_mem_cons.1 each
      rw [visitFieldsOnce, visitFields_cons, ih after, here value (Nat.le_refl _),
        visitField_eq fun part smaller => here part (Nat.le_of_lt smaller)]

theorem visitOnce_eq (limit : Option Nat) (raw : Json) :
    ∀ location, visitOnce limit location raw = visit limit location raw := by
  induction raw using Json.induction_sizeOf with
  | step raw ih =>
  intro location
  cases raw with
  | null => rw [visitOnce, visit]
  | bool b => rw [visitOnce, visit]
  | num n => rw [visitOnce, visit]
  | str s => rw [visitOnce, visit]
  | arr items =>
      have items := @visitItemsOnce_eq limit location items
        fun item member => ih item (Json.sizeOf_item_lt member)
      rw [visitOnce, visit, items]
  | obj members =>
      cases shape members with
      | absent wrapper absent =>
          rw [visit_absent wrapper absent, visitOnce]
          split
          · next found =>
              obtain rfl := Option.some.inj (wrapper.symm.trans found)
              rw [if_pos absent]
          · next missing => cases wrapper.symm.trans missing
      | wrapper wrapper present =>
          rw [visit_wrapper wrapper present, visitOnce]
          split
          · next found =>
              obtain rfl := Option.some.inj (wrapper.symm.trans found)
              rw [if_neg (Bool.eq_false_iff.1 present), ih _ (SpanWrapper.sizeOf_data_lt wrapper)]
          · next missing => cases wrapper.symm.trans missing
      | @name key value object =>
          have smaller := Json.sizeOf_snd_lt (List.mem_singleton_self (key, value))
          rw [visit_name object, visitOnce]
          split
          · next found => cases (SpanWrapper.ofMembers?_singleton key value).symm.trans found
          · cases value with
            | obj inner =>
                rw [visitField_eq fun part less => ih part (Nat.lt_trans less smaller)]
                simp only [ih _ smaller]
                -- The second visit, if there is one, has the result of the first.
                cases visit limit (location ++ [.key key]) (.obj inner) with
                | error e => rfl
                | ok node =>
                    simp only [Except.bind]
                    cases node.named? (pascalCase key) with
                    | some named => rfl
                    | none =>
                        cases visitKeyedOnce limit location key (.obj inner) with
                        | error e => rfl
                        | ok keyed => cases keyed <;> rfl
            | null => cases object
            | bool b => cases object
            | num n => cases object
            | str s => cases object
            | arr items => cases object
      | fields plain unnamed =>
          rw [visit_fields plain unnamed, visitOnce]
          split
          · next found => cases plain.symm.trans found
          · split
            · next key inner _ _ => cases unnamed key (.obj inner) rfl
            · rw [visitFieldsOnce_eq]
              intro member found part smaller
              exact ih part (Nat.lt_of_le_of_lt smaller (Json.sizeOf_snd_lt found))

end Normal

/-- **The second visit leaves no trace.** The normal form, or the error, is the one that is found
with a single visit of what stands in a name wrapper: its normal form is renamed if it is an
object, becomes an object without fields if it is null, and is else kept as the only field, unless
the wrapper inside repeats the key. -/
theorem normalize_eq_visitOnce (limit : Option Nat) (raw : Json) :
    normalize limit raw = Normal.visitOnce limit [] raw :=
  (Normal.visitOnce_eq limit raw []).symm

end TreeLens
