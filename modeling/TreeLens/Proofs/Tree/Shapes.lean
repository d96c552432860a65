import TreeLens.Proofs.Tree.Leaves

/-!
# Shapes of objects

The normal form takes an object for one of four things: a span wrapper around nothing, a span
wrapper around data, a name wrapper, or an object with fields (`Normal.shape`). Each shape has one
equation that gives the normal form of the object by the normal forms of its parts. The parts are
smaller (`sizeOf_data_lt`, `sizeOf_inner_lt`, `sizeOf_snd_lt`), so a property of normal forms can
be shown by induction on the size of the raw data, with one case for each shape.
-/

namespace TreeLens

/-! ## Parts of objects -/

namespace Json

/-- What holds of a value if it holds of all smaller ones holds of every value. -/
theorem induction_sizeOf {P : Json → Prop} (raw : Json)
    (step : ∀ raw, (∀ part, sizeOf part < sizeOf raw → P part) → P raw) : P raw :=
  (measure (sizeOf : Json → Nat)).wf.induction raw step

theorem sizeOf_snd_lt {member : String × Json} {members : List (String × Json)}
    (found : member ∈ members) : sizeOf member.2 < sizeOf (Json.obj members) := by
  have inside := List.sizeOf_lt_of_mem found
  obtain ⟨key, value⟩ := member
  simp only [Prod.mk.sizeOf_spec] at inside
  simp only [obj.sizeOf_spec]
  omega

theorem sizeOf_item_lt {item : Json} {items : List Json} (found : item ∈ items) :
    sizeOf item < sizeOf (Json.arr items) := by
  have inside := List.sizeOf_lt_of_mem found
  simp only [arr.sizeOf_spec]
  omega

theorem sizeOf_lt_of_get? {key : String} {value whole : Json}
    (found : whole.get? key = some value) : sizeOf value < sizeOf whole := by
  cases whole with
  | obj members => exact sizeOf_snd_lt (mem_of_lookup found)
  | null => cases found
  | bool b => cases found
  | num n => cases found
  | str s => cases found
  | arr items => cases found

end Json

namespace SpanWrapper

theorem sizeOf_data_lt {members : List (String × Json)} {w : SpanWrapper}
    (wrapper : ofMembers? members = some w) : sizeOf w.data < sizeOf (Json.obj members) :=
  Json.sizeOf_snd_lt (Json.mem_of_lookup (lookup_data wrapper))

/-- A wrapper that repeats a key is an object with three members, one of them its data, and the
data has a truthy member under the key. -/
theorem exists_inner_of_ofKeyed? {key : String} {value : Json} {w : SpanWrapper}
    (keyed : ofKeyed? key value = some w) :
    ∃ members inner, value = .obj members ∧ members.length = 3 ∧ ofMembers? members = some w ∧
      w.data.get? key = some inner ∧ inner.isTruthy = true := by
  unfold ofKeyed? at keyed
  split at keyed
  · next members =>
      split at keyed
      · next three =>
          obtain ⟨wrapper, truthy⟩ := Option.filter_eq_some_iff.1 keyed
          cases held : w.data.get? key with
          | none =>
              rw [held] at truthy
              cases truthy
          | some inner =>
              rw [held] at truthy
              exact ⟨members, inner, rfl, three, wrapper, rfl, truthy⟩
      · cases keyed
  · cases keyed

theorem sizeOf_inner_lt {key : String} {value inner : Json} {w : SpanWrapper}
    (keyed : ofKeyed? key value = some w) (held : w.data.get? key = some inner) :
    sizeOf inner < sizeOf value := by
  obtain ⟨members, -, rfl, -, wrapper, -⟩ := exists_inner_of_ofKeyed? keyed
  exact Nat.lt_trans (Json.sizeOf_lt_of_get? held) (sizeOf_data_lt wrapper)

end SpanWrapper

/-! ## Equations -/

namespace Normal

variable {limit : Option Nat} {location : Location} {members : List (String × Json)}
  {key : String} {value : Json} {w : SpanWrapper}

/-- What the normal form takes the members of an object for. -/
inductive Shape : List (String × Json) → Prop
  /-- A span wrapper around data that stands for nothing. -/
  | absent {members : List (String × Json)} {w : SpanWrapper}
      (wrapper : SpanWrapper.ofMembers? members = some w) (absent : w.data.isAbsent = true) :
      Shape members
  | wrapper {members : List (String × Json)} {w : SpanWrapper}
      (wrapper : SpanWrapper.ofMembers? members = some w) (present : w.data.isAbsent = false) :
      Shape members
  | name (key : String) {value : Json} (object : value.isObject = true) : Shape [(key, value)]
  | fields {members : List (String × Json)} (plain : SpanWrapper.ofMembers? members = none)
      (unnamed : ∀ key value, members = [(key, value)] → value.isObject = false) : Shape members

theorem shape (members : List (String × Json)) : Shape members := by
  cases wrapper : SpanWrapper.ofMembers? members with
  | some w =>
      cases data : w.data.isAbsent with
      | true => exact .absent wrapper data
      | false => exact .wrapper wrapper data
  | none =>
      by_cases named : ∃ key value, members = [(key, value)] ∧ value.isObject = true
      · obtain ⟨key, value, rfl, object⟩ := named
        exact .name key object
      · refine .fields wrapper ?_
        intro key value sole
        rw [← Bool.not_eq_true]
        exact fun object => named ⟨key, value, sole, object⟩

theorem visitMember_of_lookup (found : members.lookup key = some value) :
    visitMember limit location key members = visit limit location value := by
  induction members with
  | nil => cases found
  | cons first rest ih =>
      obtain ⟨k, v⟩ := first
      rw [Json.lookup_cons_ite] at found
      rw [visitMember]
      by_cases own : k = key
      · rw [if_pos own.symm] at found
        rw [if_pos own, Option.some.inj found]
      · rw [if_neg (Ne.symm own)] at found
        rw [if_neg own, ih found]

theorem visitData_of_lookup (found : members.lookup "data" = some value) :
    visitData limit location key members = visitInner limit location key value := by
  induction members with
  | nil => cases found
  | cons first rest ih =>
      obtain ⟨k, v⟩ := first
      rw [Json.lookup_cons_ite] at found
      rw [visitData]
      by_cases own : k = "data"
      · rw [if_pos own.symm] at found
        rw [if_pos own, Option.some.inj found]
      · rw [if_neg (Ne.symm own)] at found
        rw [if_neg own, ih found]

theorem visitInner_of_get? {data : Json} (found : data.get? key = some value) :
    visitInner limit location key data = visit limit location value := by
  cases data with
  | obj members => exact visitMember_of_lookup found
  | null => cases found
  | bool b => cases found
  | num n => cases found
  | str s => cases found
  | arr items => cases found

/-- The normal form of the field that a member of an object becomes. -/
def visitField (limit : Option Nat) (location : Location) (member : String × Json) :
    Except NormalizeError Node :=
  match SpanWrapper.ofKeyed? member.1 member.2 with
  | some w =>
    (checkSpan limit (location ++ [.key member.1]) w.start w.stop).bind fun span =>
      (visitInner limit (location ++ [.key member.1, .key "data", .key member.1]) member.1
        w.data).map (Node.withSpan span)
  | none => visit limit (location ++ [.key member.1]) member.2

theorem visitField_of_ofKeyed? {inner : Json}
    (keyed : SpanWrapper.ofKeyed? key value = some w) (held : w.data.get? key = some inner) :
    visitField limit location (key, value) =
      (checkSpan limit (location ++ [.key key]) w.start w.stop).bind fun span =>
        (visit limit (location ++ [.key key, .key "data", .key key]) inner).map
          (Node.withSpan span) := by
  simp only [visitField, keyed, visitInner_of_get? held]

theorem visitField_of_not_keyed (plain : SpanWrapper.ofKeyed? key value = none) :
    visitField limit location (key, value) = visit limit (location ++ [.key key]) value := by
  simp only [visitField, plain]

theorem visitFields_cons (member : String × Json) (rest : List (String × Json)) :
    visitFields limit location (member :: rest) =
      (visitField limit location member).bind fun node =>
        (visitFields limit location rest).map ((member.1, node) :: ·) := by
  obtain ⟨key, value⟩ := member
  rw [visitFields]
  cases keyed : SpanWrapper.ofKeyed? key value with
  | none => rw [visitField_of_not_keyed keyed]
  | some w =>
      obtain ⟨members, inner, rfl, -, wrapper, held, -⟩ :=
        SpanWrapper.exists_inner_of_ofKeyed? keyed
      rw [visitField_of_ofKeyed? keyed held]
      simp only [visitKeyed, visitData_of_lookup (SpanWrapper.lookup_data wrapper),
        visitInner_of_get? held]

theorem visit_absent (wrapper : SpanWrapper.ofMembers? members = some w)
    (absent : w.data.isAbsent = true) : visit limit location (.obj members) = .ok .null := by
  simp only [visit, wrapper, absent, if_true]

theorem visit_wrapper (wrapper : SpanWrapper.ofMembers? members = some w)
    (present : w.data.isAbsent = false) :
    visit limit location (.obj members) =
      (checkSpan limit location w.start w.stop).bind fun span =>
        (visit limit (location ++ [.key "data"]) w.data).map (Node.withSpan span) := by
  simp only [visit, wrapper, present, Bool.false_eq_true, if_false,
    visitMember_of_lookup (SpanWrapper.lookup_data wrapper)]

theorem visit_name (object : value.isObject = true) :
    visit limit location (.obj [(key, value)]) =
      (visit limit (location ++ [.key key]) value).bind fun node =>
        (node.named? (pascalCase key)).elim
          ((visitField limit location (key, value)).map fun field =>
            .object none [(key, field)] none)
          .ok := by
  have single : visitFields limit location [(key, value)] =
      (visitField limit location (key, value)).map fun field => [(key, field)] := by
    rw [visitFields_cons, visitFields]
    cases visitField limit location (key, value) <;> rfl
  rw [visit, SpanWrapper.ofMembers?_singleton]
  simp only [visitSole, object, if_true, single]
  cases visit limit (location ++ [.key key]) value with
  | error e => rfl
  | ok node =>
      simp only [Except.map, Except.bind]
      cases node.named? (pascalCase key) with
      | some named => rfl
      | none => cases visitField limit location (key, value) <;> rfl

theorem visit_fields (plain : SpanWrapper.ofMembers? members = none)
    (unnamed : ∀ key value, members = [(key, value)] → value.isObject = false) :
    visit limit location (.obj members) =
      (visitFields limit location members).map fun fields => .object none fields none := by
  have sole : visitSole limit location members = .ok none := by
    unfold visitSole
    split
    · next key value =>
        rw [unnamed key value rfl]
        rfl
    · rfl
  simp only [visit, plain, sole]
  rfl

end Normal

end TreeLens
