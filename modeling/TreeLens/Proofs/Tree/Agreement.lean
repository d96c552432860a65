import TreeLens.Proofs.Tree.Shapes

/-!
# Runs that agree

`Agree` says of two computations that either both fail or both succeed with related results. It
is built up along the computations (`Agree.bind`, `Agree.map`). The location of raw data is only
used for the text of an error, so the normal forms of the same data at two locations agree
(`Normal.agree_visit`).
-/

namespace TreeLens

/-- Both computations fail, for whatever reasons, or both have results, which are related. -/
inductive Agree {ε α β : Type} (R : α → β → Prop) : Except ε α → Except ε β → Prop
  | ok {a : α} {b : β} (related : R a b) : Agree R (.ok a) (.ok b)
  | error (e e' : ε) : Agree R (.error e) (.error e')

namespace Agree

variable {ε α β γ δ : Type} {R : α → β → Prop} {S : γ → δ → Prop} {x : Except ε α} {y : Except ε β}

theorem bind {f : α → Except ε γ} {g : β → Except ε δ} (first : Agree R x y)
    (next : ∀ a b, R a b → Agree S (f a) (g b)) : Agree S (x.bind f) (y.bind g) := by
  cases first with
  | ok related => exact next _ _ related
  | error e e' => exact .error e e'

theorem map {f : α → γ} {g : β → δ} (first : Agree R x y)
    (next : ∀ a b, R a b → S (f a) (g b)) : Agree S (x.map f) (y.map g) := by
  cases first with
  | ok related => exact .ok (next _ _ related)
  | error e e' => exact .error e e'

theorem mono {T : α → β → Prop} (agree : Agree R x y) (weaker : ∀ a b, R a b → T a b) :
    Agree T x y := by
  cases agree with
  | ok related => exact .ok (weaker _ _ related)
  | error e e' => exact .error e e'

theorem trans {T : β → γ → Prop} {z : Except ε γ} (first : Agree R x y) (second : Agree T y z) :
    Agree (fun a c => ∃ b, R a b ∧ T b c) x z := by
  cases first with
  | ok related =>
      cases second with
      | ok next => exact .ok ⟨_, related, next⟩
  | error e e' =>
      cases second with
      | error _ e'' => exact .error e e''

theorem exists_of_eq_ok {a : α} (agree : Agree R x y) (done : x = .ok a) :
    ∃ b, y = .ok b ∧ R a b := by
  cases agree with
  | ok related =>
      cases done
      exact ⟨_, rfl, related⟩
  | error e e' => cases done

theorem exists_ok_iff (agree : Agree R x y) : (∃ a, x = .ok a) ↔ ∃ b, y = .ok b := by
  cases agree with
  | ok related => exact ⟨fun _ => ⟨_, rfl⟩, fun _ => ⟨_, rfl⟩⟩
  | error e e' =>
      constructor
      · rintro ⟨a, ⟨⟩⟩
      · rintro ⟨b, ⟨⟩⟩

end Agree

theorem agree_checkSpan (limit : Option Nat) (location other : Location) (start stop : Nat) :
    Agree (· = ·) (checkSpan limit location start stop) (checkSpan limit other start stop) := by
  unfold checkSpan
  split
  · exact .error _ _
  · exact .ok rfl

/-! ## The same data at two locations -/

namespace Normal

variable {limit : Option Nat}

theorem agree_visitItems {items : List Json}
    (each : ∀ item ∈ items, ∀ location other : Location,
      Agree (· = ·) (visit limit location item) (visit limit other item))
    (location other : Location) (i j : Nat) :
    Agree (· = ·) (visitItems limit location i items) (visitItems limit other j items) := by
  induction items generalizing i j with
  | nil => exact .ok rfl
  | cons item rest ih =>
      obtain ⟨here, after⟩ := List.forall_mem_cons.1 each
      refine (here _ _).bind ?_
      rintro node _ rfl
      refine (ih after (i + 1) (j + 1)).map ?_
      rintro nodes _ rfl
      rfl

theorem agree_visitFields {members : List (String × Json)} {location other : Location}
    (each : ∀ member ∈ members,
      Agree (· = ·) (visitField limit location member) (visitField limit other member)) :
    Agree (· = ·) (visitFields limit location members) (visitFields limit other members) := by
  induction members with
  | nil => exact .ok rfl
  | cons member rest ih =>
      obtain ⟨here, after⟩ := List.forall_mem_cons.1 each
      rw [visitFields_cons, visitFields_cons]
      refine here.bind ?_
      rintro node _ rfl
      refine (ih after).map ?_
      rintro fields _ rfl
      rfl

/-- Where raw data stands matters for errors only. -/
theorem agree_visit (limit : Option Nat) (raw : Json) :
    ∀ location other : Location,
      Agree (· = ·) (visit limit location raw) (visit limit other raw) := by
  induction raw using Json.induction_sizeOf with
  | step raw ih =>
  intro location other
  -- What becomes the field is the value, or a part of it where a wrapper repeats the key.
  have fields : ∀ member : String × Json, sizeOf member.2 < sizeOf raw →
      Agree (· = ·) (visitField limit location member) (visitField limit other member) := by
    rintro ⟨key, value⟩ smaller
    cases keyed : SpanWrapper.ofKeyed? key value with
    | none =>
        rw [visitField_of_not_keyed keyed, visitField_of_not_keyed keyed]
        exact ih value smaller _ _
    | some w =>
        obtain ⟨-, inner, -, -, -, held, -⟩ := SpanWrapper.exists_inner_of_ofKeyed? keyed
        rw [visitField_of_ofKeyed? keyed held, visitField_of_ofKeyed? keyed held]
        refine (agree_checkSpan limit _ _ _ _).bind ?_
        rintro span _ rfl
        refine (ih inner (Nat.lt_trans (SpanWrapper.sizeOf_inner_lt keyed held) smaller) _ _).map ?_
        rintro node _ rfl
        rfl
  cases raw with
  | null => exact .ok rfl
  | bool b => exact .ok rfl
  | num n => exact .ok rfl
  | str s => exact .ok rfl
  | arr items =>
      refine (agree_visitItems ?_ location other 0 0).map (S := (· = ·)) ?_
      · exact fun item member => ih item (Json.sizeOf_item_lt member)
      · rintro nodes _ rfl
        rfl
  | obj members =>
      cases shape members with
      | absent wrapper absent =>
          rw [visit_absent wrapper absent, visit_absent wrapper absent]
          exact .ok rfl
      | wrapper wrapper present =>
          rw [visit_wrapper wrapper present, visit_wrapper wrapper present]
          refine (agree_checkSpan limit _ _ _ _).bind ?_
          rintro span _ rfl
          refine (ih _ (SpanWrapper.sizeOf_data_lt wrapper) _ _).map ?_
          rintro node _ rfl
          rfl
      | @name key value object =>
          have smaller := Json.sizeOf_snd_lt (List.mem_singleton_self (key, value))
          rw [visit_name object, visit_name object]
          refine (ih value smaller _ _).bind ?_
          rintro node _ rfl
          cases node.named? (pascalCase key) with
          | some named => exact .ok rfl
          | none =>
              refine (fields (key, value) smaller).map ?_
              rintro field _ rfl
              rfl
      | fields plain unnamed =>
          rw [visit_fields plain unnamed, visit_fields plain unnamed]
          refine (agree_visitFields ?_).map (S := (· = ·)) ?_
          · exact fun member found => fields member (Json.sizeOf_snd_lt found)
          · rintro fields _ rfl
            rfl

end Normal

end TreeLens
