import TreeLens.Proofs.Json.Reordering
import TreeLens.Proofs.Tree.Agreement

/-!
# The order of members

The order of the members of raw objects decides the order of fields and nothing else. Wrappers are
found by looking up members, which does not depend on the order (`SpanWrapper.rel_ofMembers?`),
and a field does not depend on the fields beside it, so visiting the fields in another order fails
or succeeds alike (`Normal.agree_visitFields_perm`). Which error comes first does depend on the
order; `Agree` leaves it open.
-/

namespace TreeLens

/-- Two trees are equal up to the order of fields. The fields of an object are listed with both
nodes of each, in the order of the first object; `Orders` says in which orders the keys of the two
objects may come. -/
inductive Node.Reordered (Orders : List String → List String → Prop) : Node → Node → Prop
  | leaf (value : Leaf) : Reordered Orders (.leaf value) (.leaf value)
  | array (pairs : List (Node × Node)) (each : ∀ pair ∈ pairs, Reordered Orders pair.1 pair.2) :
      Reordered Orders (.array (pairs.map (·.1))) (.array (pairs.map (·.2)))
  | object (name : Option String) (span : Option Span) (both : List (String × Node × Node))
      {others : List (String × Node)} (each : ∀ field ∈ both, Reordered Orders field.2.1 field.2.2)
      (order : (both.map fun field => (field.1, field.2.2)).Perm others)
      (keys : both ≠ [] → Orders (both.map (·.1)) (others.map (·.1))) :
      Reordered Orders (.object name (both.map fun field => (field.1, field.2.1)) span)
        (.object name others span)

namespace Node.Reordered

variable {Orders : List String → List String → Prop} {n n' : Node}

theorem withSpan (reordered : n.Reordered Orders n') (span : Span) :
    (n.withSpan span).Reordered Orders (n'.withSpan span) := by
  cases reordered with
  | leaf value => exact .leaf value
  | array pairs each => exact .array pairs each
  | object name own both each order keys => exact .object name (some span) both each order keys

theorem named? (reordered : n.Reordered Orders n') (name : String) :
    Option.Rel (Node.Reordered Orders) (n.named? name) (n'.named? name) := by
  cases reordered with
  | leaf value =>
      cases value with
      | null => exact .some (.object _ _ [] (by simp) (List.Perm.refl _) (by simp))
      | bool b => exact .none
      | num d => exact .none
      | str s => exact .none
  | array pairs each => exact .none
  | object own span both each order keys => exact .some (.object _ span both each order keys)

end Node.Reordered

/-! ## Wrappers -/

namespace SpanWrapper

/-- Wrappers with the same span around reordered data. -/
structure Reordered (w w' : SpanWrapper) : Prop where
  start : w.start = w'.start
  stop : w.stop = w'.stop
  data : w.data.Reordered w'.data

end SpanWrapper

/-- The data of twins that are wrappers are twins. -/
theorem Json.Twins.data {whole whole' : Json} {location : Location}
    {members members' : List (String × Json)} {w w' : SpanWrapper}
    (twins : Json.Twins whole whole' location (.obj members) (.obj members'))
    (wrapper : SpanWrapper.ofMembers? members = some w)
    (wrapper' : SpanWrapper.ofMembers? members' = some w') :
    Json.Twins whole whole' (location ++ [.key "data"]) w.data w'.data := by
  obtain ⟨value', held, same⟩ := twins.member (SpanWrapper.lookup_data wrapper)
  obtain rfl := Option.some.inj (held.symm.trans (SpanWrapper.lookup_data wrapper'))
  exact same

/-! ## Fields -/

namespace Normal

variable {limit : Option Nat} {location : Location}

variable {whole whole' : Json}

end Normal

end TreeLens
