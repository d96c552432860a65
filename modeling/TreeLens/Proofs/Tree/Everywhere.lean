import TreeLens.Proofs.Json.Everywhere
import TreeLens.Tree.Normalize

/-!
# Properties of all nodes of a tree

`Node.Everywhere P` says that a tree and every node in it, at whatever depth, has a property.

The normal form makes nodes in few ways: leaves, arrays, objects with the keys of raw
members, and objects that are given a span or a name. `Normal.Keeps` says that all of these
have the property, and `everywhere_of_normalize` that then every node of a normal form has
it. The seven functions of the normal form are followed there, so that a property of normal
forms is proved by looking at single nodes.
-/

namespace TreeLens

namespace Node

variable {P : Node → Prop} {n m : Node}

/-- A node and all nodes in it have a property. -/
def Everywhere (P : Node → Prop) (n : Node) : Prop :=
  ∀ path m, n.resolve? path = some m → P m

theorem everywhere_iff :
    n.Everywhere P ↔ P n ∧ ∀ step m, n.child? step = some m → m.Everywhere P := by
  constructor
  · intro all
    refine ⟨all [] n rfl, ?_⟩
    intro step m found path inner resolved
    refine all (step :: path) inner ?_
    rw [resolve?, found]
    exact resolved
  · rintro ⟨own, each⟩ path inner resolved
    cases path with
    | nil =>
        cases resolved
        exact own
    | cons step rest =>
        obtain ⟨m, found, resolved⟩ := Option.bind_eq_some_iff.1 resolved
        exact each step m found rest inner resolved

theorem everywhere_leaf {value : Leaf} (own : P (.leaf value)) : (Node.leaf value).Everywhere P :=
  everywhere_iff.2 ⟨own, fun step m found => by cases step <;> cases found⟩

theorem everywhere_array {items : List Node} (own : P (.array items))
    (each : ∀ item ∈ items, item.Everywhere P) : (Node.array items).Everywhere P := by
  refine everywhere_iff.2 ⟨own, ?_⟩
  intro step m found
  cases step with
  | field i => cases found
  | item i => exact each m (List.mem_of_getElem? found)

theorem everywhere_object {name : Option String} {fields : List (String × Node)}
    {span : Option Span} (own : P (.object name fields span))
    (each : ∀ field ∈ fields, field.2.Everywhere P) :
    (Node.object name fields span).Everywhere P := by
  refine everywhere_iff.2 ⟨own, ?_⟩
  intro step m found
  cases step with
  | item i => cases found
  | field i =>
      obtain ⟨field, place, rfl⟩ := Option.map_eq_some_iff.1 found
      exact each field (List.mem_of_getElem? place)

theorem Everywhere.item {items : List Node} (all : (Node.array items).Everywhere P) :
    ∀ item ∈ items, item.Everywhere P := by
  intro item member
  obtain ⟨i, here⟩ := List.mem_iff_getElem?.1 member
  exact (everywhere_iff.1 all).2 (.item i) item here

theorem Everywhere.field {name : Option String} {fields : List (String × Node)}
    {span : Option Span} (all : (Node.object name fields span).Everywhere P) :
    ∀ field ∈ fields, field.2.Everywhere P := by
  intro field member
  obtain ⟨i, here⟩ := List.mem_iff_getElem?.1 member
  exact (everywhere_iff.1 all).2 (.field i) field.2 (by rw [child?, here]; rfl)

/-- A span changes nothing below the node that it is put on. -/
theorem child?_withSpan (span : Span) (n : Node) (step : Step) :
    (n.withSpan span).child? step = n.child? step := by
  cases n <;> cases step <;> rfl

/-- Nor does a name; null has no children, and neither has the object it becomes. -/
theorem child?_of_named? {name : String} (named : n.named? name = some m) (step : Step) :
    m.child? step = n.child? step := by
  unfold named? at named
  split at named
  · cases named
    cases step <;> rfl
  · cases named
    cases step <;> rfl
  · cases named

theorem Everywhere.withSpan {span : Span} (all : n.Everywhere P) (own : P (n.withSpan span)) :
    (n.withSpan span).Everywhere P := by
  refine everywhere_iff.2 ⟨own, ?_⟩
  intro step m found
  rw [child?_withSpan] at found
  exact (everywhere_iff.1 all).2 step m found

theorem Everywhere.named? {name : String} (all : n.Everywhere P)
    (named : n.named? name = some m) (own : P m) : m.Everywhere P := by
  refine everywhere_iff.2 ⟨own, ?_⟩
  intro step inner found
  rw [child?_of_named? named] at found
  exact (everywhere_iff.1 all).2 step inner found

end Node

theorem Except.bind_eq_ok {ε α β : Type} {x : Except ε α} {f : α → Except ε β} {b : β} :
    x.bind f = .ok b ↔ ∃ a, x = .ok a ∧ f a = .ok b := by
  cases x <;> simp [Except.bind]

theorem Except.map_eq_ok {ε α β : Type} {x : Except ε α} {f : α → β} {b : β} :
    x.map f = .ok b ↔ ∃ a, x = .ok a ∧ f a = b := by
  cases x <;> simp [Except.map]

/-! ## The normal form -/

namespace Normal

/-- The leaves that the normal form makes of raw values with the property `Q`, and null, which
also stands for data that is not there. -/
inductive LeafOf (Q : Json → Prop) : Leaf → Prop
  | null : LeafOf Q .null
  | bool (b : Bool) : LeafOf Q (.bool b)
  | num {value : Number} (own : Q (.num value)) : LeafOf Q (.num value.toDouble)
  | text {s : String} (own : Q (.str s)) : LeafOf Q (Leaf.ofText s)

/-- Whatever node the normal form makes has the property `P`, if the raw values that it makes
leaves of and takes fields from have the property `Q`. -/
structure Keeps (limit : Option Nat) (Q : Json → Prop) (P : Node → Prop) : Prop where
  leaf : ∀ {value}, LeafOf Q value → P (.leaf value)
  array : ∀ items, P (.array items)
  fields : ∀ {members : List (String × Json)} {fields : List (String × Node)}, Q (.obj members) →
    fields.map (·.1) = members.map (·.1) → P (.object none fields none)
  withSpan : ∀ {location : Location} {start stop : Nat} {span : Span} {n : Node},
    checkSpan limit location start stop = .ok span → P n → P (n.withSpan span)
  named? : ∀ {name : String} {n m : Node}, n.named? name = some m → P n → P m

namespace Keeps

variable {limit : Option Nat} {Q : Json → Prop} {P : Node → Prop}

mutual

theorem visit (keeps : Keeps limit Q P) (location : Location) :
    ∀ (raw : Json) {n : Node}, raw.Everywhere Q → Normal.visit limit location raw = .ok n →
      n.Everywhere P
  | .null, n, _, ok => by cases ok; exact Node.everywhere_leaf (keeps.leaf .null)
  | .bool b, n, _, ok => by cases ok; exact Node.everywhere_leaf (keeps.leaf (.bool b))
  | .num value, n, all, ok => by
      cases ok
      exact Node.everywhere_leaf (keeps.leaf (.num (all _ List.mem_cons_self)))
  | .str s, n, all, ok => by
      cases ok
      exact Node.everywhere_leaf (keeps.leaf (.text (all _ List.mem_cons_self)))
  | .arr items, n, all, ok => by
      rw [Normal.visit, Except.map_eq_ok] at ok
      obtain ⟨nodes, ok, rfl⟩ := ok
      exact Node.everywhere_array (keeps.array nodes)
        (keeps.visitItems location 0 items (Json.everywhere_arr.1 all).2 ok)
  | .obj members, n, all, ok => by
      obtain ⟨own, each⟩ := Json.everywhere_obj.1 all
      rw [Normal.visit] at ok
      split at ok
      · split at ok
        · cases ok
          exact Node.everywhere_leaf (keeps.leaf .null)
        · -- A span wrapper: the checked span is put on its data.
          obtain ⟨span, checked, ok⟩ := Except.bind_eq_ok.1 ok
          obtain ⟨inner, visited, rfl⟩ := Except.map_eq_ok.1 ok
          have data := keeps.visitMember _ "data" members each visited
          exact data.withSpan (keeps.withSpan checked (Node.everywhere_iff.1 data).1)
      · obtain ⟨sole, tried, ok⟩ := Except.bind_eq_ok.1 ok
        cases sole with
        | some named =>
            cases ok
            exact keeps.visitSole location members each tried
        | none =>
            obtain ⟨fields, visited, rfl⟩ := Except.map_eq_ok.1 ok
            obtain ⟨keys, values⟩ := keeps.visitFields location members each visited
            exact Node.everywhere_object (keeps.fields own keys) values
termination_by structural raw => raw

theorem visitItems (keeps : Keeps limit Q P) (location : Location) (i : Nat) :
    ∀ (items : List Json) {nodes : List Node}, (∀ item ∈ items, item.Everywhere Q) →
      Normal.visitItems limit location i items = .ok nodes → ∀ n ∈ nodes, n.Everywhere P
  | [], nodes, _, ok => by cases ok; simp
  | item :: rest, nodes, each, ok => by
      rw [Normal.visitItems] at ok
      obtain ⟨first, visited, ok⟩ := Except.bind_eq_ok.1 ok
      obtain ⟨others, later, rfl⟩ := Except.map_eq_ok.1 ok
      obtain ⟨here, after⟩ := List.forall_mem_cons.1 each
      exact List.forall_mem_cons.2 ⟨keeps.visit _ item here visited,
        keeps.visitItems location (i + 1) rest after later⟩
termination_by structural items => items

theorem visitSole (keeps : Keeps limit Q P) (location : Location) :
    ∀ (members : List (String × Json)) {named : Node},
      (∀ member ∈ members, member.2.Everywhere Q) →
      Normal.visitSole limit location members = .ok (some named) → named.Everywhere P
  | [], named, _, ok => by cases ok
  | [(key, value)], named, each, ok => by
      rw [Normal.visitSole] at ok
      split at ok
      · obtain ⟨inner, visited, renamed⟩ := Except.map_eq_ok.1 ok
        have all := keeps.visit _ value (each (key, value) List.mem_cons_self) visited
        exact all.named? renamed (keeps.named? renamed (Node.everywhere_iff.1 all).1)
      · cases ok
  | _ :: _ :: _, named, _, ok => by cases ok
termination_by structural members => members

/-- Fields have the keys of the members. -/
theorem visitFields (keeps : Keeps limit Q P) (location : Location) :
    ∀ (members : List (String × Json)) {fields : List (String × Node)},
      (∀ member ∈ members, member.2.Everywhere Q) →
      Normal.visitFields limit location members = .ok fields →
      fields.map (·.1) = members.map (·.1) ∧ ∀ field ∈ fields, field.2.Everywhere P
  | [], fields, _, ok => by cases ok; simp
  | (key, value) :: rest, fields, each, ok => by
      rw [Normal.visitFields] at ok
      obtain ⟨node, child, ok⟩ := Except.bind_eq_ok.1 ok
      obtain ⟨others, later, rfl⟩ := Except.map_eq_ok.1 ok
      obtain ⟨here, after⟩ := List.forall_mem_cons.1 each
      obtain ⟨keys, values⟩ := keeps.visitFields location rest after later
      refine ⟨by rw [List.map_cons, List.map_cons, keys], List.forall_mem_cons.2 ⟨?_, values⟩⟩
      split at child
      · -- A wrapper that repeats the key: the checked span is put on the inner member.
        obtain ⟨span, checked, child⟩ := Except.bind_eq_ok.1 child
        obtain ⟨inner, visited, rfl⟩ := Except.map_eq_ok.1 child
        have data := keeps.visitKeyed _ key value here visited
        exact data.withSpan (keeps.withSpan checked (Node.everywhere_iff.1 data).1)
      · exact keeps.visit _ value here child
termination_by structural members => members

theorem visitMember (keeps : Keeps limit Q P) (location : Location) (key : String) :
    ∀ (members : List (String × Json)) {n : Node}, (∀ member ∈ members, member.2.Everywhere Q) →
      Normal.visitMember limit location key members = .ok n → n.Everywhere P
  | [], n, _, ok => by cases ok; exact Node.everywhere_leaf (keeps.leaf .null)
  | (k, value) :: rest, n, each, ok => by
      obtain ⟨here, after⟩ := List.forall_mem_cons.1 each
      rw [Normal.visitMember] at ok
      split at ok
      · exact keeps.visit _ value here ok
      · exact keeps.visitMember location key rest after ok
termination_by structural members => members

theorem visitKeyed (keeps : Keeps limit Q P) (location : Location) (key : String) :
    ∀ (raw : Json) {n : Node}, raw.Everywhere Q →
      Normal.visitKeyed limit location key raw = .ok n → n.Everywhere P
  | .obj members, n, all, ok =>
      keeps.visitData location key members (Json.everywhere_obj.1 all).2 ok
  | .null, n, _, ok => by cases ok; exact Node.everywhere_leaf (keeps.leaf .null)
  | .bool b, n, _, ok => by cases ok; exact Node.everywhere_leaf (keeps.leaf .null)
  | .num value, n, _, ok => by cases ok; exact Node.everywhere_leaf (keeps.leaf .null)
  | .str s, n, _, ok => by cases ok; exact Node.everywhere_leaf (keeps.leaf .null)
  | .arr items, n, _, ok => by cases ok; exact Node.everywhere_leaf (keeps.leaf .null)
termination_by structural raw => raw

theorem visitData (keeps : Keeps limit Q P) (location : Location) (key : String) :
    ∀ (members : List (String × Json)) {n : Node}, (∀ member ∈ members, member.2.Everywhere Q) →
      Normal.visitData limit location key members = .ok n → n.Everywhere P
  | [], n, _, ok => by cases ok; exact Node.everywhere_leaf (keeps.leaf .null)
  | (k, value) :: rest, n, each, ok => by
      obtain ⟨here, after⟩ := List.forall_mem_cons.1 each
      rw [Normal.visitData] at ok
      split at ok
      · exact keeps.visitInner location key value here ok
      · exact keeps.visitData location key rest after ok
termination_by structural members => members

theorem visitInner (keeps : Keeps limit Q P) (location : Location) (key : String) :
    ∀ (raw : Json) {n : Node}, raw.Everywhere Q →
      Normal.visitInner limit location key raw = .ok n → n.Everywhere P
  | .obj members, n, all, ok =>
      keeps.visitMember location key members (Json.everywhere_obj.1 all).2 ok
  | .null, n, _, ok => by cases ok; exact Node.everywhere_leaf (keeps.leaf .null)
  | .bool b, n, _, ok => by cases ok; exact Node.everywhere_leaf (keeps.leaf .null)
  | .num value, n, _, ok => by cases ok; exact Node.everywhere_leaf (keeps.leaf .null)
  | .str s, n, _, ok => by cases ok; exact Node.everywhere_leaf (keeps.leaf .null)
  | .arr items, n, _, ok => by cases ok; exact Node.everywhere_leaf (keeps.leaf .null)
termination_by structural raw => raw

end

end Keeps

end Normal

/-- A property that the normal form keeps holds of all its nodes. -/
theorem everywhere_of_normalize {limit : Option Nat} {Q : Json → Prop} {P : Node → Prop}
    {raw : Json} {n : Node} (keeps : Normal.Keeps limit Q P) (all : raw.Everywhere Q)
    (ok : normalize limit raw = .ok n) : n.Everywhere P :=
  keeps.visit [] raw all ok

end TreeLens
