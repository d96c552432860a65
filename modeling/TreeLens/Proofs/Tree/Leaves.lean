import TreeLens.Proofs.Json.Keys
import TreeLens.Proofs.Tree.Everywhere

/-!
# Leaves of normal forms

The normal form takes wrappers off and renames objects, but the data stays: read from left
to right, its leaves are those of the raw data (`Normal.leaves_of_visit`). What a span wrapper
holds beside its data is no data. A field that is a wrapper around its own key may hide
some, because only the repeated member is kept; `Json.Transparent` says that it does not.
-/

namespace TreeLens

/-! ## Leaves from left to right -/

namespace Node

mutual

/-- The leaves of a tree from left to right, without the nulls. -/
def leaves : Node → List Leaf
  | .leaf value => if value = .null then [] else [value]
  | .array items => leavesOfItems items
  | .object _ fields _ => leavesOfFields fields

def leavesOfItems : List Node → List Leaf
  | [] => []
  | item :: rest => item.leaves ++ leavesOfItems rest

def leavesOfFields : List (String × Node) → List Leaf
  | [] => []
  | (_, value) :: rest => value.leaves ++ leavesOfFields rest

end

theorem leaves_withSpan (span : Span) (n : Node) : (n.withSpan span).leaves = n.leaves := by
  cases n <;> rfl

theorem leaves_of_named? {n m : Node} {name : String} (named : n.named? name = some m) :
    m.leaves = n.leaves := by
  unfold named? at named
  split at named <;> cases named <;> rfl

end Node

namespace Json

mutual

/-- The leaves of raw data from left to right, without the nulls: texts stand for what they
spell and numbers are doubles. Of a span wrapper only the data counts, and not even that if
it stands for nothing. -/
def leaves : Json → List Leaf
  | .null => []
  | .bool b => [.bool b]
  | .num n => [.num n.toDouble]
  | .str s => [Leaf.ofText s]
  | .arr items => leavesOfItems items
  | .obj members =>
    match SpanWrapper.ofMembers? members with
    | some w => if w.data.isAbsent then [] else leavesUnder "data" members
    | none => leavesOfMembers members

def leavesOfItems : List Json → List Leaf
  | [] => []
  | item :: rest => item.leaves ++ leavesOfItems rest

def leavesOfMembers : List (String × Json) → List Leaf
  | [] => []
  | (_, value) :: rest => value.leaves ++ leavesOfMembers rest

/-- The leaves of the first member under a key. -/
def leavesUnder (key : String) : List (String × Json) → List Leaf
  | [] => []
  | (k, value) :: rest => if k = key then value.leaves else leavesUnder key rest

end

theorem leavesUnder_of_lookup {key : String} {value : Json} {members : List (String × Json)}
    (found : members.lookup key = some value) : leavesUnder key members = value.leaves := by
  induction members with
  | nil => cases found
  | cons member rest ih =>
      obtain ⟨k, v⟩ := member
      rw [lookup_cons_ite] at found
      rw [leavesUnder]
      by_cases own : k = key
      · rw [if_pos own.symm] at found
        rw [if_pos own, Option.some.inj found]
      · rw [if_neg (Ne.symm own)] at found
        rw [if_neg own]
        exact ih found

end Json

/-! ## Wrappers that hide nothing -/

/-- The span wrapper that a value is. -/
def SpanWrapper.of? : Json → Option SpanWrapper
  | .obj members => SpanWrapper.ofMembers? members
  | _ => none

/-- A wrapper in a field of the given key hides nothing: the key is not `none`, and if the
data has a truthy member of the same key, it has no other member. -/
def SpanWrapper.Transparent (key : String) (w : SpanWrapper) : Prop :=
  key ≠ "none" ∧ ((w.data.get? key).any Json.isTruthy → w.data.children.length = 1)

instance (key : String) (w : SpanWrapper) : Decidable (w.Transparent key) :=
  inferInstanceAs (Decidable (_ ∧ _))

/-- The wrappers in the fields of an object hide nothing. The members of an object that is
itself a span wrapper are no fields. -/
def Json.Transparent : Json → Prop
  | .obj members => SpanWrapper.ofMembers? members = none →
    ∀ field ∈ members, ∀ w ∈ SpanWrapper.of? field.2, w.Transparent field.1
  | _ => True

instance : DecidablePred Json.Transparent
  | .obj members => inferInstanceAs (Decidable (SpanWrapper.ofMembers? members = none →
    ∀ field ∈ members, ∀ w ∈ SpanWrapper.of? field.2, w.Transparent field.1))
  | .null => .isTrue trivial
  | .bool _ => .isTrue trivial
  | .num _ => .isTrue trivial
  | .str _ => .isTrue trivial
  | .arr _ => .isTrue trivial

/-- An object with one child is known by any member that it has. -/
theorem Json.eq_singleton_of_get? {value inner : Json} {key : String}
    (single : value.children.length = 1) (held : value.get? key = some inner) :
    value = .obj [(key, inner)] := by
  cases value with
  | obj members =>
      obtain ⟨⟨k, v⟩, rfl⟩ := List.length_eq_one_iff.1 (by simpa [children] using single)
      rw [get?, lookup_cons_ite] at held
      split at held
      · next own => rw [own, Option.some.inj held]
      · cases held
  | null => cases held
  | bool b => cases held
  | num n => cases held
  | str s => cases held
  | arr items => cases held

/-- The data of a wrapper is its member `data`. -/
theorem SpanWrapper.lookup_data {members : List (String × Json)} {w : SpanWrapper}
    (wrapper : ofMembers? members = some w) : members.lookup "data" = some w.data := by
  unfold ofMembers? at wrapper
  split at wrapper
  · next found =>
      cases wrapper
      exact found
  · cases wrapper

/-- An object with one member is no span wrapper. -/
theorem SpanWrapper.ofMembers?_singleton (key : String) (value : Json) :
    ofMembers? [(key, value)] = none := by
  unfold ofMembers?
  split
  · next start stop _ =>
      -- The one key would have to be `start` and `end`.
      simp only [List.lookup_cons, List.lookup_nil] at start stop
      by_cases first : "start" == key
      · simp only [beq_iff_eq] at first
        subst first
        simp at stop
      · simp [first] at start
  · rfl

/-- The leaves of a wrapper with data of one member are those of the member, unless the
wrapper stands for nothing. -/
theorem SpanWrapper.leaves_of_data_singleton {members : List (String × Json)} {w : SpanWrapper}
    {key : String} {inner : Json} (wrapper : ofMembers? members = some w)
    (data : w.data = .obj [(key, inner)]) (unlike : key ≠ "none") :
    (Json.obj members).leaves = inner.leaves := by
  have present : w.data.isAbsent = false := by
    rw [data, Json.isAbsent, Json.lookup_cons_ite, if_neg (Ne.symm unlike)]
    rfl
  rw [Json.leaves, wrapper]
  simp only [present, Bool.false_eq_true, if_false]
  rw [Json.leavesUnder_of_lookup (lookup_data wrapper), data, Json.leaves,
    ofMembers?_singleton]
  simp [Json.leavesOfMembers]

/-- The wrapper around a field that repeats its key, if it hides nothing, has the leaves of
the repeated member. -/
theorem SpanWrapper.exists_of_ofKeyed? {key : String} {value : Json} {w : SpanWrapper}
    (transparent : ∀ w ∈ SpanWrapper.of? value, w.Transparent key)
    (keyed : ofKeyed? key value = some w) :
    ∃ inner, value.get? "data" = some w.data ∧ w.data.get? key = some inner ∧
      value.leaves = inner.leaves := by
  unfold ofKeyed? at keyed
  split at keyed
  · next members =>
      split at keyed
      · obtain ⟨wrapper, truthy⟩ := Option.filter_eq_some_iff.1 keyed
        obtain ⟨unlike, alone⟩ := transparent w wrapper
        have single := alone truthy
        cases held : w.data.get? key with
        | none =>
            rw [held] at truthy
            cases truthy
        | some inner =>
            refine ⟨inner, lookup_data wrapper, rfl, ?_⟩
            exact leaves_of_data_singleton wrapper
              (Json.eq_singleton_of_get? single held) unlike
      · cases keyed
  · cases keyed

/-! ## The normal form -/

theorem Leaf.ofText_ne_null (s : String) : Leaf.ofText s ≠ .null := by
  unfold ofText
  split
  · simp
  · split
    · simp
    · split
      · split <;> simp
      · simp

namespace Normal

open Json (Everywhere Transparent)

mutual

theorem leaves_of_visit {limit : Option Nat} (location : Location) :
    ∀ (raw : Json) {n : Node}, raw.Everywhere Transparent → visit limit location raw = .ok n →
      n.leaves = raw.leaves
  | .null, n, _, ok => by cases ok; rfl
  | .bool b, n, _, ok => by cases ok; rfl
  | .num value, n, _, ok => by cases ok; rfl
  | .str s, n, _, ok => by
      cases ok
      rw [Node.leaves, if_neg (Leaf.ofText_ne_null s), Json.leaves]
  | .arr items, n, all, ok => by
      rw [visit, Except.map_eq_ok] at ok
      obtain ⟨nodes, ok, rfl⟩ := ok
      rw [Node.leaves, Json.leaves]
      exact leaves_of_visitItems location 0 items (Json.everywhere_arr.1 all).2 ok
  | .obj members, n, all, ok => by
      obtain ⟨own, each⟩ := Json.everywhere_obj.1 all
      rw [visit] at ok
      split at ok
      · next w wrapper =>
          rw [Json.leaves, wrapper]
          split at ok
          · next absent =>
              cases ok
              simp only [absent, if_true]
              rfl
          · next present =>
              obtain ⟨span, -, ok⟩ := Except.bind_eq_ok.1 ok
              obtain ⟨inner, visited, rfl⟩ := Except.map_eq_ok.1 ok
              simp only [present, Bool.false_eq_true, if_false]
              rw [Node.leaves_withSpan]
              exact leaves_of_visitMember _ "data" members each visited
      · next noWrapper =>
          rw [Json.leaves, noWrapper]
          obtain ⟨sole, tried, ok⟩ := Except.bind_eq_ok.1 ok
          cases sole with
          | some named =>
              cases ok
              exact leaves_of_visitSole location members each tried
          | none =>
              obtain ⟨fields, visited, rfl⟩ := Except.map_eq_ok.1 ok
              exact leaves_of_visitFields location members (own noWrapper) each visited
termination_by structural raw => raw

theorem leaves_of_visitItems {limit : Option Nat} (location : Location) (i : Nat) :
    ∀ (items : List Json) {nodes : List Node}, (∀ item ∈ items, item.Everywhere Transparent) →
      visitItems limit location i items = .ok nodes →
      Node.leavesOfItems nodes = Json.leavesOfItems items
  | [], nodes, _, ok => by cases ok; rfl
  | item :: rest, nodes, each, ok => by
      obtain ⟨first, visited, ok⟩ := Except.bind_eq_ok.1 ok
      obtain ⟨others, later, rfl⟩ := Except.map_eq_ok.1 ok
      obtain ⟨here, after⟩ := List.forall_mem_cons.1 each
      rw [Node.leavesOfItems, Json.leavesOfItems, leaves_of_visit _ item here visited,
        leaves_of_visitItems location (i + 1) rest after later]
termination_by structural items => items

theorem leaves_of_visitSole {limit : Option Nat} (location : Location) :
    ∀ (members : List (String × Json)) {named : Node},
      (∀ member ∈ members, member.2.Everywhere Transparent) →
      visitSole limit location members = .ok (some named) →
      named.leaves = Json.leavesOfMembers members
  | [], named, _, ok => by cases ok
  | [(key, value)], named, each, ok => by
      rw [visitSole] at ok
      split at ok
      · obtain ⟨inner, visited, renamed⟩ := Except.map_eq_ok.1 ok
        rw [Node.leaves_of_named? renamed,
          leaves_of_visit _ value (each (key, value) List.mem_cons_self) visited]
        simp [Json.leavesOfMembers]
      · cases ok
  | _ :: _ :: _, named, _, ok => by cases ok
termination_by structural members => members

theorem leaves_of_visitFields {limit : Option Nat} (location : Location) :
    ∀ (members : List (String × Json)) {fields : List (String × Node)},
      (∀ field ∈ members, ∀ w ∈ SpanWrapper.of? field.2, w.Transparent field.1) →
      (∀ member ∈ members, member.2.Everywhere Transparent) →
      visitFields limit location members = .ok fields →
      Node.leavesOfFields fields = Json.leavesOfMembers members
  | [], fields, _, _, ok => by cases ok; rfl
  | (key, value) :: rest, fields, own, each, ok => by
      rw [visitFields] at ok
      obtain ⟨node, child, ok⟩ := Except.bind_eq_ok.1 ok
      obtain ⟨others, later, rfl⟩ := Except.map_eq_ok.1 ok
      obtain ⟨ownHere, ownAfter⟩ := List.forall_mem_cons.1 own
      obtain ⟨here, after⟩ := List.forall_mem_cons.1 each
      rw [Node.leavesOfFields, Json.leavesOfMembers,
        leaves_of_visitFields location rest ownAfter after later]
      congr 1
      split at child
      · next w keyed =>
          -- A wrapper that repeats the key: only the repeated member is visited.
          obtain ⟨span, -, child⟩ := Except.bind_eq_ok.1 child
          obtain ⟨inner, visited, rfl⟩ := Except.map_eq_ok.1 child
          obtain ⟨repeated, data, held, same⟩ := SpanWrapper.exists_of_ofKeyed? ownHere keyed
          rw [Node.leaves_withSpan, same]
          exact leaves_of_visitKeyed _ key value here visited data held
      · exact leaves_of_visit _ value here child
termination_by structural members => members

theorem leaves_of_visitMember {limit : Option Nat} (location : Location) (key : String) :
    ∀ (members : List (String × Json)) {n : Node},
      (∀ member ∈ members, member.2.Everywhere Transparent) →
      visitMember limit location key members = .ok n →
      n.leaves = Json.leavesUnder key members
  | [], n, _, ok => by cases ok; rfl
  | (k, value) :: rest, n, each, ok => by
      obtain ⟨here, after⟩ := List.forall_mem_cons.1 each
      rw [visitMember] at ok
      rw [Json.leavesUnder]
      split at ok
      · next own =>
          rw [if_pos own]
          exact leaves_of_visit _ value here ok
      · next other =>
          rw [if_neg other]
          exact leaves_of_visitMember location key rest after ok
termination_by structural members => members

theorem leaves_of_visitKeyed {limit : Option Nat} (location : Location) (key : String) :
    ∀ (raw : Json) {n : Node} {data inner : Json}, raw.Everywhere Transparent →
      visitKeyed limit location key raw = .ok n → raw.get? "data" = some data →
      data.get? key = some inner → n.leaves = inner.leaves
  | .obj members, n, data, inner, all, ok, found, held =>
      leaves_of_visitData location key members (Json.everywhere_obj.1 all).2 ok found held
  | .null, _, _, _, _, _, found, _ => by cases found
  | .bool _, _, _, _, _, _, found, _ => by cases found
  | .num _, _, _, _, _, _, found, _ => by cases found
  | .str _, _, _, _, _, _, found, _ => by cases found
  | .arr _, _, _, _, _, _, found, _ => by cases found
termination_by structural raw => raw

theorem leaves_of_visitData {limit : Option Nat} (location : Location) (key : String) :
    ∀ (members : List (String × Json)) {n : Node} {data inner : Json},
      (∀ member ∈ members, member.2.Everywhere Transparent) →
      visitData limit location key members = .ok n → members.lookup "data" = some data →
      data.get? key = some inner → n.leaves = inner.leaves
  | [], n, data, inner, _, _, found, _ => by cases found
  | (k, value) :: rest, n, data, inner, each, ok, found, held => by
      obtain ⟨here, after⟩ := List.forall_mem_cons.1 each
      rw [visitData] at ok
      rw [Json.lookup_cons_ite] at found
      split at ok
      · next own =>
          rw [if_pos own.symm] at found
          rw [← Option.some.inj found] at held
          exact leaves_of_visitInner location key value here ok held
      · next other =>
          rw [if_neg (Ne.symm other)] at found
          exact leaves_of_visitData location key rest after ok found held
termination_by structural members => members

theorem leaves_of_visitInner {limit : Option Nat} (location : Location) (key : String) :
    ∀ (raw : Json) {n : Node} {inner : Json}, raw.Everywhere Transparent →
      visitInner limit location key raw = .ok n → raw.get? key = some inner →
      n.leaves = inner.leaves
  | .obj members, n, inner, all, ok, held =>
      (leaves_of_visitMember location key members (Json.everywhere_obj.1 all).2 ok).trans
        (Json.leavesUnder_of_lookup held)
  | .null, _, _, _, _, held => by cases held
  | .bool _, _, _, _, _, held => by cases held
  | .num _, _, _, _, _, held => by cases held
  | .str _, _, _, _, _, held => by cases held
  | .arr _, _, _, _, _, held => by cases held
termination_by structural raw => raw

end

end Normal

/-- **No data is lost, repeated or moved.** If wrappers in fields hide nothing, at whatever
depth, then the leaves of a normal form are the leaves of the raw data, in order. -/
theorem leaves_normalize {limit : Option Nat} {raw : Json} {n : Node}
    (transparent : raw.Everywhere Json.Transparent) (ok : normalize limit raw = .ok n) :
    n.leaves = raw.leaves :=
  Normal.leaves_of_visit [] raw transparent ok

/-- A name wrapper inside a span wrapper, a field that is a wrapper around its own key, a
wrapper around nothing with data in it, and texts that spell other leaves. -/
theorem leaves_normalize_wrapped :
    let wrapped (stop : Nat) (data : Json) : Json :=
      .obj [("start", .ofNat 0), ("end", .ofNat stop), ("data", data)]
    let raw : Json := wrapped 9 (.obj [("call", .obj
      [("id", wrapped 4 (.obj [("id", .arr [.str "f", .null, .str "true"])])),
        ("type", wrapped 7 (.obj [("none", .bool true), ("was", .str "int")])),
        ("args", .arr [.arr [.num (.int 3)], wrapped 8 (.obj [("raw", .str "x")])])])])
    ∃ n, normalize (some 9) raw = .ok n ∧
      n.leaves = [.str "f", .bool true, .num (Double.ofInt 3), .str "x"] := by
  intro wrapped raw
  have transparent : raw.Everywhere Json.Transparent := by decide +kernel
  obtain ⟨n, ok⟩ : ∃ n, normalize (some 9) raw = .ok n := ⟨_, rfl⟩
  refine ⟨n, ok, ?_⟩
  rw [leaves_normalize transparent ok]
  rfl

end TreeLens
