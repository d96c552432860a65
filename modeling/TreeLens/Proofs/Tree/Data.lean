import TreeLens.Proofs.Json.Places
import TreeLens.Proofs.Tree.Everywhere
import TreeLens.Proofs.Tree.Texts

/-!
# The data form along paths

Fields of a normal form have distinct keys if the members of the raw data have
(`distinctKeys_of_normalize`). So in the data form no field replaces another one, though a
field with a reserved key replaces the reserved member, and the location of a path leads to
the data of the path's node (`Node.exists_location?_of_resolve?`). Different paths have
different locations (`Node.eq_of_location?_eq`), and so different texts.
-/

namespace TreeLens

/-! ## Keys of fields -/

/-- The keys of an object's fields are distinct. -/
def Node.DistinctKeys : Node → Prop
  | .object _ fields _ => (fields.map (·.1)).Nodup
  | _ => True

instance : DecidablePred Node.DistinctKeys
  | .object _ fields _ => inferInstanceAs (Decidable (fields.map (·.1)).Nodup)
  | .leaf _ => .isTrue trivial
  | .array _ => .isTrue trivial

theorem keeps_distinctKeys (limit : Option Nat) :
    Normal.Keeps limit Json.DistinctKeys Node.DistinctKeys where
  leaf _ := trivial
  array _ := trivial
  fields := by
    intro members fields distinct keys
    rw [Node.DistinctKeys, keys]
    exact distinct
  withSpan := by
    intro _ _ _ span n _ distinct
    cases n <;> exact distinct
  named? := by
    intro name n m named distinct
    unfold Node.named? at named
    split at named
    · cases named
      exact distinct
    · cases named
      exact List.nodup_nil
    · cases named

/-- A normal form repeats no key if the raw data repeats none. -/
theorem distinctKeys_of_normalize {limit : Option Nat} {raw : Json} {n : Node}
    (distinct : raw.Everywhere Json.DistinctKeys) (ok : normalize limit raw = .ok n) :
    n.Everywhere Node.DistinctKeys :=
  everywhere_of_normalize (keeps_distinctKeys limit) distinct ok

/-! ## Members of the data form -/

namespace Node

theorem itemsToJson_eq (items : List Node) : itemsToJson items = items.map toJson := by
  induction items with
  | nil => rfl
  | cons item rest ih => rw [itemsToJson, ih, List.map_cons]

theorem lookup_putFields_of_not_mem {key : String} {fields : List (String × Node)}
    (missing : key ∉ fields.map (·.1)) (members : List (String × Json)) :
    (putFields fields members).lookup key = members.lookup key := by
  induction fields generalizing members with
  | nil => rfl
  | cons field rest ih =>
      obtain ⟨other, later⟩ := not_or.1 (mt List.mem_cons.2 missing)
      rw [putFields, ih later, Json.lookup_put, if_neg other]

/-- Whatever members are there before, a field is found under its key. -/
theorem lookup_putFields {key : String} {value : Node} {fields : List (String × Node)}
    (distinct : (fields.map (·.1)).Nodup) (member : (key, value) ∈ fields)
    (members : List (String × Json)) :
    (putFields fields members).lookup key = some value.toJson := by
  induction fields generalizing members with
  | nil => cases member
  | cons field rest ih =>
      obtain ⟨fresh, others⟩ := List.nodup_cons.1 distinct
      rcases List.mem_cons.1 member with rfl | later
      · rw [putFields, lookup_putFields_of_not_mem fresh, Json.lookup_put, if_pos rfl]
      · exact ih others later _

end Node

/-! ## Locations of paths -/

namespace Node

/-- The place of a step to a child leads to the child's data. -/
theorem exists_place?_of_child? {n m : Node} {step : Step} (found : n.child? step = some m) :
    ∃ place, n.place? step = some place ∧
      (n.DistinctKeys → n.toJson.child? place = some m.toJson) := by
  cases n with
  | leaf value => cases step <;> cases found
  | array items =>
      cases step with
      | field i => cases found
      | item i =>
          have here : items[i]? = some m := found
          refine ⟨.index i, by simp [place?, here], ?_⟩
          intro _
          rw [toJson, Json.child?, itemsToJson_eq, List.getElem?_map, here]
          rfl
  | object name fields span =>
      cases step with
      | item i => cases found
      | field i =>
          obtain ⟨⟨key, value⟩, here, rfl⟩ := Option.map_eq_some_iff.1 found
          refine ⟨.key key, by simp [place?, here], ?_⟩
          intro distinct
          rw [toJson, Json.child?]
          exact lookup_putFields distinct (List.mem_of_getElem? here) (headMembers name span)

/-- A path to a node has a location, and the node's data is there. -/
theorem exists_location?_of_resolve? {n m : Node} {path : Path}
    (resolved : n.resolve? path = some m) :
    ∃ location, n.location? path = some location ∧
      (n.Everywhere DistinctKeys → n.toJson.at? location = some m.toJson) := by
  induction path generalizing n with
  | nil =>
      cases resolved
      exact ⟨[], rfl, fun _ => rfl⟩
  | cons step rest ih =>
      obtain ⟨child, found, resolved⟩ := Option.bind_eq_some_iff.1 resolved
      obtain ⟨place, placed, reached⟩ := exists_place?_of_child? found
      obtain ⟨location, located, later⟩ := ih resolved
      refine ⟨place :: location, by simp [location?, placed, found, located], ?_⟩
      intro distinct
      obtain ⟨own, each⟩ := everywhere_iff.1 distinct
      rw [Json.at?, reached own]
      exact later (each step child found)

theorem exists_of_location?_cons {n : Node} {step : Step} {rest : Path} {location : Location}
    (located : n.location? (step :: rest) = some location) :
    ∃ place child later, n.place? step = some place ∧ n.child? step = some child ∧
      child.location? rest = some later ∧ place :: later = location := by
  obtain ⟨place, placed, located⟩ := Option.bind_eq_some_iff.1 located
  obtain ⟨child, found, located⟩ := Option.bind_eq_some_iff.1 located
  obtain ⟨later, below, whole⟩ := Option.map_eq_some_iff.1 located
  exact ⟨place, child, later, placed, found, below, whole⟩

/-- Only paths to nodes have locations. -/
theorem exists_resolve?_of_location? {n : Node} {path : Path} {location : Location}
    (located : n.location? path = some location) : ∃ m, n.resolve? path = some m := by
  induction path generalizing n location with
  | nil => exact ⟨n, rfl⟩
  | cons step rest ih =>
      obtain ⟨place, child, later, -, found, below, -⟩ := exists_of_location?_cons located
      rw [resolve?, found]
      exact ih below

/-! ## Paths and their texts -/

/-- If keys are distinct, different steps lead to different places. -/
theorem eq_of_place?_eq {n : Node} (distinct : n.DistinctKeys) {step other : Step} {place : Place}
    (placed : n.place? step = some place) (otherPlaced : n.place? other = some place) :
    step = other := by
  cases n with
  | leaf value => cases step <;> cases placed
  | array items =>
      cases step with
      | field i => cases placed
      | item i =>
          cases other with
          | field j => cases otherPlaced
          | item j =>
              obtain ⟨-, -, rfl⟩ := Option.map_eq_some_iff.1 placed
              obtain ⟨-, -, same⟩ := Option.map_eq_some_iff.1 otherPlaced
              rw [Place.index.inj same]
  | object name fields span =>
      cases step with
      | item i => cases placed
      | field i =>
          cases other with
          | item j => cases otherPlaced
          | field j =>
              obtain ⟨field, here, rfl⟩ := Option.map_eq_some_iff.1 placed
              obtain ⟨otherField, there, same⟩ := Option.map_eq_some_iff.1 otherPlaced
              have keys : (fields.map (·.1))[i]? = (fields.map (·.1))[j]? := by
                rw [List.getElem?_map, List.getElem?_map, here, there, Option.map_some,
                  Option.map_some, Place.key.inj same]
              have inside : i < (fields.map (·.1)).length := by
                rw [List.length_map]
                exact (List.getElem?_eq_some_iff.1 here).1
              rw [(List.getElem?_inj inside distinct).1 keys]

theorem eq_of_location?_eq {n : Node} (distinct : n.Everywhere DistinctKeys) {path other : Path}
    {location : Location} (located : n.location? path = some location)
    (otherLocated : n.location? other = some location) : path = other := by
  induction path generalizing n other location with
  | nil =>
      cases located
      cases other with
      | nil => rfl
      | cons step rest =>
          obtain ⟨_, _, _, -, -, -, longer⟩ := exists_of_location?_cons otherLocated
          cases longer
  | cons step rest ih =>
      obtain ⟨place, child, later, placed, found, below, rfl⟩ := exists_of_location?_cons located
      cases other with
      | nil => cases otherLocated
      | cons otherStep otherRest =>
          obtain ⟨otherPlace, otherChild, otherLater, otherPlaced, otherFound, otherBelow, same⟩ :=
            exists_of_location?_cons otherLocated
          cases same
          obtain ⟨own, each⟩ := everywhere_iff.1 distinct
          obtain rfl := eq_of_place?_eq own placed otherPlaced
          obtain rfl := Option.some.inj (found.symm.trans otherFound)
          rw [ih (each step child found) below otherBelow]

theorem isSome_jsonPath?_iff {n : Node} {path : Path} :
    (n.jsonPath? path).isSome ↔ (n.resolve? path).isSome := by
  rw [jsonPath?, Option.isSome_map, Option.isSome_iff_exists, Option.isSome_iff_exists]
  constructor
  · rintro ⟨location, located⟩
    exact exists_resolve?_of_location? located
  · rintro ⟨m, resolved⟩
    obtain ⟨location, located, -⟩ := exists_location?_of_resolve? resolved
    exact ⟨location, located⟩

/-- **The text of a path can be read back.** Exactly the paths to nodes have texts. If keys are
distinct, the text of a path spells one location, and there the data form has the data of the
path's node, also where a key is a reserved one; no other path has the same text. -/
theorem spelledBy_jsonPath? {n : Node} (distinct : n.Everywhere DistinctKeys) :
    (∀ path, (n.jsonPath? path).isSome ↔ (n.resolve? path).isSome) ∧
    (∀ {path text m}, n.jsonPath? path = some text → n.resolve? path = some m →
      ∃ location, (∀ other : Location, other.SpelledBy text ↔ other = location) ∧
        n.toJson.at? location = some m.toJson) ∧
    ∀ {path other text}, n.jsonPath? path = some text → n.jsonPath? other = some text →
      path = other := by
  refine ⟨fun path => isSome_jsonPath?_iff, ?_, ?_⟩
  · intro path text m written resolved
    obtain ⟨location, located, reached⟩ := exists_location?_of_resolve? resolved
    rw [jsonPath?, located, Option.map_some] at written
    obtain rfl := Option.some.inj written
    exact ⟨location, fun other => Location.spelledBy_text_iff, reached distinct⟩
  · intro path other text written otherWritten
    obtain ⟨location, located, rfl⟩ := Option.map_eq_some_iff.1 written
    obtain ⟨otherLocation, otherLocated, same⟩ := Option.map_eq_some_iff.1 otherWritten
    have spelled : otherLocation.SpelledBy (location.text Place.escapeBoth) := by
      rw [← same]
      exact Location.spelledBy_text_iff.2 rfl
    rw [Location.spelledBy_text_iff.1 spelled] at otherLocated
    exact eq_of_location?_eq distinct located otherLocated

/-- Fields with the reserved keys in an object with a name and a span, below a key that ends in
a backslash and looks like the end of a place. -/
theorem spelledBy_jsonPath?_reserved :
    let inner : Node := .object (some "Call")
      [("$name", .array [.leaf (.bool true), .leaf (.str "f")]), ("$span", .null)] (some ⟨2, 5⟩)
    let n : Node := .object none [("it's", .null), ("a']\\", inner)] none
    let path : Path := [.field 1, .field 0, .item 1]
    let text := "$['a\\']\\\\']['$name'][1]"
    n.Everywhere Node.DistinctKeys ∧ n.jsonPath? path = some text ∧
      (∀ other : Location, other.SpelledBy text ↔
        other = [.key "a']\\", .key "$name", .index 1]) ∧
      n.toJson.at? [.key "a']\\", .key "$name", .index 1] = some (.str "f") := by
  intro inner n path text
  have leaf (value : Leaf) : (Node.leaf value).Everywhere Node.DistinctKeys :=
    everywhere_leaf trivial
  have distinct : n.Everywhere Node.DistinctKeys := by
    refine everywhere_object (by decide) (List.forall_mem_cons.2 ⟨leaf _, ?_⟩)
    refine List.forall_mem_singleton.2 (everywhere_object (by decide) ?_)
    refine List.forall_mem_cons.2 ⟨everywhere_array trivial ?_, ?_⟩
    · simp [leaf]
    · exact List.forall_mem_singleton.2 (leaf .null)
  have written : n.jsonPath? path = some text := by decide +kernel
  obtain ⟨location, only, reached⟩ := (spelledBy_jsonPath? distinct).2.1 written rfl
  have here : [.key "a']\\", .key "$name", .index 1] = location := by
    refine (only _).1 ⟨[.quoted ['a', '\\', '\'', ']', '\\', '\\'],
      .quoted ['$', 'n', 'a', 'm', 'e'], .number ['1']], ?_, ?_⟩
    · decide +kernel
    · decide +kernel
  rw [here]
  exact ⟨distinct, written, only, reached⟩

end Node

end TreeLens
