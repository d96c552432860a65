import TreeLens.Proofs.Tree.Sound

/-!
# Trees from their data

`Node.ofJson` reads a tree from its data form: name and span are taken from the reserved members,
and the other members are the fields. A tree is read back exactly as it was
(`Node.ofJson_toJson`) if its keys are distinct and not reserved, so that no field replaces
another member, and its numbers are finite, so that none becomes null. All this is so in normal
forms of raw data without reserved keys, and their data forms therefore tell them apart
(`eq_of_toJson_eq`).
-/

namespace TreeLens

/-! ## Reserved keys -/

/-- No member of an object has a reserved key. -/
def Json.Unreserved : Json → Prop
  | .obj members => ∀ key ∈ members.map (·.1), key ≠ Node.nameKey ∧ key ≠ Node.spanKey
  | _ => True

instance : DecidablePred Json.Unreserved
  | .obj members => inferInstanceAs
      (Decidable (∀ key ∈ members.map (·.1), key ≠ Node.nameKey ∧ key ≠ Node.spanKey))
  | .null => .isTrue trivial
  | .bool _ => .isTrue trivial
  | .num _ => .isTrue trivial
  | .str _ => .isTrue trivial
  | .arr _ => .isTrue trivial

/-- No field of an object has a reserved key. -/
def Node.Unreserved : Node → Prop
  | .object _ fields _ => ∀ key ∈ fields.map (·.1), key ≠ nameKey ∧ key ≠ spanKey
  | _ => True

theorem keeps_unreserved (limit : Option Nat) :
    Normal.Keeps limit Json.Unreserved Node.Unreserved where
  leaf _ := trivial
  array _ := trivial
  fields := by
    intro members fields unreserved keys
    rw [Node.Unreserved, keys]
    exact unreserved
  withSpan := by
    intro _ _ _ span n _ unreserved
    cases n <;> exact unreserved
  named? := by
    intro name n m named unreserved
    unfold Node.named? at named
    split at named
    · cases named
      exact unreserved
    · cases named
      exact List.forall_mem_nil _
    · cases named

/-! ## Reading trees -/

/-- The span that a reserved member stands for. -/
def Span.ofJson? : Json → Option Span
  | .arr [start, stop] => start.toNat?.bind fun first => stop.toNat?.map (Span.mk first)
  | _ => none

namespace Node

mutual

/-- The tree of a data form. -/
def ofJson : Json → Node
  | .null => .null
  | .bool b => .leaf (.bool b)
  | .num n => .leaf (.num n.toDouble)
  | .str s => .leaf (.str s)
  | .arr items => .array (ofItems items)
  | .obj members =>
    .object ((members.lookup nameKey).bind Json.toStr?) (ofMembers members)
      ((members.lookup spanKey).bind Span.ofJson?)

def ofItems : List Json → List Node
  | [] => []
  | item :: rest => ofJson item :: ofItems rest

/-- The fields of an object: its members but for the reserved ones. -/
def ofMembers : List (String × Json) → List (String × Node)
  | [] => []
  | (key, value) :: rest =>
    if key = nameKey ∨ key = spanKey then ofMembers rest
    else (key, ofJson value) :: ofMembers rest

end

/-! ## The members of a data form -/

/-- Fields with new keys go after the members that are there. -/
theorem putFields_eq_append {fields : List (String × Node)} {members : List (String × Json)}
    (distinct : (members.map (·.1) ++ fields.map (·.1)).Nodup) :
    putFields fields members = members ++ fields.map fun field => (field.1, field.2.toJson) := by
  induction fields generalizing members with
  | nil => exact (List.append_nil _).symm
  | cons field rest ih =>
      obtain ⟨key, value⟩ := field
      have fresh : key ∉ members.map (·.1) := by
        intro there
        exact (List.nodup_append.1 distinct).2.2 key there key List.mem_cons_self rfl
      rw [putFields, Json.put_of_not_mem _ fresh, ih (by simpa using distinct)]
      simp

theorem lookup_nameKey_headMembers (name : Option String) (span : Option Span) :
    (headMembers name span).lookup nameKey = name.map .str := by
  cases name <;> cases span <;> rfl

theorem lookup_spanKey_headMembers (name : Option String) (span : Option Span) :
    (headMembers name span).lookup spanKey =
      span.map fun s => .arr [.ofNat s.start, .ofNat s.stop] := by
  cases name <;> cases span <;> rfl

/-- All members before the fields have reserved keys. -/
theorem keys_headMembers_sublist (name : Option String) (span : Option Span) :
    ((headMembers name span).map (·.1)).Sublist [nameKey, spanKey] := by
  cases name <;> cases span <;> simp [headMembers]

theorem ofMembers_headMembers (name : Option String) (span : Option Span)
    (rest : List (String × Json)) :
    ofMembers (headMembers name span ++ rest) = ofMembers rest := by
  cases name <;> cases span <;> simp [headMembers, ofMembers]

/-! ## Trees that are read back -/

/-- The data form of a node keeps all there is to it, but for what is below it. -/
structure Restorable (n : Node) : Prop where
  distinctKeys : n.DistinctKeys
  unreserved : n.Unreserved
  settled : n.Settled

theorem Restorable.not_mem_keys {name : Option String} {fields : List (String × Node)}
    {span : Option Span} (own : (Node.object name fields span).Restorable) :
    nameKey ∉ fields.map (·.1) ∧ spanKey ∉ fields.map (·.1) :=
  ⟨fun member => (own.unreserved _ member).1 rfl, fun member => (own.unreserved _ member).2 rfl⟩

/-- No field of such a node replaces another member. -/
theorem Restorable.putFields_eq {name : Option String} {fields : List (String × Node)}
    {span : Option Span} (own : (Node.object name fields span).Restorable) :
    putFields fields (headMembers name span) =
      headMembers name span ++ fields.map fun field => (field.1, field.2.toJson) := by
  have reserved := keys_headMembers_sublist name span
  refine putFields_eq_append (List.nodup_append.2 ⟨?_, own.distinctKeys, ?_⟩)
  · exact reserved.nodup (by decide)
  · rintro key head _ field rfl
    obtain ⟨notName, notSpan⟩ := own.unreserved key field
    have either : key = nameKey ∨ key = spanKey := by simpa using reserved.subset head
    exact either.elim notName notSpan

theorem ofJson_toJson_leaf {value : Leaf} (settled : value.Settled) :
    ofJson value.toJson = .leaf value := by
  cases value with
  | null => rfl
  | bool b => rfl
  | str s => rfl
  | num d =>
      have finite : d.isFinite = true := settled
      rw [Leaf.toJson, if_pos finite]
      rfl

mutual

theorem ofJson_toJson : ∀ n : Node, n.Everywhere Restorable → ofJson n.toJson = n
  | .leaf value, all => ofJson_toJson_leaf (everywhere_iff.1 all).1.settled
  | .array items, all => by
      rw [toJson, ofJson, ofItems_itemsToJson items all.item]
  | .object name fields span, all => by
      have own := (everywhere_iff.1 all).1
      obtain ⟨noName, noSpan⟩ := own.not_mem_keys
      have named : ((putFields fields (headMembers name span)).lookup nameKey).bind Json.toStr? =
          name := by
        rw [lookup_putFields_of_not_mem noName, lookup_nameKey_headMembers]
        cases name <;> rfl
      have spanned : ((putFields fields (headMembers name span)).lookup spanKey).bind
          Span.ofJson? = span := by
        rw [lookup_putFields_of_not_mem noSpan, lookup_spanKey_headMembers]
        cases span <;> rfl
      rw [toJson, ofJson, named, spanned, own.putFields_eq, ofMembers_headMembers,
        ofMembers_toJson fields own.unreserved all.field]
termination_by structural n => n

theorem ofItems_itemsToJson :
    ∀ items : List Node, (∀ item ∈ items, item.Everywhere Restorable) →
      ofItems (itemsToJson items) = items
  | [], _ => rfl
  | item :: rest, each => by
      obtain ⟨here, later⟩ := List.forall_mem_cons.1 each
      rw [itemsToJson, ofItems, ofJson_toJson item here, ofItems_itemsToJson rest later]
termination_by structural items => items

theorem ofMembers_toJson :
    ∀ fields : List (String × Node),
      (∀ key ∈ fields.map (·.1), key ≠ nameKey ∧ key ≠ spanKey) →
      (∀ field ∈ fields, field.2.Everywhere Restorable) →
      ofMembers (fields.map fun field => (field.1, field.2.toJson)) = fields
  | [], _, _ => rfl
  | (key, value) :: rest, unreserved, each => by
      obtain ⟨here, later⟩ := List.forall_mem_cons.1 each
      obtain ⟨own, others⟩ := List.forall_mem_cons.1 unreserved
      rw [List.map_cons, ofMembers, if_neg (not_or.2 own), ofJson_toJson value here,
        ofMembers_toJson rest others later]
termination_by structural fields => fields

end

end Node

/-- Every node of a normal form is restorable if the raw data has no reserved keys. -/
theorem restorable_of_normalize {limit : Option Nat} {raw : Json} {n : Node}
    (distinct : raw.Everywhere Json.DistinctKeys) (range : raw.Everywhere Json.InRange)
    (unreserved : raw.Everywhere Json.Unreserved) (ok : normalize limit raw = .ok n) :
    n.Everywhere Node.Restorable := by
  intro path m resolved
  exact ⟨distinctKeys_of_normalize distinct ok path m resolved,
    everywhere_of_normalize (keeps_unreserved limit) unreserved ok path m resolved,
    everywhere_of_normalize (keeps_settled limit) range ok path m resolved⟩

/-- **The data form determines the tree.** If raw data is such as the data format allows and has
no reserved keys, its normal form can be read back from the data form. So two normal forms with
the same data form, members in order and numbers bit by bit, are the same tree. -/
theorem eq_of_toJson_eq {limit otherLimit : Option Nat} {raw other : Json} {n m : Node}
    (distinct : raw.Everywhere Json.DistinctKeys)
    (otherDistinct : other.Everywhere Json.DistinctKeys)
    (range : raw.Everywhere Json.InRange) (otherRange : other.Everywhere Json.InRange)
    (unreserved : raw.Everywhere Json.Unreserved)
    (otherUnreserved : other.Everywhere Json.Unreserved)
    (ok : normalize limit raw = .ok n) (otherOk : normalize otherLimit other = .ok m)
    (same : n.toJson = m.toJson) : n = m := by
  have read := Node.ofJson_toJson n (restorable_of_normalize distinct range unreserved ok)
  have otherRead := Node.ofJson_toJson m
    (restorable_of_normalize otherDistinct otherRange otherUnreserved otherOk)
  rw [← read, ← otherRead, same]

/-- A span wrapper around a name wrapper and a name wrapper around a span wrapper, with the same
leaves spelled in two ways; one of them is negative zero. -/
theorem eq_of_toJson_eq_spelled :
    let wrapped (stop : Nat) (data : Json) : Json :=
      .obj [("start", .ofNat 1), ("end", .ofNat stop), ("data", data)]
    let raw : Json := wrapped 4 (.obj [("call_site", .obj
      [("f", .str "-0.0"), ("args", .arr [.null, .bool true])])])
    let other : Json := .obj [("callSite", wrapped 4 (.obj
      [("f", .num (.float (.zero true))), ("args", .arr [wrapped 0 .null, .str "true"])]))]
    let form : Json := .obj [("$name", .str "CallSite"), ("$span", .arr [.ofNat 1, .ofNat 4]),
      ("f", .num (.float (.zero true))), ("args", .arr [.null, .bool true])]
    ∃ n m, normalize (some 4) raw = .ok n ∧ n.toJson = form ∧ normalize none other = .ok m ∧
      m.toJson = form ∧ n = m := by
  intro wrapped raw other form
  obtain ⟨n, ok, told⟩ : ∃ n, normalize (some 4) raw = .ok n ∧ n.toJson = form :=
    ⟨_, rfl, rfl⟩
  obtain ⟨m, otherOk, otherTold⟩ : ∃ m, normalize none other = .ok m ∧ m.toJson = form :=
    ⟨_, rfl, rfl⟩
  exact ⟨n, m, ok, told, otherOk, otherTold, eq_of_toJson_eq (by decide +kernel)
    (by decide +kernel) (by decide +kernel) (by decide +kernel) (by decide +kernel)
    (by decide +kernel) ok otherOk (told.trans otherTold.symm)⟩

end TreeLens
