import TreeLens.Proofs.Tree.Everywhere

/-!
# Spans of normal forms

Every span in the normal form of raw data is in order and, where the size of the source
is known, inside it (`within_of_normalize`). Only `checkSpan` makes spans, and names and
fields do not touch them.
-/

namespace TreeLens

/-- A span is in order and ends within a source of the given size, if that is known. -/
def Span.Within (limit : Option Nat) (span : Span) : Prop :=
  span.start ≤ span.stop ∧ ∀ size ∈ limit, span.stop ≤ size

/-- Every span of a tree, at whatever depth, has a property. -/
def Node.AllSpans (P : Span → Prop) (n : Node) : Prop :=
  ∀ path m span, n.resolve? path = some m → m.span? = some span → P span

namespace Node

variable {P : Span → Prop}

theorem allSpans_iff {n : Node} :
    n.AllSpans P ↔ n.Everywhere fun m => ∀ span ∈ m.span?, P span :=
  ⟨fun all path m resolved span has => all path m span resolved has,
    fun all path m span resolved has => all path m resolved span has⟩

theorem allSpans_leaf (value : Leaf) : (Node.leaf value).AllSpans P :=
  allSpans_iff.2 (everywhere_leaf (by simp [span?]))

theorem allSpans_object {name : Option String} {fields : List (String × Node)}
    {own : Option Span} (self : ∀ span ∈ own, P span)
    (each : ∀ field ∈ fields, field.2.AllSpans P) : (Node.object name fields own).AllSpans P :=
  allSpans_iff.2 (everywhere_object self fun field member => allSpans_iff.1 (each field member))

end Node

/-! ## The normal form -/

theorem within_of_checkSpan {limit : Option Nat} {location : Location} {start stop : Nat}
    {span : Span} (ok : checkSpan limit location start stop = .ok span) : span.Within limit := by
  unfold checkSpan at ok
  split at ok
  · cases ok
  · next fits =>
      cases ok
      cases limit <;> simp_all [Span.Within]

theorem keeps_within (limit : Option Nat) :
    Normal.Keeps limit (fun _ => True) fun n => ∀ span ∈ n.span?, span.Within limit where
  leaf := by simp [Node.span?]
  array := by simp [Node.span?]
  fields := by simp [Node.span?]
  withSpan := by
    intro location start stop span n checked within other has
    cases n with
    | leaf value => cases has
    | array items => cases has
    | object name fields own =>
        obtain rfl := Option.some.inj has
        exact within_of_checkSpan checked
  named? := by
    intro name n m named within
    unfold Node.named? at named
    split at named
    · cases named
      exact within
    · cases named
      simp [Node.span?]
    · cases named

/-- The spans of a normal form are in order and inside the source. -/
theorem within_of_normalize {limit : Option Nat} {raw : Json} {n : Node}
    (ok : normalize limit raw = .ok n) : n.AllSpans (Span.Within limit) :=
  Node.allSpans_iff.2 (everywhere_of_normalize (keeps_within limit) (fun _ _ => trivial) ok)

end TreeLens
