import TreeLens.Proofs.Tree.Agreement
import TreeLens.Proofs.Tree.Spans

/-!
# Layers of wrappers

Raw data may stand in any number of span wrappers and name wrappers, in any order
(`Json.Layered`). The normal form takes all of them off at once: an object keeps its fields, and
its name and its span are those that the outermost layers give (`Normal.visit_of_layered`). Every
layer is visited at a longer location than the one around it, which does not matter, since
`Normal.agree_visit` lets the object in the middle stand anywhere.
-/

namespace TreeLens

/-- What a wrapper says about the data in it. -/
inductive Layer where
  | span (span : Span)
  | name (key : String)
deriving DecidableEq, Repr

namespace Layer

/-- The name that a layer gives. -/
def name? : Layer → Option String
  | .name key => some (pascalCase key)
  | .span _ => none

/-- The span that a layer gives. -/
def span? : Layer → Option Span
  | .name _ => none
  | .span own => some own

end Layer

/-- Raw data with layers around it, the outermost first. The spans of span wrappers are valid,
and no span wrapper is around data that stands for nothing. -/
inductive Json.Layered (limit : Option Nat) (core : Json) : List Layer → Json → Prop
  | core : Layered limit core [] core
  | span {layers : List Layer} {inner : Json} {members : List (String × Json)} {span : Span}
      (wrapper : SpanWrapper.ofMembers? members = some ⟨span.start, span.stop, inner⟩)
      (valid : span.Within limit) (present : inner.isAbsent = false)
      (layered : Layered limit core layers inner) :
      Layered limit core (.span span :: layers) (.obj members)
  | name {layers : List Layer} {inner : Json} (key : String)
      (layered : Layered limit core layers inner) :
      Layered limit core (.name key :: layers) (.obj [(key, inner)])

theorem checkSpan_of_within {limit : Option Nat} {span : Span} (valid : span.Within limit)
    (location : Location) : checkSpan limit location span.start span.stop = .ok span := by
  obtain ⟨ordered, inside⟩ := valid
  have fits : (span.stop < span.start || limit.any (· < span.stop)) = false := by
    cases limit <;> simp_all
  rw [checkSpan, fits]
  rfl

namespace Normal

variable {limit : Option Nat} {name : Option String} {fields : List (String × Node)}
  {span : Option Span}

/-- Only objects become objects. -/
theorem isObject_of_visit {location : Location} {raw : Json}
    (ok : visit limit location raw = .ok (.object name fields span)) : raw.isObject = true := by
  cases raw with
  | obj members => rfl
  | null => cases ok
  | bool b => cases ok
  | num n => cases ok
  | str s => cases ok
  | arr items =>
      obtain ⟨nodes, -, array⟩ := Except.map_eq_ok.1 ok
      cases array

/-- Layers around data that becomes an object, wherever it stands, replace its name and span. -/
theorem visit_of_layered {core outer : Json} {layers : List Layer}
    (ok : ∀ location, visit limit location core = .ok (.object name fields span))
    (layered : core.Layered limit layers outer) :
    ∀ location, visit limit location outer =
      .ok (.object ((layers.findSome? Layer.name?).or name) fields
        ((layers.findSome? Layer.span?).or span)) := by
  induction layered with
  | core => exact ok
  | @span layers inner members own wrapper valid present _ ih =>
      intro location
      rw [visit_wrapper wrapper present, checkSpan_of_within valid]
      show (visit limit _ inner).map _ = _
      rw [ih]
      rfl
  | @name layers inner key _ ih =>
      intro location
      rw [visit_name (isObject_of_visit (ih location)), ih]
      rfl

end Normal

/-- **Wrappers collapse to one node.** If raw data becomes an object, it does so in any number of
valid layers around it: the object has the same fields, the name that the outermost name wrapper
gives and the span of the outermost span wrapper; where there is none, its own. -/
theorem normalize_of_layered {limit : Option Nat} {core outer : Json} {layers : List Layer}
    {name : Option String} {fields : List (String × Node)} {span : Option Span}
    (ok : normalize limit core = .ok (.object name fields span))
    (layered : core.Layered limit layers outer) :
    normalize limit outer =
      .ok (.object ((layers.findSome? Layer.name?).or name) fields
        ((layers.findSome? Layer.span?).or span)) := by
  refine Normal.visit_of_layered ?_ layered []
  intro location
  obtain ⟨node, visited, rfl⟩ := (Normal.agree_visit limit core [] location).exists_of_eq_ok ok
  exact visited

/-- A name in a span in a name in a span around an object with a span of its own. The inner span
wrapper has its members in another order and one more of them. -/
theorem normalize_of_layered_alternating :
    let core : Json := .obj [("start", .ofNat 4), ("end", .ofNat 5),
      ("data", .obj [("id", .str "x"), ("init", .null)])]
    let declarator : Json := .obj [("variable_declarator", core)]
    let wrapped : Json := .obj [("kind", .null), ("data", declarator), ("end", .ofNat 7),
      ("start", .ofNat 2)]
    let outer : Json := .obj [("start", .ofNat 0), ("end", .ofNat 9),
      ("data", .obj [("for_head", wrapped)])]
    let layers : List Layer := [.span ⟨0, 9⟩, .name "for_head", .span ⟨2, 7⟩,
      .name "variable_declarator"]
    let fields : List (String × Node) := [("id", .leaf (.str "x")), ("init", .null)]
    normalize (some 9) core = .ok (.object none fields (some ⟨4, 5⟩)) ∧
      core.Layered (some 9) layers outer ∧
      normalize (some 9) outer = .ok (.object (some "ForHead") fields (some ⟨0, 9⟩)) := by
  intro core declarator wrapped outer layers fields
  have ok : normalize (some 9) core = .ok (.object none fields (some ⟨4, 5⟩)) := rfl
  have inOrder : ∀ {start stop : Nat}, start ≤ stop → stop ≤ 9 →
      Span.Within (some 9) ⟨start, stop⟩ := by
    intro start stop ordered inside
    exact ⟨ordered, by simpa using inside⟩
  have layered : core.Layered (some 9) layers outer :=
    .span rfl (inOrder (by decide) (by decide)) rfl (.name _
      (.span rfl (inOrder (by decide) (by decide)) rfl (.name _ .core)))
  exact ⟨ok, layered, normalize_of_layered ok layered⟩

end TreeLens
