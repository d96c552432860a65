import TreeLens.Proofs.Session.Coherence
import TreeLens.Proofs.Source.Offsets
import TreeLens.Proofs.View.Regions

/-!
# What hovering highlights

From a pointer move to the highlighted text. Of the effects of a move only the last one
counts (`MemoryEditor.highlights_foldl_applyHover`); entering comes after leaving and goes
inwards, so the last one belongs to the innermost entered region with a span, and if there
is none, the move clears the highlight as soon as it leaves a region
(`getLast?_effects_pointerMoved`). The range of a span between characters marks exactly the
text of the span (`MemoryEditor.slice_rangeOf`).
-/

namespace TreeLens

/-! ## The last effect counts -/

/-- The highlights that an effect leaves. -/
def EditorEffect.marks : EditorEffect → List (CharRange × HighlightStyle)
  | .highlight range style => [(range, style)]
  | .clear => []

section

variable (convention : SpanConvention) (offsets : OffsetTable) (style : HighlightStyle)

/-- The effects of hover events. -/
def hoverEffects (events : List (HoverEvent × Node)) : List EditorEffect :=
  events.filterMap fun hovered => hoverEffect? convention offsets style hovered.1 hovered.2

namespace MemoryEditor

theorem text_foldl_applyHover (events : List (HoverEvent × Node)) (e : MemoryEditor) :
    (events.foldl (applyHover convention offsets style) e).text = e.text := by
  induction events generalizing e with
  | nil => rfl
  | cons hovered rest ih =>
      rw [List.foldl_cons, ih, applyHover]
      split <;> rfl

theorem highlights_applyHover (e : MemoryEditor) (hovered : HoverEvent × Node) :
    (applyHover convention offsets style e hovered).highlights =
      ((hoverEffect? convention offsets style hovered.1 hovered.2).map EditorEffect.marks).getD
        e.highlights := by
  rw [applyHover]
  split
  · next effect found =>
      rw [found]
      cases effect <;> rfl
  · next found =>
      rw [found]
      rfl

/-- An editor has the highlights of the last effect; without an effect it keeps its own. -/
theorem highlights_foldl_applyHover (events : List (HoverEvent × Node)) (e : MemoryEditor) :
    (events.foldl (applyHover convention offsets style) e).highlights =
      ((hoverEffects convention offsets style events).getLast?.map EditorEffect.marks).getD
        e.highlights := by
  induction events generalizing e with
  | nil => rfl
  | cons hovered rest ih =>
      rw [List.foldl_cons, ih, highlights_applyHover]
      simp only [hoverEffects, List.filterMap_cons]
      cases hoverEffect? convention offsets style hovered.1 hovered.2 with
      | none => rfl
      | some effect =>
          simp only [List.getLast?_cons, Option.map_some, Option.getD_some]
          cases (rest.filterMap fun hovered =>
            hoverEffect? convention offsets style hovered.1 hovered.2).getLast? <;> rfl

end MemoryEditor

/-- The last effect of a pointer move is that of the innermost entered region with a span;
without one, it comes from a region that was left. -/
theorem getLast?_hoverEffects_pointerMoved (t : TreeView) (left entered : Option Nat) :
    (hoverEffects convention offsets style (t.pointerMoved left entered)).getLast? =
      ((t.enteredSpan? left entered).map fun span =>
        EditorEffect.highlight (offsets.rangeOf convention span) style).or
      ((t.leftViews left entered).reverse.findSome? fun v =>
        (t.node? v).map fun _ => EditorEffect.clear) := by
  rw [hoverEffects, TreeView.pointerMoved, List.filterMap_filterMap, List.getLast?_filterMap,
    TreeView.hoverViews_eq, List.reverse_append, List.findSome?_append, ← List.map_reverse,
    ← List.map_reverse, List.reverse_reverse, List.findSome?_map, List.findSome?_map,
    TreeView.enteredSpan?, List.map_findSome?]
  have enters : ∀ v, ((t.node? v).map fun node => (HoverEvent.enter, node)).bind
      (fun hovered => hoverEffect? convention offsets style hovered.1 hovered.2) =
        ((t.node? v).bind Node.span?).map fun span =>
          EditorEffect.highlight (offsets.rangeOf convention span) style := by
    intro v
    cases t.node? v <;> rfl
  have exits : ∀ v, ((t.node? v).map fun node => (HoverEvent.exit, node)).bind
      (fun hovered => hoverEffect? convention offsets style hovered.1 hovered.2) =
        (t.node? v).map fun _ => EditorEffect.clear := by
    intro v
    cases t.node? v <;> rfl
  simp only [Function.comp_def, enters, exits]

end

/-- The highlights after a pointer move, if every region that is left has a node. -/
theorem MemoryEditor.highlights_pointerMoved (convention : SpanConvention)
    (offsets : OffsetTable) (style : HighlightStyle) (e : MemoryEditor) {t : TreeView}
    {left entered : Option Nat}
    (nodes : ∀ view ∈ t.leftViews left entered, ∃ node, t.node? view = some node) :
    ((t.pointerMoved left entered).foldl (applyHover convention offsets style) e).highlights =
      match t.enteredSpan? left entered with
      | some span => [(offsets.rangeOf convention span, style)]
      | none => if t.leftViews left entered = [] then e.highlights else [] := by
  rw [highlights_foldl_applyHover, getLast?_hoverEffects_pointerMoved]
  cases t.enteredSpan? left entered with
  | some span => rfl
  | none =>
      simp only [Option.map_none, Option.none_or]
      cases outermost : (t.leftViews left entered).reverse with
      | nil =>
          rw [if_pos (List.reverse_eq_nil_iff.1 outermost)]
          rfl
      | cons view rest =>
          -- The outermost region is left last, and leaving it clears.
          have member : view ∈ t.leftViews left entered := by
            rw [← List.mem_reverse, outermost]
            exact List.mem_cons_self
          obtain ⟨node, found⟩ := nodes view member
          rw [if_neg (List.ne_nil_of_mem member), List.findSome?_cons, found]
          rfl

/-! ## The highlighted text -/

/-- In an editor that counts characters, the range of a span between characters holds the
text of the span. -/
theorem MemoryEditor.slice_rangeOf {source : String} {span : Span}
    (between : span.OnBoundaries source) (ordered : span.start ≤ span.stop) :
    span.text? source =
      some (slice source ((OffsetTable.build .scalar source).rangeOf .halfOpen span)) := by
  obtain ⟨front, inner, back, rfl, rfl⟩ :=
    Span.exists_append_eq between.start_valid between.stop_valid ordered
  have nonempty : inner ++ back ≠ "" := by
    intro empty
    obtain ⟨rfl, rfl⟩ := String.append_eq_empty_iff.1 empty
    exact between.not_empty_at_end (by simp) (by simp)
  rw [Span.text?_append, OffsetTable.rangeOf_append .scalar front inner back nonempty]
  simp [slice, TextUnit.units_scalar]

namespace Controller

/-- A pointer move changes the editor and nothing else. -/
theorem state_hover {π ε η : Type} [EditorSurface ε] (c : Controller π ε η)
    (left entered : Option Nat) : (c.hover left entered).state = c.state := by
  unfold hover
  split <;> rfl

theorem editor_hover {π ε η : Type} [EditorSurface ε] {c : Controller π ε η}
    {snapshot : Snapshot} {view : TreeView} (source : c.state.snapshot = some snapshot)
    (shown : c.state.view = some view) (left entered : Option Nat) :
    (c.hover left entered).editor = (view.pointerMoved left entered).foldl
      (applyHover c.config.spanConvention snapshot.offsets c.state.highlight) c.editor := by
  rw [hover, source, shown]

/-- A pointer move over a committed tree, as long as the editor still has its source. The
editor counts characters and spans are half open; every span of the tree lies between
characters and is not empty at the end of the source. If the move enters a region with a
span, the text of the innermost such span is highlighted and nothing else; otherwise
leaving a region clears the highlights, and a move that leaves none keeps them. -/
theorem highlights_hover_run_new {π η : Type} [SourceParser π] [RenderHost η] {config : Config}
    {parser : π} {editor : MemoryEditor} {start : Controller π MemoryEditor η}
    (started : new config parser editor = .ok start)
    (unit : config.textUnit = .scalar) (convention : config.spanConvention = .halfOpen)
    (commands : List (Command MemoryEditor η)) {snapshot : Snapshot} {view : TreeView}
    (source : (start.run commands).state.snapshot = some snapshot)
    (shown : (start.run commands).state.view = some view)
    (unedited : (start.run commands).editor.text = snapshot.source)
    (between : view.tree.AllSpans (Span.OnBoundaries snapshot.source))
    (left entered : Option Nat) :
    let before := start.run commands
    let after := before.hover left entered
    (match view.enteredSpan? left entered with
      | some span => ∃ text, span.text? snapshot.source = some text ∧
          after.editor.highlightedText = [text]
      | none => after.editor.highlights =
          if view.leftViews left entered = [] then before.editor.highlights else []) ∧
      after.editor.text = before.editor.text ∧ after.state = before.state := by
  intro before after
  have coherent := coherent_run_of_new started commands
  have nodes : ∀ v ∈ view.leftViews left entered, ∃ node, view.node? v = some node := by
    intro v member
    obtain ⟨isOpen, drawn⟩ := coherent.drawn view shown
    rw [drawn] at member ⊢
    exact TreeView.exists_node?_of_mem_hoverChain (List.mem_filter.1 member).1
  have moved : after.editor = _ := editor_hover source shown left entered
  have text : after.editor.text = before.editor.text := by
    rw [moved]
    exact MemoryEditor.text_foldl_applyHover _ _ _ _ _
  have highlights := MemoryEditor.highlights_pointerMoved before.config.spanConvention
    snapshot.offsets before.state.highlight before.editor nodes
  rw [← moved] at highlights
  refine ⟨?_, text, state_hover before left entered⟩
  cases entering : view.enteredSpan? left entered with
  | none =>
      rw [entering] at highlights
      exact highlights
  | some span =>
      rw [entering] at highlights
      have halfOpen : before.config.spanConvention = .halfOpen := by
        rw [(setup_run start commands).1, (setup_new started).1, convention]
      have offsets : snapshot.offsets = .build .scalar snapshot.source := by
        rw [← unit]
        exact coherent.offsets_eq snapshot source
      obtain ⟨raw, -, normal⟩ := coherent.parsed snapshot source view shown
      obtain ⟨ordered, -⟩ := TreeView.of_enteredSpan?_eq_some (within_of_normalize normal) entering
      refine ⟨_, MemoryEditor.slice_rangeOf
        (TreeView.of_enteredSpan?_eq_some between entering) ordered, ?_⟩
      rw [MemoryEditor.highlightedText, highlights, text, unedited, offsets, halfOpen]
      rfl

/-- The pointer comes from outside into a field of the inner of two regions, both entered;
the inner one covers one character of two bytes. -/
theorem highlights_hover_run_new_inner :
    let raw : Json := .obj
      [("start", .ofNat 0), ("end", .ofNat 5), ("data", .obj
        [("x", .obj [("start", .ofNat 1), ("end", .ofNat 3), ("data", .obj [("k", .null)])]),
        ("y", .null)])]
    let commands : List (Command MemoryEditor PrintingHost) := [.attachHost ⟨""⟩, .cycle]
    ∃ start : Controller ReplayParser MemoryEditor PrintingHost,
      new {} ⟨raw⟩ (.ofText "aé+b") = .ok start ∧
        ∃ snapshot view, (start.run commands).state.snapshot = some snapshot ∧
          (start.run commands).state.view = some view ∧
          (start.run commands).editor.text = snapshot.source ∧
          view.tree.AllSpans (Span.OnBoundaries snapshot.source) ∧
          view.enteredViews none (some 12) = [1, 0] ∧
          ((start.run commands).hover none (some 12)).editor.highlightedText = ["é"] := by
  intro raw commands
  obtain ⟨start, started, source, tree, views, entering, unedited⟩ :
      ∃ start : Controller ReplayParser MemoryEditor PrintingHost,
        new {} ⟨raw⟩ (.ofText "aé+b") = .ok start ∧
          (start.run commands).state.source? = some "aé+b" ∧
          (start.run commands).state.tree? = some (.object none
            [("x", .object none [("k", .null)] (some ⟨1, 3⟩)), ("y", .null)] (some ⟨0, 5⟩)) ∧
          (start.run commands).state.view.map (·.enteredViews none (some 12)) = some [1, 0] ∧
          (start.run commands).state.view.bind (·.enteredSpan? none (some 12)) = some ⟨1, 3⟩ ∧
          (start.run commands).editor.text = "aé+b" :=
    ⟨_, rfl, by decide +kernel, rfl, by decide +kernel, by decide +kernel, rfl⟩
  obtain ⟨snapshot, found, same⟩ := Option.map_eq_some_iff.1 source
  obtain ⟨view, shown, whole⟩ := Option.map_eq_some_iff.1 tree
  rw [shown] at views entering
  have between : view.tree.AllSpans (Span.OnBoundaries snapshot.source) := by
    have outer : Span.OnBoundaries "aé+b" ⟨0, 5⟩ := ⟨by decide, by decide, by decide⟩
    have inner : Span.OnBoundaries "aé+b" ⟨1, 3⟩ := ⟨by decide, by decide, by decide⟩
    rw [whole, same]
    refine Node.allSpans_object (by simpa using outer) ?_
    simp only [List.mem_cons, List.not_mem_nil, or_false, forall_eq_or_imp, forall_eq]
    refine ⟨Node.allSpans_object (by simpa using inner) ?_, Node.allSpans_leaf _⟩
    intro field member
    obtain rfl := List.mem_singleton.1 member
    exact Node.allSpans_leaf _
  have moved := (highlights_hover_run_new started rfl rfl commands found shown
    (unedited.trans same.symm) between none (some 12)).1
  rw [show view.enteredSpan? none (some 12) = some ⟨1, 3⟩ from entering] at moved
  obtain ⟨text, covered, highlighted⟩ := moved
  have inner : Span.text? ⟨1, 3⟩ "aé+b" = some "é" := by decide +kernel
  rw [same, inner] at covered
  obtain rfl := Option.some.inj covered
  exact ⟨start, started, snapshot, view, found, shown, unedited.trans same.symm, between,
    Option.some.inj views, highlighted⟩

end Controller

end TreeLens
