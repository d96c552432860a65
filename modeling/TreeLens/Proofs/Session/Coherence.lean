import TreeLens.Proofs.Session.Runs

/-!
# Coherence of a session

Whatever happens to a controller that renders all nodes open, what it shows belongs
together: a source is shown exactly when a view is, the offsets are those of the source,
the tree of the view is the normal form of something the parser answered for this very
source, and the highlight is the one of the theme.

`SessionState.Coherent.change` is the step, `Controller.coherent_run` the induction over
runs and `Controller.coherent_run_of_new` the statement for runs from the beginning.
-/

namespace TreeLens

/-- What is shown belongs together, for an editor that counts in `unit` and a parser that
gave the answers of `log`. -/
structure SessionState.Coherent (unit : TextUnit) (log : List Answer) (s : SessionState) :
    Prop where
  highlight_eq : s.highlight = s.theme.highlight
  isSome_eq : s.snapshot.isSome = s.view.isSome
  offsets_eq : ∀ snapshot ∈ s.snapshot, snapshot.offsets = .build unit snapshot.source
  parsed : ∀ snapshot ∈ s.snapshot, ∀ view ∈ s.view, ∃ raw,
    (snapshot.source, .ok raw) ∈ log ∧
      normalize (some snapshot.source.utf8ByteSize) raw = .ok view.tree
  /-- The view is the tree with some of its views closed. -/
  drawn : ∀ view ∈ s.view, ∃ isOpen, view = TreeView.shown view.tree isOpen

namespace SessionState.Coherent

variable {unit : TextUnit} {log : List Answer}

theorem ofTheme (theme : Theme) : (SessionState.ofTheme theme).Coherent unit [] where
  highlight_eq := rfl
  isSome_eq := rfl
  offsets_eq := by simp [SessionState.ofTheme]
  parsed := by simp [SessionState.ofTheme]
  drawn := by simp [SessionState.ofTheme]

/-- Coherence says nothing about failure and status. -/
theorem with_status {s : SessionState} (coherent : s.Coherent unit log)
    (lastFailure : Option String) (status : String) :
    SessionState.Coherent unit log { s with lastFailure, status } :=
  ⟨coherent.highlight_eq, coherent.isSome_eq, coherent.offsets_eq, coherent.parsed,
    coherent.drawn⟩

/-- A view that has the tree of the one shown can take its place. -/
theorem with_view {s : SessionState} {view : TreeView} (coherent : s.Coherent unit log)
    (isOpen : Nat → Bool) (shown : s.view = some view) :
    SessionState.Coherent unit log { s with view := some (TreeView.shown view.tree isOpen) } where
  highlight_eq := coherent.highlight_eq
  isSome_eq := by
    rw [coherent.isSome_eq, shown]
    rfl
  offsets_eq := coherent.offsets_eq
  parsed := by
    intro snapshot source other same
    obtain rfl := Option.some.inj same
    exact coherent.parsed snapshot source view shown
  drawn := by
    intro other same
    obtain rfl := Option.some.inj same
    exact ⟨isOpen, rfl⟩

theorem append {s : SessionState} (coherent : s.Coherent unit log) (more : List Answer) :
    s.Coherent unit (log ++ more) where
  highlight_eq := coherent.highlight_eq
  isSome_eq := coherent.isSome_eq
  offsets_eq := coherent.offsets_eq
  parsed := by
    intro snapshot source view shown
    obtain ⟨raw, answered, normal⟩ := coherent.parsed snapshot source view shown
    exact ⟨raw, List.mem_append_left _ answered, normal⟩
  drawn := coherent.drawn

/-- A step of a session keeps together what is shown. -/
theorem change {s t : SessionState} {more : List Answer} (coherent : s.Coherent unit log)
    (changed : s.Change TreeView.render unit more t) : t.Coherent unit (log ++ more) := by
  have before := coherent.append more
  have offsets := changed.offsets_eq before.offsets_eq
  cases changed with
  | keep lastFailure status => exact before.with_status lastFailure status
  | commit source raw tree lastFailure status answered normal =>
      -- All parts are replaced at once; only the highlight is the old one.
      refine ⟨before.highlight_eq, rfl, offsets, ?_, ?_⟩
      · intro snapshot same view shown
        obtain rfl := Option.some.inj same
        obtain rfl := Option.some.inj shown
        exact ⟨raw, List.mem_append_right _ answered, normal⟩
      · intro view shown
        obtain rfl := Option.some.inj shown
        exact ⟨fun _ => true, TreeView.render_eq_shown tree⟩
  | toggle view next number lastFailure status shown toggled =>
      obtain ⟨isOpen, drawn⟩ := before.drawn view shown
      rw [drawn, TreeView.toggle?_shown] at toggled
      split at toggled
      · obtain rfl := Option.some.inj toggled
        exact (before.with_view _ shown).with_status lastFailure status
      · cases toggled
  | recolour theme lastFailure status =>
      cases shown : s.view with
      | none =>
          refine ⟨rfl, ?_, before.offsets_eq, by simp, by simp⟩
          rw [before.isSome_eq, shown]
          rfl
      | some view =>
          have drawn := before.with_view (fun _ => true) shown
          rw [← TreeView.render_eq_shown] at drawn
          exact ⟨rfl, drawn.isSome_eq, drawn.offsets_eq, drawn.parsed, drawn.drawn⟩

end SessionState.Coherent

namespace Controller

variable {π ε η : Type} [SourceParser π] [EditorSurface ε] [RenderHost η]

/-- A run keeps together what is shown. -/
theorem coherent_run {c : Controller π ε η} {unit : TextUnit} {log : List Answer}
    (renderer : c.renderer = TreeView.render) (same : c.config.textUnit = unit)
    (coherent : c.state.Coherent unit log) (commands : List (Command ε η)) :
    (c.run commands).state.Coherent unit (log ++ c.answersAll commands) := by
  induction commands generalizing c log with
  | nil =>
      rw [answersAll, List.append_nil]
      exact coherent
  | cons command rest ih =>
      obtain ⟨config, renders, -⟩ := setup_exec c command
      have changed := change_exec c command
      rw [renderer, same] at changed
      rw [run_cons, answersAll, ← List.append_assoc]
      exact ih (renders.trans renderer) (by rw [config, same]) (coherent.change changed)

omit [SourceParser π] [EditorSurface ε] [RenderHost η] in
/-- A new controller shows nothing yet. -/
theorem setup_new {config : Config} {parser : π} {editor : ε} {start : Controller π ε η}
    (started : new config parser editor = .ok start) :
    start.config = config ∧ start.renderer = TreeView.render ∧
      start.state.Coherent config.textUnit [] := by
  obtain ⟨theme, rfl⟩ := exists_new_eq started
  exact ⟨rfl, rfl, (SessionState.Coherent.ofTheme theme).with_status none statusReady⟩

/-- What a session shows after any run from the beginning. -/
theorem coherent_run_of_new {config : Config} {parser : π} {editor : ε}
    {start : Controller π ε η} (started : new config parser editor = .ok start)
    (commands : List (Command ε η)) :
    (start.run commands).state.Coherent config.textUnit (start.answersAll commands) := by
  obtain ⟨same, renderer, coherent⟩ := setup_new started
  have run := coherent_run renderer (by rw [same]) coherent commands
  rwa [List.nil_append] at run

/-- In every state that a session reaches, whatever its parser and its host answer, there
is a source exactly if there is a view, and then the offsets are those of the source and
the tree is the normal form of an answer of the parser for this source, with all its
spans inside the source. The highlight is always the one of the theme. -/
theorem shown_run_new {config : Config} {parser : π} {editor : ε} {start : Controller π ε η}
    (started : new config parser editor = .ok start) (commands : List (Command ε η)) :
    ((start.run commands).state.snapshot.isSome ↔ (start.run commands).state.view.isSome) ∧
      (∀ snapshot view, (start.run commands).state.snapshot = some snapshot →
        (start.run commands).state.view = some view →
          snapshot.offsets = .build config.textUnit snapshot.source ∧
          (∃ raw, (snapshot.source, .ok raw) ∈ start.answersAll commands ∧
            normalize (some snapshot.source.utf8ByteSize) raw = .ok view.tree) ∧
          view.tree.AllSpans fun span =>
            span.start ≤ span.stop ∧ span.stop ≤ snapshot.source.utf8ByteSize) ∧
      (start.run commands).state.highlight = (start.run commands).state.theme.highlight := by
  have coherent := coherent_run_of_new started commands
  refine ⟨by rw [coherent.isSome_eq], ?_, coherent.highlight_eq⟩
  intro snapshot view source shown
  obtain ⟨raw, answered, normal⟩ := coherent.parsed snapshot source view shown
  refine ⟨coherent.offsets_eq snapshot source, ⟨raw, answered, normal⟩, ?_⟩
  intro path m span resolved has
  obtain ⟨ordered, inside⟩ := within_of_normalize normal path m span resolved has
  exact ⟨ordered, inside _ rfl⟩

/-- The tree of the first cycle stays shown through a click, an unknown theme, a theme that
the host refuses to draw, and the cycle of a text that is too short for the spans. -/
theorem shown_run_new_replayed :
    let raw : Json := .obj
      [("start", .ofNat 0), ("end", .ofNat 4), ("data", .obj [("a", .obj [("b", .null)])])]
    let commands : List (Command MemoryEditor RecordingHost) :=
      [.attachHost (.fresh false [2]), .cycle, .click 4, .setTheme "none", .setTheme "barf",
        .edit (·.setText "q"), .tick 0, .tick 60]
    ∃ start : Controller ReplayParser MemoryEditor RecordingHost,
      new {} ⟨raw⟩ (.ofText "läx") = .ok start ∧
        ∃ view, (start.run commands).state.snapshot = some ⟨"läx", .build .scalar "läx"⟩ ∧
          (start.run commands).state.view = some view ∧
          (∃ raw, ("läx", .ok raw) ∈ start.answersAll commands ∧
            normalize (some 4) raw = .ok view.tree) ∧
          view.tree.AllSpans fun span => span.start ≤ span.stop ∧ span.stop ≤ 4 := by
  intro raw commands
  obtain ⟨start, started, source⟩ :
      ∃ start : Controller ReplayParser MemoryEditor RecordingHost,
        new {} ⟨raw⟩ (.ofText "läx") = .ok start ∧
          (start.run commands).state.source? = some "läx" := ⟨_, rfl, by decide +kernel⟩
  obtain ⟨present, shown, -⟩ := shown_run_new started commands
  obtain ⟨⟨text, offsets⟩, found, rfl⟩ := Option.map_eq_some_iff.1 source
  obtain ⟨view, seen⟩ := Option.isSome_iff_exists.1 (present.1 (by rw [found]; rfl))
  obtain ⟨table, parsed, inside⟩ := shown _ view found seen
  obtain rfl : offsets = .build .scalar "läx" := table
  exact ⟨start, started, view, found, seen, parsed, inside⟩

end Controller

end TreeLens
