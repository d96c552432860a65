import TreeLens.Proofs.Session.Attempts
import TreeLens.Proofs.Session.Hovering

/-!
# Highlights over a run

Only pointer moves decorate an editor: cycles, clicks and changes of theme leave its
highlights alone, also when another source is shown
(`Controller.highlights_run_of_not_hover`). So a highlight lies in the text whose offsets were
in use when a pointer move made it (`Controller.held_run_new`), and it stays there when a
shorter text takes its place, until a pointer move has an effect again.
-/

namespace TreeLens

/-! ## Marks of pointer moves -/

section

variable (convention : SpanConvention) (offsets : OffsetTable) (style : HighlightStyle)

theorem MemoryEditor.applied_foldl_applyHover (events : List (HoverEvent × Node))
    (e : MemoryEditor) :
    (events.foldl (applyHover convention offsets style) e).applied =
      e.applied + (hoverEffects convention offsets style events).length := by
  induction events generalizing e with
  | nil => rfl
  | cons hovered rest ih =>
      rw [List.foldl_cons, ih, applyHover]
      simp only [hoverEffects, List.filterMap_cons]
      cases hoverEffect? convention offsets style hovered.1 hovered.2 with
      | none => rfl
      | some effect =>
          simp only [EditorSurface.apply, apply, applied, List.length_cons]
          omega

/-- The marks of an effect of hover events are ranges of spans. -/
theorem exists_span_of_mem_marks {events : List (HoverEvent × Node)} {effect : EditorEffect}
    (member : effect ∈ hoverEffects convention offsets style events)
    {mark : CharRange × HighlightStyle} (marked : mark ∈ effect.marks) :
    ∃ span, mark.1 = offsets.rangeOf convention span := by
  obtain ⟨⟨event, node⟩, -, caused⟩ := List.mem_filterMap.1 member
  cases event with
  | enter =>
      obtain ⟨span, -, rfl⟩ := Option.map_eq_some_iff.1 caused
      obtain rfl := List.mem_singleton.1 marked
      exact ⟨span, rfl⟩
  | exit =>
      obtain rfl := Option.some.inj caused
      cases marked

/-- Hover events leave an editor alone, or decorate it and leave only ranges of spans. -/
theorem MemoryEditor.foldl_applyHover_cases (events : List (HoverEvent × Node))
    (e : MemoryEditor) :
    let after := events.foldl (applyHover convention offsets style) e
    (after.highlights = e.highlights ∧ after.applied = e.applied) ∨
      (e.applied < after.applied ∧
        ∀ mark ∈ after.highlights, ∃ span, mark.1 = offsets.rangeOf convention span) := by
  intro after
  have highlights := highlights_foldl_applyHover convention offsets style events e
  have applied := applied_foldl_applyHover convention offsets style events e
  cases last : (hoverEffects convention offsets style events).getLast? with
  | none =>
      rw [last] at highlights
      rw [List.getLast?_eq_none_iff.1 last] at applied
      exact .inl ⟨highlights, applied⟩
  | some effect =>
      have member := List.mem_of_getLast? last
      have positive := List.length_pos_of_mem member
      rw [last] at highlights
      refine .inr ⟨?_, ?_⟩
      · rw [applied]
        omega
      · intro mark held
        rw [highlights] at held
        exact exists_span_of_mem_marks convention offsets style member held

end

/-! ## Steps -/

namespace Controller

variable {π ε η : Type} [SourceParser π] [RenderHost η]

theorem offsets_run [EditorSurface ε] {c : Controller π ε η} {unit : TextUnit}
    (same : c.config.textUnit = unit)
    (before : ∀ snapshot ∈ c.state.snapshot, snapshot.offsets = .build unit snapshot.source)
    (commands : List (Command ε η)) :
    ∀ snapshot ∈ (c.run commands).state.snapshot,
      snapshot.offsets = .build unit snapshot.source := by
  induction commands generalizing c with
  | nil => exact before
  | cons command rest ih =>
      have changed := change_exec c command
      rw [same] at changed
      exact ih (by rw [(setup_exec c command).1, same]) (changed.offsets_eq before)

theorem editor_runCycle [EditorSurface ε] (c : Controller π ε η) :
    c.runCycle.2.editor = c.editor := by
  have ended := c.cycle_runCycle
  generalize c.runCycle = result at ended ⊢
  cases ended <;> rfl

theorem editor_tick [EditorSurface ε] (c : Controller π ε η) (now : Nat) :
    (c.tick now).2.editor = c.editor := by
  obtain ⟨lastPoll, debouncer, -, ⟨-, idle⟩ | ⟨-, lastFailure, status, ran⟩⟩ :=
    exists_tick_eq c now
  · rw [idle]
  · rw [ran]
    exact editor_runCycle { c with lastPoll, debouncer }

/-- A command leaves the highlights alone, or it is a pointer move over a source that is shown
and leaves only ranges of its offsets. -/
theorem highlights_exec_cases (c : Controller π MemoryEditor η)
    (command : Command MemoryEditor η)
    (typed : ∀ change, command = .edit change → ∃ text, change = (·.setText text)) :
    ((c.exec command).editor.highlights = c.editor.highlights ∧
        (c.exec command).editor.applied = c.editor.applied) ∨
      ∃ left entered shown, command = .hover left entered ∧ c.state.snapshot = some shown ∧
        c.editor.applied < (c.exec command).editor.applied ∧
        ∀ mark ∈ (c.exec command).editor.highlights,
          ∃ span, mark.1 = shown.offsets.rangeOf c.config.spanConvention span := by
  cases command with
  | edit change =>
      obtain ⟨text, rfl⟩ := typed change rfl
      exact .inl ⟨rfl, rfl⟩
  | attachHost host => exact .inl ⟨rfl, rfl⟩
  | tick now => exact .inl (by rw [exec, editor_tick]; exact ⟨rfl, rfl⟩)
  | cycle => exact .inl (by rw [exec, editor_runCycle]; exact ⟨rfl, rfl⟩)
  | hover left entered =>
      rw [exec, hover]
      split
      · next shown snapshot =>
          rcases MemoryEditor.foldl_applyHover_cases c.config.spanConvention _
            c.state.highlight _ c.editor with alone | ⟨decorated, marks⟩
          · exact .inl alone
          · exact .inr ⟨left, entered, _, rfl, snapshot, decorated, marks⟩
      · exact .inl ⟨rfl, rfl⟩
  | click widget =>
      rcases exists_click_eq c widget with same | ⟨_, _, _, _, _, _, -, -, changed⟩
      · rw [exec, same]
        exact .inl ⟨rfl, rfl⟩
      · rw [exec, changed]
        exact .inl ⟨rfl, rfl⟩
  | setTheme name =>
      rcases exists_setTheme_eq c name with same | ⟨_, _, _, _, changed⟩
      · rw [exec, same]
        exact .inl ⟨rfl, rfl⟩
      · rw [exec, changed]
        exact .inl ⟨rfl, rfl⟩
  | copy view =>
      rw [exec, copySubtree]
      split <;> exact .inl ⟨rfl, rfl⟩

/-! ## Runs -/

/-- In a run that begins with `before`, a pointer move over the source `shown` is the last one
that decorates the editor; `rest` leaves the highlights as it made them. -/
structure DecoratedLast (c : Controller π MemoryEditor η)
    (before : List (Command MemoryEditor η)) (left entered : Option Nat)
    (rest : List (Command MemoryEditor η)) (shown : Snapshot) : Prop where
  shown_eq : (c.run before).state.snapshot = some shown
  applied_lt : (c.run before).editor.applied < ((c.run before).hover left entered).editor.applied
  applied_eq : (c.run (before ++ .hover left entered :: rest)).editor.applied =
    ((c.run before).hover left entered).editor.applied
  highlights_eq : (c.run (before ++ .hover left entered :: rest)).editor.highlights =
    ((c.run before).hover left entered).editor.highlights

/-- A run leaves the highlights alone, or they were made by the last pointer move of it that
decorated the editor, and are ranges of spans in the source that was shown then. -/
theorem highlights_run_cases (c : Controller π MemoryEditor η)
    {commands : List (Command MemoryEditor η)}
    (typed : ∀ change, .edit change ∈ commands → ∃ text, change = (·.setText text)) :
    ((c.run commands).editor.highlights = c.editor.highlights ∧
        (c.run commands).editor.applied = c.editor.applied) ∨
      ∃ before left entered rest shown, commands = before ++ .hover left entered :: rest ∧
        c.DecoratedLast before left entered rest shown ∧
        ∀ mark ∈ (c.run commands).editor.highlights,
          ∃ span, mark.1 = shown.offsets.rangeOf c.config.spanConvention span := by
  induction commands generalizing c with
  | nil => exact .inl ⟨rfl, rfl⟩
  | cons command rest ih =>
      have now := highlights_exec_cases c command
        fun change same => typed change (by simp [same])
      rw [run_cons]
      rcases ih (c.exec command) fun change later => typed change (List.mem_cons_of_mem _ later) with
        ⟨highlights, applied⟩ | ⟨before, left, entered, later, shown, rfl, last, ranged⟩
      · -- Nothing decorated the editor after the first command: did this one?
        rcases now with
          ⟨alone, unapplied⟩ | ⟨left, entered, shown, rfl, snapshot, decorated, marks⟩
        · exact .inl ⟨highlights.trans alone, applied.trans unapplied⟩
        · rw [← highlights] at marks
          exact .inr ⟨[], left, entered, rest, shown, rfl,
            ⟨snapshot, decorated, applied, highlights⟩, marks⟩
      · rw [(setup_exec c command).1] at ranged
        exact .inr ⟨command :: before, left, entered, later, shown, rfl,
          ⟨last.shown_eq, last.applied_lt, last.applied_eq, last.highlights_eq⟩, ranged⟩

/-- Commands without a pointer move leave the highlights as they are, whatever they commit. -/
theorem highlights_run_of_not_hover (c : Controller π MemoryEditor η)
    {commands : List (Command MemoryEditor η)}
    (typed : ∀ change, .edit change ∈ commands → ∃ text, change = (·.setText text))
    (still : ∀ left entered, .hover left entered ∉ commands) :
    (c.run commands).editor.highlights = c.editor.highlights := by
  rcases highlights_run_cases c typed with
    ⟨highlights, -⟩ | ⟨before, left, entered, rest, -, rfl, -, -⟩
  · exact highlights
  · exact absurd (by simp) (still left entered)

/-- **Highlights.** A session starts over a plain editor without highlights, and edits only
replace its text. In every state it reaches, every highlight was made by the last pointer move
that decorated the editor, and it is a range inside the source that was shown then. That source
is still the one that is shown if no attempt rendered since. From every such state on, commands
without a pointer move leave the highlights as they are, also when another source is
committed. -/
theorem held_run_new {config : Config} {parser : π} {editor : MemoryEditor}
    {start : Controller π MemoryEditor η} (started : new config parser editor = .ok start)
    (plain : editor.highlights = []) (renderer : Node → TreeView)
    {commands : List (Command MemoryEditor η)}
    (typed : ∀ change, .edit change ∈ commands → ∃ text, change = (·.setText text)) :
    let c := start.withRenderer renderer
    (∀ range style, (range, style) ∈ (c.run commands).editor.highlights →
      ∃ before left entered rest shown, commands = before ++ .hover left entered :: rest ∧
        c.DecoratedLast before left entered rest shown ∧
        range.start ≤ range.stop ∧ range.stop ≤ shown.offsets.charLength ∧
        ((∀ attempt ∈ ((c.run before).hover left entered).attemptsAll rest,
            attempt.2 ≠ .ok true) →
          (c.run commands).state.snapshot = some shown)) ∧
      ∀ more : List (Command MemoryEditor η),
        (∀ change, .edit change ∈ more → ∃ text, change = (·.setText text)) →
        (∀ left entered, .hover left entered ∉ more) →
        (c.run (commands ++ more)).editor.highlights = (c.run commands).editor.highlights := by
  intro c
  obtain ⟨same, settings, blank⟩ :
      c.editor = editor ∧ c.config = config ∧ c.state.snapshot = none := by
    obtain ⟨theme, rfl⟩ := exists_new_eq started
    exact ⟨rfl, rfl, rfl⟩
  refine ⟨?_, ?_⟩
  · intro range style held
    rcases highlights_run_cases c typed with
      ⟨highlights, -⟩ | ⟨before, left, entered, rest, shown, rfl, last, ranged⟩
    · rw [highlights, same, plain] at held
      cases held
    · have table : shown.offsets = .build config.textUnit shown.source :=
        offsets_run (by rw [settings]) (by simp [blank]) before shown last.shown_eq
      obtain ⟨span, covers⟩ := ranged _ held
      obtain ⟨ordered, inside⟩ := OffsetTable.rangeOf_build_le config.textUnit shown.source
        config.spanConvention span
      rw [settings, table] at covers
      obtain rfl : range = _ := covers
      refine ⟨before, left, entered, rest, shown, rfl, last, ordered, ?_, ?_⟩
      · rw [table]
        exact inside
      · intro unrendered
        have kept := snapshot_run unrendered
        rw [run_append, run_cons]
        exact (kept.trans (congrArg (·.snapshot) (state_hover _ left entered))).trans last.shown_eq
  · intro more typed still
    rw [run_append]
    exact highlights_run_of_not_hover _ typed still

/-- A highlight is kept through a click, a change of theme and the cycle of a text that is too
short for the spans of its tree; the source is still the one it was made in. After that another
text is committed, and the highlight is still there. -/
theorem held_run_new_kept :
    let raw : Json := .obj
      [("start", .ofNat 0), ("end", .ofNat 5), ("data", .obj
        [("x", .obj [("start", .ofNat 1), ("end", .ofNat 3), ("data", .obj [("k", .null)])]),
        ("y", .null)])]
    let commands : List (Command MemoryEditor RecordingHost) :=
      [.attachHost (.fresh false []), .cycle, .hover none (some 12), .click 3, .setTheme "barf",
        .edit (·.setText "q"), .cycle]
    let more : List (Command MemoryEditor RecordingHost) := [.edit (·.setText "longer"), .cycle]
    ∃ start : Controller ReplayParser MemoryEditor RecordingHost,
      new {} ⟨raw⟩ (.ofText "aé+b") = .ok start ∧
        (start.run commands).editor.highlights = [(⟨1, 2⟩, start.state.highlight)] ∧
        (start.attemptsAll commands).map (·.1) = ["aé+b", "q"] ∧
        (start.run commands).state.source? = some "aé+b" ∧
        (∃ before left entered rest shown, commands = before ++ .hover left entered :: rest ∧
          start.DecoratedLast before left entered rest shown ∧ 2 ≤ shown.offsets.charLength) ∧
        (start.run (commands ++ more)).state.source? = some "longer" ∧
        (start.run (commands ++ more)).editor.highlights =
          (start.run commands).editor.highlights := by
  intro raw commands more
  obtain ⟨start, started, highlights, attempts, source, committed⟩ :
      ∃ start : Controller ReplayParser MemoryEditor RecordingHost,
        new {} ⟨raw⟩ (.ofText "aé+b") = .ok start ∧
        (start.run commands).editor.highlights = [(⟨1, 2⟩, start.state.highlight)] ∧
        (start.attemptsAll commands).map (·.1) = ["aé+b", "q"] ∧
        (start.run commands).state.source? = some "aé+b" ∧
        (start.run (commands ++ more)).state.source? = some "longer" :=
    ⟨_, rfl, by decide +kernel, by decide +kernel, by decide +kernel, by decide +kernel⟩
  have typed : ∀ change, Command.edit change ∈ commands →
      ∃ text, change = fun e : MemoryEditor => e.setText text := by
    intro change member
    exact ⟨"q", by simpa [commands] using member⟩
  have retyped : ∀ change, Command.edit change ∈ more →
      ∃ text, change = fun e : MemoryEditor => e.setText text := by
    intro change member
    exact ⟨"longer", by simpa [more] using member⟩
  have held : (⟨1, 2⟩, start.state.highlight) ∈
      ((start.withRenderer start.renderer).run commands).editor.highlights := by
    rw [show start.withRenderer start.renderer = start from rfl, highlights]
    exact List.mem_singleton_self _
  obtain ⟨made, kept⟩ := held_run_new started rfl start.renderer typed
  obtain ⟨before, left, entered, rest, shown, split, last, -, inside, -⟩ := made _ _ held
  exact ⟨start, started, highlights, attempts, source,
    ⟨before, left, entered, rest, shown, split, last, inside⟩, committed,
    kept more retyped (by simp [more])⟩

/-- The pointer enters a region at the end of a text, and then a shorter text is shown. The
highlight is past the end of it, and stays there when the pointer leaves. -/
theorem held_run_new_stale :
    let raw : Json := .obj
      [("start", .ofNat 0), ("end", .ofNat 4), ("data", .obj
        [("x", .obj [("start", .ofNat 2), ("end", .ofNat 4), ("data", .obj [("k", .null)])]),
        ("y", .null)])]
    let commands : List (Command MemoryEditor RecordingHost) :=
      [.attachHost (.fresh false []), .cycle, .hover none (some 12), .edit (·.setText "a"), .cycle]
    ∃ start : Controller ScriptedParser MemoryEditor RecordingHost,
      new {} ⟨[.ok raw, .ok (.obj [("z", .null)])]⟩ (.ofText "abcd") = .ok start ∧
        (start.run commands).state.snapshot.map (·.offsets.charLength) = some 1 ∧
        (start.run commands).editor.highlights.map (·.1) = [⟨2, 4⟩] ∧
        ((start.run commands).hover (some 12) none).editor.highlights.map (·.1) = [⟨2, 4⟩] :=
  ⟨_, rfl, by decide +kernel, by decide +kernel, by decide +kernel⟩

end Controller

end TreeLens
