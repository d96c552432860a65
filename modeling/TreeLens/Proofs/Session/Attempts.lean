import TreeLens.Proofs.Session.Runs

/-!
# Attempts

A cycle that gives a source to the parser is an attempt, whatever becomes of it. The text of
the last attempt is remembered before the parser is asked, so that text is passed over until
another one is attempted: not only if its tree is shown, but also if the attempt failed, and
no matter where (`skipped_run_new`).

`Controller.Remembers` is what a run keeps: the remembered text is that of the last attempt,
and if this attempt rendered, it is the one that is shown.
-/

namespace TreeLens

/-- A source that was given to the parser, and how its cycle ended. -/
abbrev Attempt : Type := String × Except Failure Bool

namespace Controller

variable {π ε η : Type} [SourceParser π] [EditorSurface ε] [RenderHost η]

/-- How the cycle that a command runs ends. -/
def cycleResult (c : Controller π ε η) : Command ε η → Except Failure Bool
  | .cycle => c.runCycle.1
  | .tick now => (c.tickTimers now).2.runCycle.1
  | _ => .ok false

/-- The attempt that a command makes, if it makes one. -/
def attempts (c : Controller π ε η) (command : Command ε η) : List Attempt :=
  (c.asks? command).toList.map fun source => (source, c.cycleResult command)

/-- The attempts of a run, in order. -/
def attemptsAll (c : Controller π ε η) : List (Command ε η) → List Attempt
  | [] => []
  | command :: rest => c.attempts command ++ (c.exec command).attemptsAll rest

/-! ## What an attempt leaves -/

omit [SourceParser π] [RenderHost η] in
/-- No source waits if the text is empty or was the last one that was attempted. -/
theorem pending?_eq_none_iff (c : Controller π ε η) :
    c.pending? = none ↔
      EditorSurface.text c.editor = "" ∨ c.lastSource = some (EditorSurface.text c.editor) := by
  simp [pending?, or_iff_not_imp_left]

omit [SourceParser π] [RenderHost η] in
/-- The source that waits is the text, if it is neither empty nor the one of the last attempt. -/
theorem pending?_eq_some_iff (c : Controller π ε η) (source : String) :
    c.pending? = some source ↔
      EditorSurface.text c.editor = source ∧ source ≠ "" ∧ c.lastSource ≠ some source := by
  unfold pending?
  simp only [Bool.or_eq_true, String.isEmpty_iff, beq_iff_eq]
  constructor
  · intro waiting
    split at waiting
    · cases waiting
    · next busy =>
        obtain rfl := Option.some.inj waiting
        exact ⟨rfl, not_or.1 busy⟩
  · rintro ⟨rfl, busy⟩
    rw [if_neg (not_or.2 busy)]

theorem runCycle_of_pending?_eq_none {c : Controller π ε η} (idle : c.pending? = none) :
    c.runCycle = (.ok false, c) := by
  have ended := c.cycle_runCycle
  generalize c.runCycle = result at ended ⊢
  cases ended with
  | skipped => rfl
  | failed waiting => rw [waiting] at idle; cases idle
  | rendered waiting => rw [waiting] at idle; cases idle

/-- A source that waits is remembered. Either it is shown, or the cycle fails and what is
shown stays. -/
theorem runCycle_of_pending?_eq_some {c : Controller π ε η} {source : String}
    (waiting : c.pending? = some source) :
    c.runCycle.2.lastSource = some source ∧
      ((c.runCycle.1 = .ok true ∧ c.runCycle.2.state.source? = some source) ∨
        ∃ failure, c.runCycle.1 = .error failure ∧
          c.runCycle.2.state.snapshot = c.state.snapshot) := by
  have ended := c.cycle_runCycle
  generalize c.runCycle = result at ended ⊢
  cases ended with
  | skipped idle => rw [waiting] at idle; cases idle
  | @failed other failure _ same =>
      obtain rfl := Option.some.inj (waiting.symm.trans same)
      exact ⟨rfl, .inr ⟨failure, rfl, rfl⟩⟩
  | rendered same =>
      obtain rfl := Option.some.inj (waiting.symm.trans same)
      exact ⟨rfl, .inl ⟨rfl, rfl⟩⟩

/-- A cycle is passed over exactly if no source waits. -/
theorem runCycle_eq_ok_false_iff (c : Controller π ε η) :
    c.runCycle.1 = .ok false ↔ c.pending? = none := by
  constructor
  · intro passed
    cases pending : c.pending? with
    | none => rfl
    | some source =>
        obtain ⟨-, ⟨rendered, -⟩ | ⟨failure, failed, -⟩⟩ := runCycle_of_pending?_eq_some pending
        · rw [rendered] at passed; cases passed
        · rw [failed] at passed; cases passed
  · intro idle
    rw [runCycle_of_pending?_eq_none idle]

/-- A command that asks the parser for nothing remembers nothing and shows no other source. -/
theorem exec_of_asks?_eq_none {c : Controller π ε η} {command : Command ε η}
    (nothing : c.asks? command = none) :
    (c.exec command).lastSource = c.lastSource ∧
      (c.exec command).state.snapshot = c.state.snapshot := by
  have changed := change_exec c command
  rw [show c.answers command = [] by simp [answers, nothing]] at changed
  refine ⟨?_, changed.snapshot_eq⟩
  rcases exec_cases c command with ⟨now, rfl⟩ | rfl | ⟨-, editor, host, state, same⟩
  · obtain ⟨lastPoll, debouncer, -, ⟨-, idle⟩ | ⟨fired, lastFailure, status, ran⟩⟩ :=
      exists_tick_eq c now
    · rw [exec, idle]
    · rw [asks?, if_pos fired] at nothing
      rw [exec, ran, runCycle_of_pending?_eq_none
        (show pending? { c with lastPoll, debouncer } = none from nothing)]
      rfl
  · rw [exec, runCycle_of_pending?_eq_none nothing]
  · rw [same]

/-- A command that asks the parser for a source remembers it, and shows it if the cycle does
not fail. -/
theorem exec_of_asks?_eq_some {c : Controller π ε η} {command : Command ε η} {source : String}
    (asks : c.asks? command = some source) :
    (c.exec command).lastSource = some source ∧
      ((c.cycleResult command = .ok true ∧ (c.exec command).state.source? = some source) ∨
        ∃ failure, c.cycleResult command = .error failure ∧
          (c.exec command).state.snapshot = c.state.snapshot) := by
  cases command with
  | cycle => exact runCycle_of_pending?_eq_some asks
  | tick now =>
      obtain ⟨lastPoll, debouncer, timers, ⟨waits, -⟩ | ⟨fired, lastFailure, status, ran⟩⟩ :=
        exists_tick_eq c now
      · rw [asks?, if_neg (by simp [waits])] at asks
        cases asks
      · rw [asks?, if_pos fired] at asks
        rw [exec, ran, cycleResult, timers]
        exact runCycle_of_pending?_eq_some
          (show pending? { c with lastPoll, debouncer } = some source from asks)
  | edit | attachHost | hover | click | setTheme | copy => cases asks

/-- Only an attempt that renders replaces the source that is shown. -/
theorem snapshot_exec {c : Controller π ε η} {command : Command ε η}
    (failed : ∀ attempt ∈ c.attempts command, attempt.2 ≠ .ok true) :
    (c.exec command).state.snapshot = c.state.snapshot := by
  cases asks : c.asks? command with
  | none => exact (exec_of_asks?_eq_none asks).2
  | some source =>
      obtain ⟨-, ⟨rendered, -⟩ | ⟨failure, -, same⟩⟩ := exec_of_asks?_eq_some asks
      · have tried : (source, c.cycleResult command) ∈ c.attempts command := by
          simp [attempts, asks]
        exact absurd rendered (failed _ tried)
      · exact same

theorem snapshot_run {c : Controller π ε η} {commands : List (Command ε η)}
    (failed : ∀ attempt ∈ c.attemptsAll commands, attempt.2 ≠ .ok true) :
    (c.run commands).state.snapshot = c.state.snapshot := by
  induction commands generalizing c with
  | nil => rfl
  | cons command rest ih =>
      have now := snapshot_exec fun attempt member =>
        failed attempt (List.mem_append_left _ member)
      rw [run_cons, ← now]
      exact ih fun attempt member => failed attempt (List.mem_append_right _ member)

/-! ## The last attempt -/

/-- The remembered text is that of the last attempt of `log`. That attempt failed, or its
source is shown. -/
structure Remembers (log : List Attempt) (c : Controller π ε η) : Prop where
  lastSource_eq : c.lastSource = log.getLast?.map (·.1)
  shown_or_failed : ∀ source result, log.getLast? = some (source, result) →
    (result = .ok true ∧ c.state.source? = some source) ∨ ∃ failure, result = .error failure

theorem Remembers.exec {c : Controller π ε η} {log : List Attempt} (remembers : c.Remembers log)
    (command : Command ε η) : (c.exec command).Remembers (log ++ c.attempts command) := by
  cases asks : c.asks? command with
  | none =>
      obtain ⟨lastSource, snapshot⟩ := exec_of_asks?_eq_none asks
      have nothing : c.attempts command = [] := by simp [attempts, asks]
      rw [nothing, List.append_nil]
      refine ⟨lastSource.trans remembers.lastSource_eq, ?_⟩
      rw [SessionState.source?, snapshot]
      exact remembers.shown_or_failed
  | some source =>
      obtain ⟨lastSource, ended⟩ := exec_of_asks?_eq_some asks
      have one : c.attempts command = [(source, c.cycleResult command)] := by
        simp [attempts, asks]
      rw [one]
      refine ⟨by rw [lastSource, List.getLast?_concat]; rfl, ?_⟩
      intro other result last
      rw [List.getLast?_concat] at last
      obtain ⟨rfl, rfl⟩ := Prod.mk.inj (Option.some.inj last)
      rcases ended with rendered | ⟨failure, failed, -⟩
      · exact .inl rendered
      · exact .inr ⟨failure, failed⟩

theorem Remembers.run {c : Controller π ε η} {log : List Attempt} (remembers : c.Remembers log)
    (commands : List (Command ε η)) :
    (c.run commands).Remembers (log ++ c.attemptsAll commands) := by
  induction commands generalizing c log with
  | nil =>
      rw [attemptsAll, List.append_nil]
      exact remembers
  | cons command rest ih =>
      rw [run_cons, attemptsAll, ← List.append_assoc]
      exact ih (remembers.exec command)

omit [SourceParser π] [EditorSurface ε] [RenderHost η] in
/-- A new controller made no attempt. -/
theorem Remembers.of_new {config : Config} {parser : π} {editor : ε} {start : Controller π ε η}
    (started : new config parser editor = .ok start) (renderer : Node → TreeView) :
    (start.withRenderer renderer).Remembers [] := by
  obtain ⟨theme, rfl⟩ := exists_new_eq started
  exact ⟨rfl, by simp⟩

/-- **A skipped cycle.** In every state that a session reaches, whatever its parser, its host
and its renderer do: a cycle is passed over exactly if the text is empty or is that of the
last attempt. If it is not empty, then either it is the source that is shown, or the last
attempt, which was made on this very text, failed. -/
theorem skipped_run_new {config : Config} {parser : π} {editor : ε} {start : Controller π ε η}
    (started : new config parser editor = .ok start) (renderer : Node → TreeView)
    (commands : List (Command ε η)) :
    let c := (start.withRenderer renderer).run commands
    let text := EditorSurface.text c.editor
    let last := ((start.withRenderer renderer).attemptsAll commands).getLast?
    (c.runCycle.1 = .ok false ↔ text = "" ∨ ∃ result, last = some (text, result)) ∧
      (c.runCycle.1 = .ok false → text ≠ "" →
        c.state.source? = some text ∨ ∃ failure, last = some (text, .error failure)) := by
  intro c text last
  have remembers : c.Remembers _ := (Remembers.of_new started renderer).run commands
  rw [List.nil_append] at remembers
  have attempted : c.lastSource = some text ↔ ∃ result, last = some (text, result) := by
    rw [remembers.lastSource_eq]
    constructor
    · intro same
      obtain ⟨⟨source, result⟩, found, rfl⟩ := Option.map_eq_some_iff.1 same
      exact ⟨result, found⟩
    · rintro ⟨result, found⟩
      exact Option.map_eq_some_iff.2 ⟨(text, result), found, rfl⟩
  have passed : c.runCycle.1 = .ok false ↔ text = "" ∨ ∃ result, last = some (text, result) := by
    rw [runCycle_eq_ok_false_iff, pending?_eq_none_iff, ← attempted]
  refine ⟨passed, ?_⟩
  intro skipped nonempty
  obtain ⟨result, found⟩ := (passed.1 skipped).resolve_left nonempty
  rcases remembers.shown_or_failed text result found with ⟨-, shown⟩ | ⟨failure, rfl⟩
  · exact .inl shown
  · exact .inr ⟨failure, found⟩

/-- The second text is too short for the span of its tree. It is skipped while the first one
is shown, also after a click and a change of theme. -/
theorem skipped_run_new_abnormal :
    let raw : Json := .obj
      [("start", .ofNat 0), ("end", .ofNat 2), ("data", .obj [("a", .null), ("b", .null)])]
    let commands : List (Command MemoryEditor RecordingHost) :=
      [.attachHost (.fresh false []), .cycle, .edit (·.setText "y"), .tick 0, .tick 60, .click 3,
        .setTheme "barf"]
    ∃ start : Controller ReplayParser MemoryEditor RecordingHost,
      new {} ⟨raw⟩ (.ofText "xx") = .ok start ∧
        (start.run commands).runCycle.1 = .ok false ∧ (start.run commands).editor.text = "y" ∧
        (start.run commands).state.source? = some "xx" ∧
        ∃ failure, (start.attemptsAll commands).getLast? = some ("y", .error failure) := by
  intro raw commands
  obtain ⟨start, started, skipped, text, source⟩ :
      ∃ start : Controller ReplayParser MemoryEditor RecordingHost,
        new {} ⟨raw⟩ (.ofText "xx") = .ok start ∧
        (start.run commands).runCycle.1 = .ok false ∧ (start.run commands).editor.text = "y" ∧
        (start.run commands).state.source? = some "xx" :=
    ⟨_, rfl, by decide +kernel, by decide +kernel, by decide +kernel⟩
  have rendering : start.withRenderer start.renderer = start := rfl
  have skip := (skipped_run_new started start.renderer commands).2
  rw [rendering] at skip
  have failed := skip skipped (by rw [show EditorSurface.text _ = _ from text]; decide)
  rw [show EditorSurface.text (start.run commands).editor = _ from text, source] at failed
  exact ⟨start, started, skipped, text, source, failed.resolve_left (by decide)⟩

/-- A text whose tree could not be shown, for want of a host or because the host failed, is
skipped all the same, though neither the parser nor the normal form failed and nothing is
shown. -/
theorem skipped_run_new_unpresented :
    let late : List (Command MemoryEditor RecordingHost) :=
      [.cycle, .attachHost (.fresh false [])]
    let refused : List (Command MemoryEditor RecordingHost) :=
      [.attachHost (.fresh false [0]), .cycle]
    ∃ start : Controller ReplayParser MemoryEditor RecordingHost,
      new {} ⟨.obj [("a", .null)]⟩ (.ofText "x") = .ok start ∧
      (start.attemptsAll late = [("x", .error .missingHost)] ∧
        (start.run late).runCycle.1 = .ok false ∧ (start.run late).editor.text = "x" ∧
        (start.run late).state.source? = none) ∧
      (start.attemptsAll refused = [("x", .error (.state (.reported "present 0")))] ∧
        (start.run refused).runCycle.1 = .ok false ∧ (start.run refused).editor.text = "x" ∧
        (start.run refused).state.source? = none) :=
  ⟨_, rfl, by decide +kernel, by decide +kernel⟩

end Controller

end TreeLens
