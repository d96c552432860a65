import Mathlib.Data.List.Chain
import TreeLens.Proofs.Session.Attempts
import TreeLens.Proofs.Session.Failing
import TreeLens.Proofs.Session.Watching

/-!
# What the parser is asked

The questions of a run are the texts that a `RecordedParser` was given in it; keeping a record
changes nothing else (`Controller.run_recorded`). As long as cycles are run by ticks alone, an
empty text is never asked for, and no text twice in a row. And the session does not go wrong
in silence: if no failure is recorded, what it shows is the text that was asked for last
(`Controller.questions_run_new`).

A failure can be recorded by a tick and by a host that refuses to show a view again, and only
a cycle that renders removes it. `Controller.Detects` is what a run keeps.
-/

namespace TreeLens

namespace RecordedParser

variable {π : Type}

/-- A parser whose answers are kept from now on. -/
def ofParser (parser : π) : RecordedParser π :=
  ⟨parser, []⟩

/-- The texts that the parser was asked for, in order. -/
def questions (p : RecordedParser π) : List String :=
  p.answers.map (·.1)

theorem alike_bare [SourceParser π] :
    SourceParser.Alike (RecordedParser.parser : RecordedParser π → π) :=
  fun _ _ => rfl

theorem questions_parse [SourceParser π] (p : RecordedParser π) (source : String) :
    (SourceParser.parse p source).2.questions = p.questions ++ [source] := by
  simp only [questions, SourceParser.parse, List.map_append, List.map_cons, List.map_nil]

end RecordedParser

namespace Controller

/-! ## Failures stay on record -/

section

variable {π ε η : Type} [SourceParser π] [EditorSurface ε] [RenderHost η]

omit [SourceParser π] [EditorSurface ε] in
/-- Showing a view once more may record a failure, but removes none. -/
theorem lastFailure_of_presentAgain {c : Controller π ε η}
    (clean : c.presentAgain.state.lastFailure = none) : c.state.lastFailure = none := by
  unfold presentAgain at clean
  split at clean
  · split at clean
    · exact clean
    · cases clean
  · exact clean

/-- A tick that asks for nothing leaves the state as it is. -/
theorem state_tick_of_asks?_eq_none {c : Controller π ε η} {now : Nat}
    (nothing : c.asks? (.tick now) = none) : (c.tick now).2.state = c.state := by
  obtain ⟨lastPoll, debouncer, timers, ⟨-, idle⟩ | ⟨fired, -⟩⟩ := exists_tick_eq c now
  · rw [idle]
  · rw [asks?, if_pos fired] at nothing
    have skipped := runCycle_of_pending?_eq_none
      (show pending? { c with lastPoll, debouncer } = none from nothing)
    have whole : c.tickTimers now = (true, { c with lastPoll, debouncer }) := Prod.ext fired timers
    simp only [tick, whole, skipped]

/-- A command that asks for nothing removes no failure. -/
theorem lastFailure_of_exec {c : Controller π ε η} {command : Command ε η}
    (nothing : c.asks? command = none) (clean : (c.exec command).state.lastFailure = none) :
    c.state.lastFailure = none := by
  cases command with
  | edit change => exact clean
  | attachHost host => exact clean
  | tick now =>
      rw [exec, state_tick_of_asks?_eq_none nothing] at clean
      exact clean
  | cycle =>
      rw [exec, runCycle_of_pending?_eq_none nothing] at clean
      exact clean
  | hover left entered =>
      rw [exec, hover] at clean
      split at clean <;> exact clean
  | click widget =>
      rw [exec, click] at clean
      split at clean
      · have before := lastFailure_of_presentAgain clean
        exact before
      · exact clean
  | setTheme name =>
      rw [exec, setTheme] at clean
      split at clean
      · exact clean
      · next theme _ =>
          simp only at clean
          split at clean
          · have before := lastFailure_of_presentAgain clean
            exact before
          · exact clean
  | copy view =>
      rw [exec, copySubtree] at clean
      split at clean <;> exact clean

/-- A tick whose cycle fails leaves a failure on record. -/
theorem lastFailure_tick {c : Controller π ε η} {now : Nat} {source : String}
    {failure : Failure} (asks : c.asks? (.tick now) = some source)
    (failed : c.cycleResult (.tick now) = .error failure) :
    (c.tick now).2.state.lastFailure = some failure.message := by
  have fired : (c.tickTimers now).1 = true := by
    rw [asks?] at asks
    split at asks
    · assumption
    · cases asks
  obtain ⟨-, state, -⟩ := tick_of_runCycle (Prod.ext fired rfl) failed
  rw [state]
  rfl

omit [SourceParser π] [RenderHost η] in
/-- A source that a command asks for is not empty and not the one of the last attempt. -/
theorem of_asks?_eq_some {c : Controller π ε η} {command : Command ε η} {source : String}
    (asks : c.asks? command = some source) : source ≠ "" ∧ c.lastSource ≠ some source := by
  refine ((c.pending?_eq_some_iff source).1 ?_).2
  cases command with
  | cycle => exact asks
  | tick now =>
      rw [asks?] at asks
      split at asks
      · exact asks
      · cases asks
  | edit | attachHost | hover | click | setTheme | copy => cases asks

/-! ## Recording a run -/

/-- The controller with a parser that keeps its answers. -/
def recorded (c : Controller π ε η) : Controller (RecordedParser π) ε η :=
  c.mapParts .ofParser id

/-- The texts that the parser is asked for in a run, in order. -/
def questions (c : Controller π ε η) (commands : List (Command ε η)) : List String :=
  (c.recorded.run commands).parser.questions

/-- Apart from the record, a run with a recorded parser is the run itself. -/
theorem run_recorded (c : Controller π ε η) (commands : List (Command ε η)) :
    (c.recorded.run commands).mapParts RecordedParser.parser id = c.run commands := by
  have bare : c.recorded.mapParts RecordedParser.parser id = c := by
    cases c with
    | mk _ _ _ host => cases host <;> rfl
  have same := run_mapParts RecordedParser.alike_bare RenderHost.alike_id c.recorded commands
  rw [bare, List.map_congr_left fun command _ => Command.mapHost_id command, List.map_id'] at same
  exact same.symm

end

/-! ## Change detection -/

variable {π ε η : Type} [SourceParser π] [EditorSurface ε] [RenderHost η]

/-- The remembered text is the last question. Questions are not empty and differ from the ones
before them. Without a failure on record, the last question is what is shown. -/
structure Detects (c : Controller (RecordedParser π) ε η) : Prop where
  lastSource_eq : c.lastSource = c.parser.questions.getLast?
  nonempty : "" ∉ c.parser.questions
  changing : c.parser.questions.IsChain (· ≠ ·)
  shown : c.state.lastFailure = none → ∀ source, c.parser.questions.getLast? = some source →
    c.state.source? = some source

/-- Every command but a cycle on its own keeps this. -/
theorem Detects.exec {c : Controller (RecordedParser π) ε η} (detects : c.Detects)
    {command : Command ε η} (ticking : command ≠ .cycle) : (c.exec command).Detects := by
  obtain ⟨-, -, parser⟩ := setup_exec c command
  cases asks : c.asks? command with
  | none =>
      obtain ⟨lastSource, snapshot⟩ := exec_of_asks?_eq_none asks
      have same : (c.exec command).parser = c.parser := by rw [parser, asks]; rfl
      refine ⟨?_, ?_, ?_, ?_⟩
      · rw [lastSource, same]
        exact detects.lastSource_eq
      · rw [same]
        exact detects.nonempty
      · rw [same]
        exact detects.changing
      · intro clean
        rw [same, SessionState.source?, snapshot]
        exact detects.shown (lastFailure_of_exec asks clean)
  | some source =>
      obtain ⟨nonempty, other⟩ := of_asks?_eq_some asks
      obtain ⟨lastSource, ended⟩ := exec_of_asks?_eq_some asks
      have grown : (c.exec command).parser.questions = c.parser.questions ++ [source] := by
        rw [parser, asks]
        exact c.parser.questions_parse source
      -- The text is marked before its cycle ends, so the record and the mark grow together.
      refine ⟨?_, ?_, ?_, ?_⟩
      · rw [lastSource, grown, List.getLast?_concat]
      · rw [grown, List.mem_append, List.mem_singleton]
        rintro (earlier | now)
        · exact detects.nonempty earlier
        · exact nonempty now.symm
      · rw [grown]
        refine detects.changing.append (.singleton source) ?_
        -- Only the seam is new: the question before is the marked text, which is not asked for.
        intro before last next first same
        obtain rfl : source = next := Option.some.inj first
        rw [detects.lastSource_eq, Option.mem_def.1 last, same] at other
        exact other rfl
      · intro clean last lastQuestion
        rw [grown, List.getLast?_concat] at lastQuestion
        obtain rfl := Option.some.inj lastQuestion
        rcases ended with ⟨-, shown⟩ | ⟨failure, failed, -⟩
        · exact shown
        · -- The cycle was run by a tick, which would have left a failure.
          cases command with
          | tick now =>
              rw [Controller.exec, lastFailure_tick asks failed] at clean
              cases clean
          | cycle => exact absurd rfl ticking
          | edit | attachHost | hover | click | setTheme | copy => cases asks

theorem Detects.run {c : Controller (RecordedParser π) ε η} (detects : c.Detects)
    {commands : List (Command ε η)} (ticking : .cycle ∉ commands) : (c.run commands).Detects := by
  induction commands generalizing c with
  | nil => exact detects
  | cons command rest ih =>
      rw [run_cons]
      refine ih (detects.exec ?_) fun later => ticking (List.mem_cons_of_mem _ later)
      rintro rfl
      exact ticking List.mem_cons_self

omit [SourceParser π] [EditorSurface ε] [RenderHost η] in
/-- In a new controller nothing was asked. -/
theorem Detects.of_new {config : Config} {parser : π} {editor : ε} {start : Controller π ε η}
    (started : new config parser editor = .ok start) (renderer : Node → TreeView) :
    (start.withRenderer renderer).recorded.Detects := by
  obtain ⟨theme, rfl⟩ := exists_new_eq started
  exact ⟨rfl, List.not_mem_nil, .nil, by intro _ source last; cases last⟩

/-- **Change detection.** In every run of a session in which cycles are run by ticks alone,
whatever its parser, its host and its renderer do: the parser is never asked for an empty text
and never for the same text twice in a row. And whenever no failure is on record, the text it
was asked for last, if any, is the source that is shown. -/
theorem questions_run_new {config : Config} {parser : π} {editor : ε} {start : Controller π ε η}
    (started : new config parser editor = .ok start) (renderer : Node → TreeView)
    {commands : List (Command ε η)} (ticking : .cycle ∉ commands) :
    let questions := (start.withRenderer renderer).questions commands
    let state := ((start.withRenderer renderer).run commands).state
    "" ∉ questions ∧ questions.IsChain (· ≠ ·) ∧
      (state.lastFailure = none → ∀ source, questions.getLast? = some source →
        state.source? = some source) := by
  intro questions state
  have detects := (Detects.of_new started renderer).run ticking
  have same : ((start.withRenderer renderer).recorded.run commands).state = state := by
    rw [show state = _ from congrArg Controller.state (run_recorded _ commands).symm]
    rfl
  refine ⟨detects.nonempty, detects.changing, ?_⟩
  rw [← same]
  exact detects.shown

/-- A text is rendered, the next one has a mistake, and then the first one is back: it is asked
for again and shown. The empty text in between is passed over, and so is a second tick. -/
theorem questions_run_new_returned :
    let raw : Json := .obj [("a", .obj [("b", .null)])]
    let commands : List (Command MemoryEditor RecordingHost) :=
      [.attachHost (.fresh false []), .tick 0, .tick 60, .edit (·.setText "y"), .tick 160,
        .tick 220, .click 4, .setTheme "barf", .edit (·.setText ""), .tick 320, .tick 380,
        .edit (·.setText "x"), .tick 480, .tick 540, .hover none (some 4), .tick 640, .tick 700]
    ∃ start : Controller ScriptedParser MemoryEditor RecordingHost,
      new {} ⟨[.ok raw, .error .noResult, .ok raw]⟩ (.ofText "x") = .ok start ∧
        .cycle ∉ commands ∧ start.questions commands = ["x", "y", "x"] ∧
        (start.questions commands).IsChain (· ≠ ·) ∧
        (start.run commands).state.lastFailure = none ∧
        (start.run commands).state.source? = some "x" := by
  intro raw commands
  have ticking : Command.cycle ∉ commands := by simp [commands]
  obtain ⟨start, started, asked, clean⟩ :
      ∃ start : Controller ScriptedParser MemoryEditor RecordingHost,
        new {} ⟨[.ok raw, .error .noResult, .ok raw]⟩ (.ofText "x") = .ok start ∧
        start.questions commands = ["x", "y", "x"] ∧
        (start.run commands).state.lastFailure = none :=
    ⟨_, rfl, by decide +kernel, by decide +kernel⟩
  have rendering : start.withRenderer start.renderer = start := rfl
  obtain ⟨-, changing, shown⟩ := questions_run_new started start.renderer ticking
  rw [rendering] at changing shown
  exact ⟨start, started, ticking, asked, changing, clean,
    shown clean "x" (by rw [asked]; rfl)⟩

end Controller

end TreeLens
