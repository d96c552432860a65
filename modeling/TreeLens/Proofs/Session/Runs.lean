import TreeLens.Proofs.Tree.Spans
import TreeLens.Proofs.View.Shown
import TreeLens.Session.Host

/-!
# Runs of a session

A controller with everything that can happen to it: edits, hosts, ticks, cycles, pointer
moves, clicks, changes of theme and copies, in any order and whatever the parser and the
host answer.

`Controller.Cycle` says once how a cycle can end: it is passed over, it fails at one of four
places, or it renders. `SessionState.Change` says once what a command can do to what is
shown: nothing, show a tree that was just parsed, toggle a view, or change the theme. The
source, its offsets and the view never drift apart under these changes
(`SessionState.Coherent`), and so never in a run (`Controller.coherent_run`).
-/

namespace TreeLens

/-! ## Commands -/

/-- What can happen to a controller. An edit is any change the editor makes on its own. -/
inductive Command (ε η : Type) where
  | edit (change : ε → ε)
  | attachHost (host : η)
  | tick (now : Nat)
  | cycle
  | hover (left entered : Option Nat)
  | click (widget : Nat)
  | setTheme (name : String)
  | copy (view : Nat)

/-- What a parser was asked, and what it answered. -/
abbrev Answer : Type := String × Except ParseFailure Json

namespace Controller

variable {π ε η : Type} [SourceParser π] [EditorSurface ε] [RenderHost η]

/-- The controller after a command. -/
def exec (c : Controller π ε η) : Command ε η → Controller π ε η
  | .edit change => { c with editor := change c.editor }
  | .attachHost host => c.attachHost host
  | .tick now => (c.tick now).2
  | .cycle => c.runCycle.2
  | .hover left entered => c.hover left entered
  | .click widget => (c.click widget).2
  | .setTheme name => (c.setTheme name).2
  | .copy view => (c.copySubtree view).2

/-- The controller after commands, one after the other. -/
def run (c : Controller π ε η) (commands : List (Command ε η)) : Controller π ε η :=
  commands.foldl exec c

/-- The source that a cycle gives to the parser. -/
def pending? (c : Controller π ε η) : Option String :=
  let source := EditorSurface.text c.editor
  if source.isEmpty || c.lastSource == some source then none else some source

/-- The source that a command gives to the parser. -/
def asks? (c : Controller π ε η) : Command ε η → Option String
  | .cycle => c.pending?
  | .tick now => if (c.tickTimers now).1 then c.pending? else none
  | _ => none

/-- What the parser answers during a command. -/
def answers (c : Controller π ε η) (command : Command ε η) : List Answer :=
  (c.asks? command).toList.map fun source => (source, (SourceParser.parse c.parser source).1)

/-- What the parser answers during a run. -/
def answersAll (c : Controller π ε η) : List (Command ε η) → List Answer
  | [] => []
  | command :: rest => c.answers command ++ (c.exec command).answersAll rest

/-! ## How a cycle ends -/

/-- The parser after a source was given to it, if one was. -/
def asked (c : Controller π ε η) (source : Option String) : π :=
  source.elim c.parser fun source => (SourceParser.parse c.parser source).2

/-- Why the cycle of a source fails, and which host that leaves. -/
inductive Fails (c : Controller π ε η) (source : String) : Failure → Option η → Prop
  | unparsed {failure : ParseFailure}
      (parsed : (SourceParser.parse c.parser source).1 = .error failure) :
      Fails c source (.parse failure) c.host
  | abnormal {raw : Json} {error : NormalizeError}
      (parsed : (SourceParser.parse c.parser source).1 = .ok raw)
      (normal : normalize (some source.utf8ByteSize) raw = .error error) :
      Fails c source (.normalize error) c.host
  | homeless {raw : Json} {tree : Node}
      (parsed : (SourceParser.parse c.parser source).1 = .ok raw)
      (normal : normalize (some source.utf8ByteSize) raw = .ok tree) (nowhere : c.host = none) :
      Fails c source .missingHost none
  | refused {raw : Json} {tree : Node} {host after : η} {failure : Failure}
      (parsed : (SourceParser.parse c.parser source).1 = .ok raw)
      (normal : normalize (some source.utf8ByteSize) raw = .ok tree) (hosted : c.host = some host)
      (refuses : RenderHost.present host (c.renderer tree) c.state.theme = (.error failure, after)) :
      Fails c source failure (some after)

/-- How a cycle ends. A failure leaves the state and the editor as they were. -/
inductive Cycle (c : Controller π ε η) : Except Failure Bool × Controller π ε η → Prop
  | skipped (idle : c.pending? = none) : Cycle c (.ok false, c)
  | failed {source : String} {failure : Failure} {host : Option η}
      (waiting : c.pending? = some source) (fails : c.Fails source failure host) :
      Cycle c (.error failure,
        { c with parser := c.asked (some source), lastSource := some source, host })
  | rendered {source : String} {raw : Json} {tree : Node} {host after : η}
      (waiting : c.pending? = some source)
      (parsed : (SourceParser.parse c.parser source).1 = .ok raw)
      (normal : normalize (some source.utf8ByteSize) raw = .ok tree) (hosted : c.host = some host)
      (presents : RenderHost.present host (c.renderer tree) c.state.theme = (.ok (), after)) :
      Cycle c (.ok true,
        { c with
          parser := c.asked (some source)
          lastSource := some source
          host := some after
          state := (c.state.commit source (.build c.config.textUnit source)
            (c.renderer tree)).setStatus statusRendered })

theorem cycle_runCycle (c : Controller π ε η) : c.Cycle c.runCycle := by
  unfold runCycle
  simp only
  split
  · next idle => exact .skipped (by simp [pending?, idle])
  · next busy =>
      have waiting : c.pending? = some (EditorSurface.text c.editor) := by simp [pending?, busy]
      cases answer : SourceParser.parse c.parser (EditorSurface.text c.editor) with
      | mk parsed parser =>
          have asked : parser = c.asked (some (EditorSurface.text c.editor)) := by
            simp [Controller.asked, answer]
          subst asked
          cases parsed with
          | error failure => exact .failed waiting (.unparsed (by rw [answer]))
          | ok raw =>
              have parsed : (SourceParser.parse c.parser (EditorSurface.text c.editor)).1 =
                  .ok raw := by rw [answer]
              simp only
              split
              · next normal => exact .failed waiting (.abnormal parsed normal)
              · next normal =>
                  -- The tree is there; it is left to the host whether it is shown.
                  unfold present
                  simp only
                  split
                  · next nowhere =>
                      have fails := Fails.homeless parsed normal nowhere
                      rw [← nowhere] at fails
                      exact .failed waiting fails
                  · next hosted =>
                      split
                      · next refuses =>
                          exact .failed waiting (.refused parsed normal hosted refuses)
                      · next presents => exact .rendered waiting parsed normal hosted presents

end Controller

/-! ## What a command does to the state -/

/-- The ways in which what is shown can change, given how trees are rendered, the unit of
the editor and the parser's answers. Status and failure may become anything. -/
inductive SessionState.Change (renderer : Node → TreeView) (unit : TextUnit) (log : List Answer)
    (s : SessionState) : SessionState → Prop
  | keep (lastFailure : Option String) (status : String) :
      Change renderer unit log s { s with lastFailure, status }
  | commit (source : String) (raw : Json) (tree : Node) (lastFailure : Option String)
      (status : String) (answered : (source, .ok raw) ∈ log)
      (normal : normalize (some source.utf8ByteSize) raw = .ok tree) :
      Change renderer unit log s
        { s with
          snapshot := some ⟨source, .build unit source⟩
          view := some (renderer tree)
          lastFailure
          status }
  | toggle (view next : TreeView) (number : Nat) (lastFailure : Option String) (status : String)
      (shown : s.view = some view) (toggled : view.toggle? number = some next) :
      Change renderer unit log s { s with view := some next, lastFailure, status }
  | recolour (theme : Theme) (lastFailure : Option String) (status : String) :
      Change renderer unit log s
        { s with
          theme
          highlight := theme.highlight
          view := s.view.map fun view => renderer view.tree
          lastFailure
          status }

namespace SessionState.Change

variable {renderer : Node → TreeView} {unit : TextUnit} {log : List Answer} {s t : SessionState}

theorem refl : Change renderer unit log s s :=
  .keep s.lastFailure s.status

/-- What happens to failure and status afterwards does not matter. -/
theorem andThen (change : Change renderer unit log s t) (lastFailure : Option String)
    (status : String) : Change renderer unit log s { t with lastFailure, status } := by
  cases change with
  | keep => exact .keep lastFailure status
  | commit source raw tree _ _ answered normal =>
      exact .commit source raw tree lastFailure status answered normal
  | toggle view next number _ _ shown toggled =>
      exact .toggle view next number lastFailure status shown toggled
  | recolour theme => exact .recolour theme lastFailure status

/-- Every source is shown with its own offsets, however trees are rendered. -/
theorem offsets_eq (change : Change renderer unit log s t)
    (before : ∀ snapshot ∈ s.snapshot, snapshot.offsets = .build unit snapshot.source) :
    ∀ snapshot ∈ t.snapshot, snapshot.offsets = .build unit snapshot.source := by
  cases change with
  | keep => exact before
  | commit source =>
      intro snapshot same
      obtain rfl := Option.some.inj same
      rfl
  | toggle => exact before
  | recolour => exact before

/-- Without an answer of the parser the source stays. -/
theorem snapshot_eq (change : Change renderer unit [] s t) : t.snapshot = s.snapshot := by
  cases change with
  | keep => rfl
  | commit source raw tree lastFailure status answered => cases answered
  | toggle => rfl
  | recolour => rfl

end SessionState.Change

namespace Controller

open SessionState (Change)

section

variable {π ε η : Type}

/-- Ticking changes nothing but the timers. -/
theorem exists_tickTimers_eq (c : Controller π ε η) (now : Nat) :
    ∃ lastPoll debouncer, (c.tickTimers now).2 = { c with lastPoll, debouncer } := by
  unfold tickTimers
  simp only
  split
  · exact ⟨_, _, rfl⟩
  · exact ⟨c.lastPoll, _, rfl⟩

variable [RenderHost η]

/-- Showing a view once more can only leave a failure behind. -/
theorem exists_presentAgain_eq (c : Controller π ε η) :
    ∃ host lastFailure status, c.presentAgain =
      { c with host, state := { c.state with lastFailure, status } } := by
  unfold presentAgain
  split
  · split
    · exact ⟨_, c.state.lastFailure, c.state.status, rfl⟩
    · exact ⟨_, _, _, rfl⟩
  · exact ⟨c.host, c.state.lastFailure, c.state.status, rfl⟩

/-- A click does nothing, or toggles a view and shows the tree once more. -/
theorem exists_click_eq (c : Controller π ε η) (widget : Nat) :
    (c.click widget).2 = c ∨
      ∃ view next number host lastFailure status,
        c.state.view = some view ∧ view.toggle? number = some next ∧
        (c.click widget).2 =
          { c with host, state := { c.state with view := some next, lastFailure, status } } := by
  unfold click
  split
  · next next clicked =>
      obtain ⟨view, shown, clicked⟩ := Option.bind_eq_some_iff.1 clicked
      obtain ⟨number, -, toggled⟩ := Option.bind_eq_some_iff.1 clicked
      obtain ⟨host, lastFailure, status, again⟩ := exists_presentAgain_eq
        (c.updateState fun s => { s with view := some next })
      exact .inr ⟨view, next, number, host, lastFailure, status, shown, toggled, again⟩
  · exact .inl rfl

/-- A change of theme does nothing, or renders the tree anew and shows it. -/
theorem exists_setTheme_eq (c : Controller π ε η) (name : String) :
    (c.setTheme name).2 = c ∨
      ∃ theme host lastFailure status,
        (c.setTheme name).2 =
          { c with
            host
            state := { c.state with
              theme
              highlight := theme.highlight
              view := c.state.view.map fun view => c.renderer view.tree
              lastFailure
              status } } := by
  unfold setTheme
  split
  · exact .inl rfl
  · next theme _ =>
      refine .inr ⟨theme, ?_⟩
      simp only
      cases shown : c.state.view with
      | some view =>
          obtain ⟨host, lastFailure, status, again⟩ := exists_presentAgain_eq
            ((c.updateState (·.setTheme theme)).updateState
              fun s => { s with view := some (c.renderer view.tree) })
          refine ⟨host, lastFailure, statusThemeChanged, ?_⟩
          rw [show (c.updateState (·.setTheme theme)).state.view = some view from shown]
          simp only
          rw [show (c.updateState (·.setTheme theme)).renderer = c.renderer from rfl, again]
          rfl
      | none =>
          refine ⟨c.host, c.state.lastFailure, statusThemeChanged, ?_⟩
          rw [show (c.updateState (·.setTheme theme)).state.view = none from shown]
          simp only [updateState, SessionState.setTheme, SessionState.setStatus, shown,
            Option.map_none]

end

variable {π ε η : Type} [SourceParser π] [EditorSurface ε] [RenderHost η]

/-- A tick that does not fire changes the timers; one that fires runs a cycle as well and
may record how that failed. -/
theorem exists_tick_eq (c : Controller π ε η) (now : Nat) :
    ∃ lastPoll debouncer, (c.tickTimers now).2 = { c with lastPoll, debouncer } ∧
      (((c.tickTimers now).1 = false ∧ (c.tick now).2 = { c with lastPoll, debouncer }) ∨
      ((c.tickTimers now).1 = true ∧ ∃ lastFailure status,
        (c.tick now).2 = (runCycle { c with lastPoll, debouncer }).2.updateState
          fun s => { s with lastFailure, status })) := by
  obtain ⟨lastPoll, debouncer, timers⟩ := exists_tickTimers_eq c now
  refine ⟨lastPoll, debouncer, timers, ?_⟩
  cases fired : (c.tickTimers now).1 with
  | false =>
      have whole : c.tickTimers now = (false, { c with lastPoll, debouncer }) :=
        Prod.ext fired timers
      exact .inl ⟨rfl, by simp only [tick, whole]⟩
  | true =>
      have whole : c.tickTimers now = (true, { c with lastPoll, debouncer }) :=
        Prod.ext fired timers
      refine .inr ⟨rfl, ?_⟩
      simp only [tick, whole]
      split
      · next ran => exact ⟨_, _, by rw [ran]; rfl⟩
      · next ran => exact ⟨_, _, by rw [ran]; rfl⟩

theorem change_runCycle (c : Controller π ε η) :
    Change c.renderer c.config.textUnit (c.answers .cycle) c.state c.runCycle.2.state := by
  have ended := c.cycle_runCycle
  generalize c.runCycle = result at ended ⊢
  cases ended with
  | skipped => exact .refl
  | failed => exact .refl
  | @rendered source raw tree _ _ waiting parsed normal =>
      have answered : (source, .ok raw) ∈ c.answers .cycle := by
        simp [answers, asks?, waiting, parsed]
      exact .commit source raw tree none statusRendered answered normal

theorem change_tick (c : Controller π ε η) (now : Nat) :
    Change c.renderer c.config.textUnit (c.answers (.tick now)) c.state (c.tick now).2.state := by
  obtain ⟨lastPoll, debouncer, -, ⟨-, idle⟩ | ⟨fired, lastFailure, status, ran⟩⟩ :=
    exists_tick_eq c now
  · rw [idle]
    exact .refl
  · have cycle := change_runCycle { c with lastPoll, debouncer }
    have same : c.answers (.tick now) = answers { c with lastPoll, debouncer } .cycle := by
      simp [answers, asks?, pending?, fired]
    rw [ran, same]
    exact cycle.andThen lastFailure status

/-- Every command changes what is shown in one of these ways. -/
theorem change_exec (c : Controller π ε η) (command : Command ε η) :
    Change c.renderer c.config.textUnit (c.answers command) c.state (c.exec command).state := by
  cases command with
  | edit change => exact .refl
  | attachHost host => exact .refl
  | tick now => exact change_tick c now
  | cycle => exact change_runCycle c
  | hover left entered =>
      rw [exec, hover]
      split <;> exact .refl
  | click widget =>
      rcases exists_click_eq c widget with
        same | ⟨view, next, number, host, lastFailure, status, shown, toggled, changed⟩
      · rw [exec, same]
        exact .refl
      · rw [exec, changed]
        exact .toggle view next number lastFailure status shown toggled
  | setTheme name =>
      rcases exists_setTheme_eq c name with same | ⟨theme, host, lastFailure, status, changed⟩
      · rw [exec, same]
        exact .refl
      · rw [exec, changed]
        exact .recolour theme lastFailure status
  | copy view =>
      rw [exec, copySubtree]
      split
      · exact .refl
      · exact .keep c.state.lastFailure statusCopied

/-! ## What a command leaves alone -/

theorem setup_runCycle (c : Controller π ε η) :
    c.runCycle.2.config = c.config ∧ c.runCycle.2.renderer = c.renderer ∧
      c.runCycle.2.parser = c.asked c.pending? := by
  have ended := c.cycle_runCycle
  generalize c.runCycle = result at ended ⊢
  cases ended with
  | skipped idle => exact ⟨rfl, rfl, by rw [idle]; rfl⟩
  | failed waiting => exact ⟨rfl, rfl, by rw [waiting]⟩
  | rendered waiting => exact ⟨rfl, rfl, by rw [waiting]⟩

theorem setup_tick (c : Controller π ε η) (now : Nat) :
    (c.tick now).2.config = c.config ∧ (c.tick now).2.renderer = c.renderer ∧
      (c.tick now).2.parser = c.asked (c.asks? (.tick now)) := by
  obtain ⟨lastPoll, debouncer, -, ⟨waits, idle⟩ | ⟨fired, lastFailure, status, ran⟩⟩ :=
    exists_tick_eq c now
  · rw [idle, asks?, if_neg (by simp [waits])]
    exact ⟨rfl, rfl, rfl⟩
  · rw [ran, asks?, if_pos fired]
    exact setup_runCycle { c with lastPoll, debouncer }

/-- A command that runs no cycle asks the parser for nothing and changes at most the editor,
the host and the state. -/
theorem exec_cases (c : Controller π ε η) (command : Command ε η) :
    (∃ now, command = .tick now) ∨ command = .cycle ∨
      (c.asks? command = none ∧
        ∃ editor host state, c.exec command = { c with editor, host, state }) := by
  cases command with
  | edit change => exact .inr (.inr ⟨rfl, change c.editor, c.host, c.state, rfl⟩)
  | attachHost host => exact .inr (.inr ⟨rfl, c.editor, some host, c.state, rfl⟩)
  | tick now => exact .inl ⟨now, rfl⟩
  | cycle => exact .inr (.inl rfl)
  | hover left entered =>
      refine .inr (.inr ⟨rfl, ?_⟩)
      rw [exec, hover]
      split
      · exact ⟨_, c.host, c.state, rfl⟩
      · exact ⟨c.editor, c.host, c.state, rfl⟩
  | click widget =>
      refine .inr (.inr ⟨rfl, c.editor, ?_⟩)
      rcases exists_click_eq c widget with same | ⟨_, _, _, host, _, _, -, -, changed⟩
      · exact ⟨c.host, c.state, same⟩
      · exact ⟨host, _, changed⟩
  | setTheme name =>
      refine .inr (.inr ⟨rfl, c.editor, ?_⟩)
      rcases exists_setTheme_eq c name with same | ⟨_, host, _, _, changed⟩
      · exact ⟨c.host, c.state, same⟩
      · exact ⟨host, _, changed⟩
  | copy view =>
      refine .inr (.inr ⟨rfl, c.editor, c.host, ?_⟩)
      rw [exec, copySubtree]
      split
      · exact ⟨c.state, rfl⟩
      · exact ⟨_, rfl⟩

/-- Configuration and renderer stay as they are, and the parser is only asked for the
source that a command gives to it. -/
theorem setup_exec (c : Controller π ε η) (command : Command ε η) :
    (c.exec command).config = c.config ∧ (c.exec command).renderer = c.renderer ∧
      (c.exec command).parser = c.asked (c.asks? command) := by
  rcases exec_cases c command with ⟨now, rfl⟩ | rfl | ⟨nothing, editor, host, state, changed⟩
  · exact setup_tick c now
  · exact setup_runCycle c
  · rw [changed, nothing]
    exact ⟨rfl, rfl, rfl⟩

/-! ## Runs -/

omit [SourceParser π] [EditorSurface ε] [RenderHost η] in
/-- A new controller has no host, nothing is pending, and nothing was attempted or shown. -/
theorem exists_new_eq {config : Config} {parser : π} {editor : ε} {start : Controller π ε η}
    (started : new config parser editor = .ok start) :
    ∃ theme, start =
      { config, parser, editor
        host := none
        renderer := TreeView.render
        debouncer := .idle config.debounce
        lastPoll := none
        lastSource := none
        state := (SessionState.ofTheme theme).setStatus statusReady } := by
  unfold new at started
  split at started
  · cases started
  · next theme _ => exact ⟨theme, (Except.ok.inj started).symm⟩

theorem run_cons (c : Controller π ε η) (command : Command ε η) (rest : List (Command ε η)) :
    c.run (command :: rest) = (c.exec command).run rest := rfl

theorem run_append (c : Controller π ε η) (front back : List (Command ε η)) :
    c.run (front ++ back) = (c.run front).run back :=
  List.foldl_append

theorem setup_run (c : Controller π ε η) (commands : List (Command ε η)) :
    (c.run commands).config = c.config ∧ (c.run commands).renderer = c.renderer := by
  induction commands generalizing c with
  | nil => exact ⟨rfl, rfl⟩
  | cons command rest ih =>
      obtain ⟨config, renderer, -⟩ := setup_exec c command
      rw [run_cons, ← config, ← renderer]
      exact ih (c.exec command)

end Controller

/-- A parser together with what it answered so far. -/
structure RecordedParser (π : Type) where
  parser : π
  answers : List Answer

instance {π : Type} [SourceParser π] : SourceParser (RecordedParser π) where
  parse p source :=
    let answer := SourceParser.parse p.parser source
    (answer.1, ⟨answer.2, p.answers ++ [(source, answer.1)]⟩)

/-- The answers of a run are the ones that a parser that keeps its answers has in the
end. -/
theorem Controller.answers_parser_run {π ε η : Type} [SourceParser π] [EditorSurface ε]
    [RenderHost η] (c : Controller (RecordedParser π) ε η) (commands : List (Command ε η)) :
    (c.run commands).parser.answers = c.parser.answers ++ c.answersAll commands := by
  induction commands generalizing c with
  | nil => exact (List.append_nil _).symm
  | cons command rest ih =>
      obtain ⟨-, -, parser⟩ := setup_exec c command
      have now : (c.exec command).parser.answers = c.parser.answers ++ c.answers command := by
        rw [parser, answers]
        cases c.asks? command with
        | none => exact (List.append_nil _).symm
        | some source => rfl
      rw [run_cons, ih, now, answersAll, List.append_assoc]

end TreeLens
