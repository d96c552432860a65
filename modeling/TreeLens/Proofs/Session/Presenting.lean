import TreeLens.Proofs.Session.Watching

/-!
# What the host shows

A host is given a view and a theme by cycles, clicks and changes of theme. As long as it
never fails, what it was given last is what the session shows: nothing that changes the view
or the theme goes by without a call (`Controller.getLast?_calls_run`).

The calls of a run are those that a `WatchedHost` writes down in it. Watching changes
nothing else (`Controller.run_mapHost`).
-/

namespace TreeLens

/-! ## Watching a host -/

/-- A call of a host: what it was given, and what it answered. -/
structure Presentation where
  view : TreeView
  theme : Theme
  answer : Except Failure Unit

/-- A host together with its calls so far. -/
structure WatchedHost (η : Type) where
  host : η
  calls : List Presentation

/-- A host that is watched from now on. -/
def WatchedHost.ofHost {η : Type} (host : η) : WatchedHost η :=
  ⟨host, []⟩

instance {η : Type} [RenderHost η] : RenderHost (WatchedHost η) where
  present h view theme :=
    let answer := RenderHost.present h.host view theme
    (answer.1, ⟨answer.2, h.calls ++ [⟨view, theme, answer.1⟩]⟩)

theorem WatchedHost.alike_host {η : Type} [RenderHost η] :
    RenderHost.Alike (WatchedHost.host : WatchedHost η → η) :=
  fun _ _ _ => rfl

namespace Controller

/-- The controller with a host of another kind. -/
def mapHost {π ε η θ : Type} (f : η → θ) (c : Controller π ε η) : Controller π ε θ :=
  c.mapParts id f

theorem run_mapHost {π ε η θ : Type} [SourceParser π] [EditorSurface ε] [RenderHost η]
    [RenderHost θ] {f : η → θ} (alike : RenderHost.Alike f) (c : Controller π ε η)
    (commands : List (Command ε η)) :
    (c.mapHost f).run (commands.map (Command.mapHost f)) = (c.run commands).mapHost f :=
  run_mapParts SourceParser.alike_id alike c commands

/-! ## The last call -/

variable {π ε η : Type} [SourceParser π] [EditorSurface ε] [RenderHost η]

/-- The host was given what is shown, unless it failed before. -/
def UpToDate (c : Controller π ε (WatchedHost η)) : Prop :=
  ∃ watched, c.host = some watched ∧
    ((∀ call ∈ watched.calls, call.answer = .ok ()) →
      ∀ view, c.state.view = some view →
        watched.calls.getLast? = some ⟨view, c.state.theme, .ok ()⟩)

omit [SourceParser π] [EditorSurface ε] [RenderHost η] in
/-- Failure, status and everything outside host and state do not matter. -/
theorem UpToDate.of_eq {c d : Controller π ε (WatchedHost η)} (upToDate : c.UpToDate)
    (host : d.host = c.host) (view : d.state.view = c.state.view)
    (theme : d.state.theme = c.state.theme) : d.UpToDate := by
  unfold UpToDate
  rw [host, view, theme]
  exact upToDate

omit [SourceParser π] [EditorSurface ε] [RenderHost η] in
/-- A host is up to date after a call with what is shown, and after a call that failed. -/
theorem UpToDate.of_call {c : Controller π ε (WatchedHost η)} {host : η}
    {calls : List Presentation} {call : Presentation}
    (called : c.host = some ⟨host, calls ++ [call]⟩)
    (current : call.answer = .ok () → c.state.view = some call.view ∧ c.state.theme = call.theme) :
    c.UpToDate := by
  refine ⟨_, called, ?_⟩
  intro calm view shown
  have fine : call.answer = .ok () := calm call (by simp)
  obtain ⟨same, theme⟩ := current fine
  obtain rfl := Option.some.inj (shown.symm.trans same)
  rw [List.getLast?_concat, theme, ← fine]

omit [SourceParser π] [EditorSurface ε] in
/-- Showing a view once more brings the host up to date. -/
theorem UpToDate.presentAgain {c : Controller π ε (WatchedHost η)} (hosted : c.host.isSome) :
    c.presentAgain.UpToDate := by
  obtain ⟨watched, same⟩ := Option.isSome_iff_exists.1 hosted
  unfold Controller.presentAgain
  rw [same]
  cases shown : c.state.view with
  | none => exact ⟨watched, same, by simp [shown]⟩
  | some view =>
      simp only [RenderHost.present]
      cases answer : (RenderHost.present watched.host view c.state.theme).1 with
      | ok => exact .of_call rfl fun _ => ⟨shown, rfl⟩
      | error failure => exact .of_call rfl fun fine => by cases fine

theorem UpToDate.runCycle {c : Controller π ε (WatchedHost η)} (upToDate : c.UpToDate) :
    c.runCycle.2.UpToDate := by
  have ended := c.cycle_runCycle
  generalize c.runCycle = result at ended ⊢
  cases ended with
  | skipped => exact upToDate
  | failed waiting fails =>
      cases fails with
      | unparsed => exact upToDate.of_eq rfl rfl rfl
      | abnormal => exact upToDate.of_eq rfl rfl rfl
      | homeless _ _ nowhere => exact upToDate.of_eq nowhere.symm rfl rfl
      | refused _ _ _ refuses =>
          obtain ⟨answer, rfl⟩ := Prod.mk.inj refuses
          exact .of_call rfl fun fine => by cases answer.symm.trans fine
  | rendered _ _ _ _ presents =>
      obtain ⟨answer, rfl⟩ := Prod.mk.inj presents
      exact .of_call rfl fun _ => ⟨rfl, rfl⟩

theorem UpToDate.tick {c : Controller π ε (WatchedHost η)} (upToDate : c.UpToDate) (now : Nat) :
    (c.tick now).2.UpToDate := by
  obtain ⟨lastPoll, debouncer, -, ⟨-, idle⟩ | ⟨-, lastFailure, status, ran⟩⟩ :=
    exists_tick_eq c now
  · rw [idle]
    exact upToDate.of_eq rfl rfl rfl
  · have ticked : UpToDate { c with lastPoll, debouncer } := upToDate.of_eq rfl rfl rfl
    rw [ran]
    exact ticked.runCycle.of_eq rfl rfl rfl

omit [SourceParser π] [EditorSurface ε] in
theorem UpToDate.click {c : Controller π ε (WatchedHost η)} (upToDate : c.UpToDate)
    (widget : Nat) : (c.click widget).2.UpToDate := by
  unfold Controller.click
  split
  · obtain ⟨watched, hosted, -⟩ := upToDate
    exact .presentAgain (Option.isSome_iff_exists.2 ⟨watched, hosted⟩)
  · exact upToDate

omit [SourceParser π] [EditorSurface ε] in
theorem UpToDate.setTheme {c : Controller π ε (WatchedHost η)} (upToDate : c.UpToDate)
    (name : String) : (c.setTheme name).2.UpToDate := by
  unfold Controller.setTheme
  split
  · exact upToDate
  · simp only
    obtain ⟨watched, hosted, -⟩ := upToDate
    refine UpToDate.of_eq ?_ rfl rfl rfl
    split
    · exact .presentAgain (Option.isSome_iff_exists.2 ⟨watched, hosted⟩)
    · next blank =>
        refine ⟨watched, hosted, ?_⟩
        intro _ view shown
        cases blank.symm.trans shown

/-- Every command but a change of the host keeps the host up to date. -/
theorem UpToDate.exec {c : Controller π ε (WatchedHost η)} (upToDate : c.UpToDate)
    {command : Command ε (WatchedHost η)} (kept : ∀ other, command ≠ .attachHost other) :
    (c.exec command).UpToDate := by
  cases command with
  | edit change => exact upToDate.of_eq rfl rfl rfl
  | attachHost host => exact absurd rfl (kept host)
  | tick now => exact upToDate.tick now
  | cycle => exact upToDate.runCycle
  | hover left entered =>
      rw [Controller.exec, hover]
      split <;> exact upToDate.of_eq rfl rfl rfl
  | click widget => exact upToDate.click widget
  | setTheme name => exact upToDate.setTheme name
  | copy view =>
      rw [Controller.exec, copySubtree]
      split <;> exact upToDate.of_eq rfl rfl rfl

theorem UpToDate.run {c : Controller π ε (WatchedHost η)} (upToDate : c.UpToDate)
    {commands : List (Command ε (WatchedHost η))}
    (kept : ∀ other, .attachHost other ∉ commands) : (c.run commands).UpToDate := by
  induction commands generalizing c with
  | nil => exact upToDate
  | cons command rest ih =>
      rw [run_cons]
      refine ih (upToDate.exec ?_) fun other later => kept other (List.mem_cons_of_mem _ later)
      rintro other rfl
      exact kept other List.mem_cons_self

/-! ## The calls of a run -/

/-- The calls in a run of the host that is there in the end. -/
def calls (c : Controller π ε η) (commands : List (Command ε η)) : List Presentation :=
  let watched := (c.mapHost WatchedHost.ofHost).run (commands.map (.mapHost WatchedHost.ofHost))
  (watched.host.map (·.calls)).getD []

/-- Watching does not change what the session shows. -/
theorem state_run_ofHost (c : Controller π ε η) (commands : List (Command ε η)) :
    ((c.mapHost WatchedHost.ofHost).run (commands.map (.mapHost WatchedHost.ofHost))).state =
      (c.run commands).state := by
  have unwatched : (c.mapHost WatchedHost.ofHost).mapHost WatchedHost.host = c := by
    cases c with
    | mk _ _ _ host => cases host <;> rfl
  have same : ∀ command : Command ε η,
      (command.mapHost WatchedHost.ofHost).mapHost WatchedHost.host = command := by
    intro command
    cases command <;> rfl
  have bare := run_mapHost WatchedHost.alike_host (c.mapHost WatchedHost.ofHost)
    (commands.map (.mapHost WatchedHost.ofHost))
  simp only [unwatched, List.map_map, Function.comp_def, same, List.map_id'] at bare
  rw [bare]
  rfl

/-- **The host shows what the session shows.** A host is attached to a controller that shows
nothing yet, as before its first cycle, and no other host after it. Whatever is then done, if
the host never fails, the last view and theme it was given are those of the session, whenever
it shows a view. -/
theorem getLast?_calls_run (c : Controller π ε η) (blank : c.state.view = none) (host : η)
    {commands : List (Command ε η)} (kept : ∀ other, .attachHost other ∉ commands)
    (calm : ∀ call ∈ (c.attachHost host).calls commands, call.answer = .ok ()) {view : TreeView}
    (shown : ((c.attachHost host).run commands).state.view = some view) :
    ((c.attachHost host).calls commands).getLast?.map (fun call => (call.view, call.theme)) =
      some (view, ((c.attachHost host).run commands).state.theme) := by
  have attached : UpToDate ((c.attachHost host).mapHost WatchedHost.ofHost) := by
    refine ⟨.ofHost host, rfl, ?_⟩
    intro _ other present
    cases blank.symm.trans present
  have alone : ∀ other, Command.attachHost other ∉
      commands.map (Command.mapHost WatchedHost.ofHost) := by
    intro other member
    obtain ⟨command, given, same⟩ := List.mem_map.1 member
    cases command with
    | attachHost early => exact kept early given
    | _ => cases same
  obtain ⟨watched, hosted, current⟩ := attached.run alone
  have logged : (c.attachHost host).calls commands = watched.calls := by
    simp [calls, hosted]
  rw [state_run_ofHost] at current
  rw [logged] at calm ⊢
  rw [current calm view shown]
  rfl

/-- A host that would fail at its fifth call is called four times: by a cycle, two clicks and a
change of theme. A hover, a copy, an unknown theme and a text that is too short for the spans
of its tree go by without a call. -/
theorem getLast?_calls_run_clicked :
    let raw : Json := .obj
      [("start", .ofNat 0), ("end", .ofNat 4), ("data", .obj [("a", .obj [("b", .null)])])]
    let commands : List (Command MemoryEditor RecordingHost) :=
      [.cycle, .click 4, .hover none (some 4), .setTheme "barf", .copy 1, .setTheme "none",
        .click 4, .edit (·.setText "q"), .cycle]
    ∃ start : Controller ReplayParser MemoryEditor RecordingHost,
      new {} ⟨raw⟩ (.ofText "läx") = .ok start ∧ start.state.view = none ∧
        let c := start.attachHost (.fresh true [4])
        (c.calls commands).map (·.answer) = [.ok (), .ok (), .ok (), .ok ()] ∧
        ∃ view, (c.run commands).state.view = some view ∧ view.isOpen? 0 = some false ∧
          (c.calls commands).getLast?.map (fun call => (call.view, call.theme)) =
            some (view, (c.run commands).state.theme) := by
  intro raw commands
  obtain ⟨start, started, blank, answers, closed⟩ :
      ∃ start : Controller ReplayParser MemoryEditor RecordingHost,
        new {} ⟨raw⟩ (.ofText "läx") = .ok start ∧ start.state.view = none ∧
        ((start.attachHost (.fresh true [4])).calls commands).map (·.answer) =
          [.ok (), .ok (), .ok (), .ok ()] ∧
        ((start.attachHost (.fresh true [4])).run commands).state.view.bind (·.isOpen? 0) =
          some false :=
    ⟨_, rfl, rfl, by decide +kernel, by decide +kernel⟩
  obtain ⟨view, shown, folded⟩ := Option.bind_eq_some_iff.1 closed
  have calm : ∀ call ∈ (start.attachHost (.fresh true [4])).calls commands,
      call.answer = .ok () := by
    intro call member
    have answered := List.mem_map_of_mem (f := (·.answer)) member
    rw [answers] at answered
    simpa using answered
  have kept : ∀ other, Command.attachHost other ∉ commands := by simp [commands]
  exact ⟨start, started, blank, answers, view, shown, folded,
    getLast?_calls_run start blank _ kept calm shown⟩

end Controller

end TreeLens
