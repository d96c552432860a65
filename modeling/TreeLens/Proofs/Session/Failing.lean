import TreeLens.Proofs.Session.Runs

/-!
# Failures

A request that fails leaves what is shown as it was. A cycle can stop in the parser, in the
normal form, for want of a host and in the host (`runCycle_eq_error_iff`), and by then it may
have built a new tree and a new view; none of that is seen (`unchanged_of_runCycle`). A tick
adds the message of the failure, and nothing else (`tick_of_runCycle`).
-/

namespace TreeLens

namespace Controller

section

variable {π ε η : Type} [SourceParser π] [EditorSurface ε] [RenderHost η]

omit [EditorSurface ε] in
/-- A source fails for one cause at most. -/
theorem Fails.unique {c : Controller π ε η} {source : String} {failure other : Failure}
    {host after : Option η} (one : c.Fails source failure host)
    (two : c.Fails source other after) : failure = other := by
  cases one <;> cases two <;> simp_all

omit [EditorSurface ε] in
/-- A source that the host takes does not fail. -/
theorem not_fails_of_present {c : Controller π ε η} {source : String} {raw : Json} {tree : Node}
    {host after : η} (parsed : (SourceParser.parse c.parser source).1 = .ok raw)
    (normal : normalize (some source.utf8ByteSize) raw = .ok tree) (hosted : c.host = some host)
    (presents : RenderHost.present host (c.renderer tree) c.state.theme = (.ok (), after))
    {failure : Failure} {left : Option η} : ¬ c.Fails source failure left := by
  intro fails
  cases fails <;> simp_all

/-- A cycle fails exactly if a source waits for which one of the four causes holds. -/
theorem runCycle_eq_error_iff (c : Controller π ε η) (failure : Failure) :
    c.runCycle.1 = .error failure ↔
      ∃ source host, c.pending? = some source ∧ c.Fails source failure host := by
  have ended := c.cycle_runCycle
  generalize c.runCycle = result at ended ⊢
  constructor
  · intro fails
    cases ended with
    | skipped => cases fails
    | failed waiting cause =>
        cases fails
        exact ⟨_, _, waiting, cause⟩
    | rendered => cases fails
  · rintro ⟨source, host, waiting, cause⟩
    cases ended with
    | skipped idle =>
        rw [waiting] at idle
        cases idle
    | failed other before =>
        obtain rfl := Option.some.inj (waiting.symm.trans other)
        rw [before.unique cause]
    | rendered other parsed normal hosted presents =>
        obtain rfl := Option.some.inj (waiting.symm.trans other)
        exact absurd cause (not_fails_of_present parsed normal hosted presents)

/-- A cycle that fails leaves the state and the editor as they were. -/
theorem unchanged_of_runCycle {c : Controller π ε η} {failure : Failure}
    (fails : c.runCycle.1 = .error failure) :
    c.runCycle.2.state = c.state ∧ c.runCycle.2.editor = c.editor := by
  have ended := c.cycle_runCycle
  generalize c.runCycle = result at fails ended ⊢
  cases ended with
  | skipped => cases fails
  | failed => exact ⟨rfl, rfl⟩
  | rendered => cases fails

/-- A tick whose cycle fails renders nothing and records the failure. -/
theorem tick_of_runCycle {c ticked : Controller π ε η} {now : Nat} {failure : Failure}
    (timers : c.tickTimers now = (true, ticked)) (fails : ticked.runCycle.1 = .error failure) :
    (c.tick now).1 = false ∧ (c.tick now).2.state = c.state.recordFailure failure ∧
      (c.tick now).2.editor = c.editor := by
  obtain ⟨lastPoll, debouncer, same⟩ := exists_tickTimers_eq c now
  rw [timers] at same
  obtain rfl : ticked = { c with lastPoll, debouncer } := same
  obtain ⟨state, editor⟩ := unchanged_of_runCycle fails
  cases ran : runCycle { c with lastPoll, debouncer } with
  | mk result after =>
      rw [ran] at fails state editor
      obtain rfl : result = .error failure := fails
      have whole : c.tick now = (false, after.updateState (·.recordFailure failure)) := by
        simp only [tick, timers, ran]
      rw [whole]
      exact ⟨rfl, congrArg (·.recordFailure failure) state, editor⟩

end

variable {π ε η : Type}

/-- A view that does not exist cannot be copied, and neither can any before the first one. -/
theorem copySubtree_of_size_le {c : Controller π ε η} {view : Nat}
    (missing : ∀ shown, c.state.view = some shown → shown.views.size ≤ view) :
    c.copySubtree view = (.error (.state (.noSuchView view)), c) := by
  have nothing : c.state.view.bind (·.node? view) = none := by
    cases shown : c.state.view with
    | none => rfl
    | some tree =>
        show (tree.views[view]?.bind fun v => tree.tree.resolve? v.source) = none
        rw [Array.getElem?_eq_none (missing tree shown)]
        rfl
  simp only [copySubtree, nothing]

/-- **Failures change nothing that is shown.** Whatever the parser and the host do: a cycle
fails exactly if a source waits that has one of the four causes to fail, and then state and
editor are as before. A tick whose cycle fails changes the last failure, which is then the
message, and the status, which shows it. A theme that does not exist and a copy of a view that
does not exist are refused and change nothing at all. -/
theorem unchanged_of_failure [SourceParser π] [EditorSurface ε] [RenderHost η]
    (c : Controller π ε η) :
    (∀ failure, c.runCycle.1 = .error failure ↔
      ∃ source host, c.pending? = some source ∧ c.Fails source failure host) ∧
    (∀ failure, c.runCycle.1 = .error failure →
      c.runCycle.2.state = c.state ∧ c.runCycle.2.editor = c.editor) ∧
    (∀ now ticked failure, c.tickTimers now = (true, ticked) →
      ticked.runCycle.1 = .error failure →
        (c.tick now).1 = false ∧
        (c.tick now).2.state =
          { c.state with
            status := statusErrorMark ++ failure.message
            lastFailure := some failure.message } ∧
        (c.tick now).2.editor = c.editor) ∧
    (∀ name, Theme.byName? name = none →
      c.setTheme name = (.error (.state (.unknownTheme name)), c)) ∧
    (∀ view, (∀ shown, c.state.view = some shown → shown.views.size ≤ view) →
      c.copySubtree view = (.error (.state (.noSuchView view)), c)) := by
  refine ⟨c.runCycle_eq_error_iff, fun failure => unchanged_of_runCycle,
    fun now ticked failure => tick_of_runCycle, ?_, fun view => copySubtree_of_size_le⟩
  intro name unknown
  simp only [setTheme, unknown]

/-- A tree is shown with a closed view, and the parser finds a mistake in the next text. -/
theorem unchanged_of_failure_badSyntax :
    let raw : Json := .obj [("a", .obj [("b", .null)])]
    let mistake : ParseFailure := .badSyntax "unexpected token" 1 9
    let commands : List (Command MemoryEditor RecordingHost) :=
      [.attachHost (.fresh false []), .cycle, .click 4, .edit (·.setText "q"), .tick 0]
    ∃ start : Controller ScriptedParser MemoryEditor RecordingHost,
      new {} ⟨[.ok raw, .error mistake]⟩ (.ofText "läx") = .ok start ∧
        let c := start.run commands
        c.state.source? = some "läx" ∧ c.state.view.bind (·.isOpen? 0) = some false ∧
        c.runCycle.1 = .error (.parse mistake) ∧
        c.runCycle.2.state = c.state ∧ c.runCycle.2.editor = c.editor ∧
        (c.tickTimers 60).1 = true ∧
        (c.tick 60).2.state =
          { c.state with
            status := "错误: 解析失败: 语法错误 1:9: unexpected token"
            lastFailure := some "解析失败: 语法错误 1:9: unexpected token" } ∧
        (c.setTheme "none").2 = c ∧ (c.copySubtree 99).2 = c := by
  intro raw mistake commands
  obtain ⟨start, started, source, closed, fails, fired, failsLate, views⟩ :
      ∃ start : Controller ScriptedParser MemoryEditor RecordingHost,
        new {} ⟨[.ok raw, .error mistake]⟩ (.ofText "läx") = .ok start ∧
        (start.run commands).state.source? = some "läx" ∧
        (start.run commands).state.view.bind (·.isOpen? 0) = some false ∧
        (start.run commands).runCycle.1 = .error (.parse mistake) ∧
        ((start.run commands).tickTimers 60).1 = true ∧
        ((start.run commands).tickTimers 60).2.runCycle.1 = .error (.parse mistake) ∧
        (start.run commands).state.view.all fun shown => shown.views.size ≤ 99 :=
    ⟨_, rfl, by decide +kernel, by decide +kernel, by decide +kernel, by decide +kernel,
      by decide +kernel, by decide +kernel⟩
  obtain ⟨-, cycles, ticks, themes, copies⟩ := unchanged_of_failure (start.run commands)
  obtain ⟨state, editor⟩ := cycles _ fails
  obtain ⟨-, recorded, -⟩ := ticks 60 _ _ (Prod.ext fired rfl) failsLate
  have missing : ∀ shown, (start.run commands).state.view = some shown →
      shown.views.size ≤ 99 := by
    intro shown same
    rw [same] at views
    exact of_decide_eq_true views
  refine ⟨start, started, source, closed, fails, state, editor, fired, recorded, ?_, ?_⟩
  · rw [themes "none" (by decide)]
  · rw [copies 99 missing]

end Controller

end TreeLens
