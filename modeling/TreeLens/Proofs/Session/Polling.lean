import TreeLens.Proofs.Session.Runs

/-!
# Polling

When a host ticks a controller at the pace of its polls, every tick from the second on is a
poll, and each poll that does not fire starts the waiting anew. So a poll fires exactly if
the one before it did not and the quiet time is over by then (`fires_after_poll`).

If the quiet time is not longer than the time between polls, one of the first three ticks
fires (`mem_firings`), and a text that waits is given to the parser. If it is longer, no tick
from the third on ever fires: the polls put the cycle off for ever (`not_mem_drop_firings`).
-/

namespace TreeLens

namespace Controller

/-! ## Timers -/

section

variable {π ε η : Type}

/-- Whether a tick would run a cycle. -/
def fires (c : Controller π ε η) (now : Nat) : Bool :=
  (c.tickTimers now).1

theorem fires_eq (c : Controller π ε η) (now : Nat) : c.fires now = c.debouncer.isDue now := by
  unfold fires tickTimers Debouncer.fire
  cases c.debouncer.isDue now <;> simp only <;> split <;> rfl

/-- The parts of a controller that only ticks change. -/
def timers (c : Controller π ε η) : Option Nat × Debouncer :=
  (c.lastPoll, c.debouncer)

/-- A poll that fires leaves nothing pending, and any other starts the waiting. -/
theorem timers_tickTimers_of_due {c : Controller π ε η} {now : Nat} (due : c.isPollDue now) :
    (c.tickTimers now).2.timers =
      (some now, if c.fires now then { c.debouncer with deadline := none }
        else c.debouncer.trigger now) := by
  rw [fires_eq]
  unfold tickTimers Debouncer.fire timers
  cases c.debouncer.isDue now <;> simp [due]

/-- The waiting time is the configured one, and the last poll was not after `now`. -/
structure Timed (now : Nat) (c : Controller π ε η) : Prop where
  wait_eq : c.debouncer.wait = c.config.debounce
  lastPoll_le : ∀ last ∈ c.lastPoll, last ≤ now

theorem Timed.mono {c : Controller π ε η} {now later : Nat} (timed : c.Timed now)
    (after : now ≤ later) : c.Timed later :=
  ⟨timed.wait_eq, fun last polled => Nat.le_trans (timed.lastPoll_le last polled) after⟩

/-- One interval after the last poll the next one is due. -/
theorem Timed.isPollDue {c : Controller π ε η} {now : Nat} (timed : c.Timed now) :
    c.isPollDue (now + c.config.pollInterval) = true := by
  unfold Controller.isPollDue
  cases polled : c.lastPoll with
  | none => rfl
  | some last =>
      have := timed.lastPoll_le last polled
      simp only [Option.all_some, decide_eq_true_eq]
      omega

theorem Timed.tickTimers {c : Controller π ε η} {now time : Nat} (timed : c.Timed now)
    (earlier : time ≤ now) : (c.tickTimers time).2.Timed now := by
  unfold Controller.tickTimers Debouncer.fire Debouncer.trigger
  by_cases due : c.isPollDue time
  · simp only [due, if_true]
    refine ⟨?_, by simpa using earlier⟩
    cases c.debouncer.isDue time <;> exact timed.wait_eq
  · simp only [due]
    refine ⟨?_, timed.lastPoll_le⟩
    cases c.debouncer.isDue time <;> exact timed.wait_eq

end

variable {π ε η : Type} [SourceParser π] [EditorSurface ε] [RenderHost η]

theorem timers_runCycle (c : Controller π ε η) : c.runCycle.2.timers = c.timers := by
  have ended := c.cycle_runCycle
  generalize c.runCycle = result at ended ⊢
  cases ended <;> rfl

/-- The cycle of a tick leaves the timers as they are. -/
theorem timers_tick (c : Controller π ε η) (now : Nat) :
    (c.tick now).2.timers = (c.tickTimers now).2.timers := by
  unfold tick
  split
  · next idle => rw [idle]
  · next ticked fired =>
      rw [fired]
      have cycle := timers_runCycle ticked
      split
      · next ran => rw [ran] at cycle; exact cycle
      · next ran => rw [ran] at cycle; exact cycle

/-- Only ticks change the timers. -/
theorem timers_exec (c : Controller π ε η) {command : Command ε η}
    (other : ∀ now, command ≠ .tick now) : (c.exec command).timers = c.timers := by
  rcases exec_cases c command with ⟨now, ticks⟩ | rfl | ⟨-, editor, host, state, changed⟩
  · exact absurd ticks (other now)
  · exact timers_runCycle c
  · rw [changed]
    rfl

omit [SourceParser π] [EditorSurface ε] [RenderHost η] in
theorem Timed.of_timers_eq {c d : Controller π ε η} {now : Nat} (timed : c.Timed now)
    (timers : d.timers = c.timers) (config : d.config = c.config) : d.Timed now := by
  obtain ⟨lastPoll, debouncer⟩ := Prod.mk.inj timers
  exact ⟨by rw [debouncer, config, timed.wait_eq], by rw [lastPoll]; exact timed.lastPoll_le⟩

theorem Timed.tick {c : Controller π ε η} {now time : Nat} (timed : c.Timed now)
    (earlier : time ≤ now) : (c.tick time).2.Timed now := by
  obtain ⟨lastPoll, debouncer, same⟩ := exists_tickTimers_eq c time
  refine (timed.tickTimers earlier).of_timers_eq (timers_tick c time) ?_
  rw [(setup_tick c time).1, same]

theorem Timed.run {c : Controller π ε η} {now : Nat} (timed : c.Timed now)
    {commands : List (Command ε η)} (past : ∀ time, .tick time ∈ commands → time ≤ now) :
    (c.run commands).Timed now := by
  induction commands generalizing c with
  | nil => exact timed
  | cons command rest ih =>
      rw [run_cons]
      refine ih ?_ fun time later => past time (List.mem_cons_of_mem _ later)
      by_cases ticks : ∃ time, command = .tick time
      · obtain ⟨time, rfl⟩ := ticks
        exact timed.tick (past time List.mem_cons_self)
      · exact timed.of_timers_eq (timers_exec c fun time same => ticks ⟨time, same⟩)
          (setup_exec c command).1

omit [SourceParser π] [EditorSurface ε] [RenderHost η] in
/-- In a new controller nothing is pending and no poll was made. -/
theorem timers_new {config : Config} {parser : π} {editor : ε} {start : Controller π ε η}
    (started : new config parser editor = .ok start) :
    start.config = config ∧ start.timers = (none, .idle config.debounce) := by
  obtain ⟨theme, rfl⟩ := exists_new_eq started
  exact ⟨rfl, rfl⟩

omit [SourceParser π] [EditorSurface ε] [RenderHost η] in
theorem Timed.of_new {config : Config} {parser : π} {editor : ε} {start : Controller π ε η}
    (started : new config parser editor = .ok start) (now : Nat) : start.Timed now := by
  obtain ⟨config, timers⟩ := timers_new started
  obtain ⟨lastPoll, debouncer⟩ := Prod.mk.inj timers
  exact ⟨by rw [debouncer, config]; rfl, by simp [lastPoll]⟩

/-! ## Ticking at the pace of polls -/

/-- Whether the tick after a poll, one interval later, fires. -/
theorem fires_after_poll {c : Controller π ε η} {now : Nat} (timed : c.Timed now)
    (due : c.isPollDue now) :
    (c.tick now).2.fires (now + c.config.pollInterval) =
      (!c.fires now && decide (addSize now c.config.debounce ≤ now + c.config.pollInterval)) := by
  have timers := timers_tick c now
  rw [timers_tickTimers_of_due due] at timers
  obtain ⟨-, debouncer⟩ := Prod.mk.inj timers
  rw [fires_eq _ (now + c.config.pollInterval), debouncer]
  cases c.fires now with
  | true => rfl
  | false => simp [Debouncer.isDue, Debouncer.trigger, timed.wait_eq]

/-- Which of the ticks at given times fire. -/
def firings (c : Controller π ε η) : List Nat → List Bool
  | [] => []
  | now :: rest => c.fires now :: (c.tick now).2.firings rest

/-- A quiet time that is longer than the interval is never over at the next poll. -/
theorem addSize_gt_poll {now wait interval : Nat} (longer : interval < wait)
    (clock : now + interval < maxSize) : ¬ addSize now wait ≤ now + interval := by
  unfold addSize
  omega

/-- Once a poll that is due does not fire, none of the following ones does, if the quiet time
is longer than the interval. -/
theorem not_mem_firings {c : Controller π ε η} {now : Nat} (timed : c.Timed now)
    (longer : c.config.pollInterval < c.config.debounce) (due : c.isPollDue now)
    (waits : c.fires now = false) (n : Nat)
    (clock : now + n * c.config.pollInterval < maxSize) :
    true ∉ c.firings (List.range' now (n + 1) c.config.pollInterval) := by
  induction n generalizing c now with
  | zero => simp [firings, waits]
  | succ n ih =>
      rw [List.range'_succ, firings, waits]
      have same : (c.tick now).2.config = c.config := (setup_tick c now).1
      have next := (timed.tick (Nat.le_refl now)).isPollDue
      have later := fires_after_poll timed due
      rw [Nat.succ_mul] at clock
      rw [waits, decide_eq_false (addSize_gt_poll longer (by omega))] at later
      have rest := ih ((timed.tick (Nat.le_refl now)).mono (Nat.le_add_right now _))
        (by rw [same]; exact longer) next (by rw [same]; exact later)
        (by rw [same]; omega)
      rw [same] at rest
      simpa using rest

/-- A tick that does not fire leaves a waiting text waiting. -/
theorem pending?_tick {c : Controller π ε η} {now : Nat} (waits : c.fires now = false) :
    (c.tick now).2.pending? = c.pending? := by
  obtain ⟨lastPoll, debouncer, -, ⟨-, idle⟩ | ⟨fired, -⟩⟩ := exists_tick_eq c now
  · rw [idle]
    rfl
  · rw [fires, fired] at waits
    cases waits

/-- If one of some ticks fires, a waiting text is given to the parser. -/
theorem exists_mem_answersAll_of_mem_firings {c : Controller π ε η} {source : String}
    {times : List Nat} (waiting : c.pending? = some source) (fired : true ∈ c.firings times) :
    ∃ answer, (source, answer) ∈ c.answersAll (times.map .tick) := by
  induction times generalizing c with
  | nil => cases fired
  | cons now rest ih =>
      rw [List.map_cons, answersAll]
      cases first : c.fires now with
      | true =>
          -- The first tick that fires runs the cycle of the text.
          have asked : c.asks? (.tick now) = some source := by
            rw [fires] at first
            rw [asks?, if_pos first, waiting]
          exact ⟨_, List.mem_append_left _ (by rw [answers, asked]; exact List.mem_cons_self)⟩
      | false =>
          rw [firings, first] at fired
          obtain ⟨answer, given⟩ := ih ((pending?_tick first).trans waiting) (by simpa using fired)
          exact ⟨answer, List.mem_append_right _ given⟩

/-- The second of two ticks at the pace of polls is a poll, whatever the first one is. -/
theorem fires_third {c : Controller π ε η} {now : Nat} (timed : c.Timed now) :
    let second := (c.tick now).2
    let later := now + c.config.pollInterval
    (second.tick later).2.fires (later + c.config.pollInterval) =
      (!second.fires later &&
        decide (addSize later c.config.debounce ≤ later + c.config.pollInterval)) := by
  intro second later
  have config : second.config = c.config := (setup_tick c now).1
  have ticked : second.Timed now := timed.tick (Nat.le_refl now)
  have third := fires_after_poll (ticked.mono (Nat.le_add_right now _)) ticked.isPollDue
  rwa [config] at third

/-- If the quiet time is not longer than the interval, one of three ticks fires: the second
is a poll, and if it does not fire, the third does. -/
theorem mem_firings {c : Controller π ε η} {now : Nat} (timed : c.Timed now)
    (shorter : c.config.debounce ≤ c.config.pollInterval) (n : Nat) :
    true ∈ c.firings (List.range' now (n + 3) c.config.pollInterval) := by
  have third := fires_third timed
  have passed : addSize (now + c.config.pollInterval) c.config.debounce ≤
      now + c.config.pollInterval + c.config.pollInterval := by
    unfold addSize
    omega
  simp only [decide_eq_true passed, Bool.and_true] at third
  simp only [List.range'_succ, firings, third, List.mem_cons]
  cases (c.tick now).2.fires (now + c.config.pollInterval) <;> simp

/-- If the quiet time is longer than the interval, only the first two ticks can fire. -/
theorem not_mem_drop_firings {c : Controller π ε η} {now : Nat} (timed : c.Timed now)
    (longer : c.config.pollInterval < c.config.debounce) (n : Nat)
    (clock : now + (n + 2) * c.config.pollInterval < maxSize) :
    true ∉ (c.firings (List.range' now (n + 3) c.config.pollInterval)).drop 2 := by
  rw [Nat.add_mul] at clock
  have third := fires_third timed
  have waiting : ¬ addSize (now + c.config.pollInterval) c.config.debounce ≤
      now + c.config.pollInterval + c.config.pollInterval := addSize_gt_poll longer (by omega)
  simp only [decide_eq_false waiting, Bool.and_false] at third
  simp only [List.range'_succ, firings, List.drop_succ_cons, List.drop_zero]
  -- After the second tick, which is a poll, the third is one that does not fire.
  have first := (timed.tick (Nat.le_refl now)).mono (Nat.le_add_right now c.config.pollInterval)
  have second := first.tick (Nat.le_refl _)
  have config : ((c.tick now).2.tick (now + c.config.pollInterval)).2.config = c.config :=
    (setup_tick _ _).1.trans (setup_tick c now).1
  have due := second.isPollDue
  have never := not_mem_firings (second.mono (Nat.le_add_right _ _)) (by rw [config]; exact longer)
    due (by rw [config]; exact third) n (by rw [config]; omega)
  rw [config, List.range'_succ, firings] at never
  exact never

/-- A poll interval that was read is not zero. -/
theorem pollInterval_pos {text : String} {config : Config} (read : Config.read text = .ok config) :
    0 < config.pollInterval := by
  unfold Config.read at read
  split at read
  · cases read
  · split at read
    · cases read
    · next positive =>
        cases read
        omega

/-- **Polling.** Ticks at the pace of polls, from a time not before any earlier tick on, for
longer than the quiet time and two intervals. If the quiet time is not longer than the
interval, one of the ticks fires, and so a text that waits is given to the parser. If it is
longer, none but the first two can fire, and none at all fires if the first is a poll that
does not. -/
theorem firings_polls {text : String} {config : Config} {parser : π} {editor : ε}
    {start : Controller π ε η} (read : Config.read text = .ok config)
    (started : new config parser editor = .ok start) {commands : List (Command ε η)} {now k : Nat}
    (past : ∀ time, .tick time ∈ commands → time ≤ now)
    (long : config.debounce + 2 * config.pollInterval ≤ k * config.pollInterval) :
    let c := start.run commands
    let times := List.range' now (k + 1) config.pollInterval
    (config.debounce ≤ config.pollInterval →
      true ∈ c.firings times ∧
        ∀ source, c.pending? = some source →
          ∃ answer, (source, answer) ∈ c.answersAll (times.map .tick)) ∧
    (config.pollInterval < config.debounce → now + k * config.pollInterval < maxSize →
      true ∉ (c.firings times).drop 2 ∧
        (c.isPollDue now → c.fires now = false → true ∉ c.firings times)) := by
  intro c times
  have same : c.config = config := (setup_run start commands).1.trans (timers_new started).1
  have timed : c.Timed now := (Timed.of_new started now).run past
  have two : 2 ≤ k := by
    have shorter : 2 * config.pollInterval ≤ k * config.pollInterval := by omega
    exact Nat.le_of_mul_le_mul_right shorter (pollInterval_pos read)
  obtain ⟨n, rfl⟩ := Nat.exists_eq_add_of_le' two
  refine ⟨?_, ?_⟩
  · intro shorter
    have fired : true ∈ c.firings times := by
      have := mem_firings timed (by rw [same]; exact shorter) n
      rwa [same] at this
    exact ⟨fired, fun source waiting => exists_mem_answersAll_of_mem_firings waiting fired⟩
  · intro longer clock
    rw [← same] at longer clock
    have late := not_mem_drop_firings timed longer n clock
    have never := fun due waits => not_mem_firings timed longer due waits (n + 2) clock
    rw [same] at late never
    exact ⟨late, never⟩

/-- Settings with equal times. The last poll was just before the ticks, so the first of them
is no poll. -/
theorem firings_polls_equal :
    let config : Config := { pollInterval := 40, debounce := 40 }
    let commands : List (Command MemoryEditor RecordingHost) :=
      [.attachHost (.fresh false []), .tick 0, .tick 40, .tick 90, .edit (·.setText "let")]
    ∃ start : Controller ReplayParser MemoryEditor RecordingHost,
      Config.read "\x7b\"poll_interval\":40,\"debounce\":40\x7d" = .ok config ∧
      new config ⟨.obj [("a", .null)]⟩ (.ofText "x") = .ok start ∧
      (start.run commands).isPollDue 100 = false ∧
      ∃ answer, ("let", answer) ∈
        (start.run commands).answersAll ((List.range' 100 4 40).map .tick) := by
  intro config commands
  have read : Config.read "\x7b\"poll_interval\":40,\"debounce\":40\x7d" = .ok config := rfl
  obtain ⟨start, started, early, waiting⟩ :
      ∃ start : Controller ReplayParser MemoryEditor RecordingHost,
        new config ⟨.obj [("a", .null)]⟩ (.ofText "x") = .ok start ∧
        (start.run commands).isPollDue 100 = false ∧
        (start.run commands).pending? = some "let" :=
    ⟨_, rfl, by decide +kernel, by decide +kernel⟩
  have past : ∀ time, Command.tick time ∈ commands → time ≤ 100 := by
    intro time member
    simp only [commands, List.mem_cons, List.not_mem_nil, or_false, Command.tick.injEq,
      reduceCtorEq, false_or] at member
    omega
  obtain ⟨-, given⟩ := (firings_polls (k := 3) read started past (by decide)).1 (by decide)
  exact ⟨start, read, started, early, given "let" waiting⟩

/-- Settings with a longer quiet time are accepted, but ticks at the pace of polls never give
the waiting text to the parser. -/
theorem firings_polls_starved :
    let config : Config := { pollInterval := 100, debounce := 150 }
    let times := List.range' 0 5 config.pollInterval
    config.debounce + 2 * config.pollInterval ≤ 4 * config.pollInterval ∧
    ∃ start : Controller ReplayParser MemoryEditor RecordingHost,
      Config.read "\x7b\"poll_interval\":100,\"debounce\":150\x7d" = .ok config ∧
      new config ⟨.obj []⟩ (.ofText "x") = .ok start ∧
      start.pending? = some "x" ∧
      start.firings times = [false, false, false, false, false] ∧
      start.answersAll (times.map .tick) = [] :=
  ⟨by decide, _, rfl, rfl, by decide +kernel, by decide +kernel, rfl⟩

end Controller

end TreeLens
