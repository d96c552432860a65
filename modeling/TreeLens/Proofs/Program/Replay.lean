import TreeLens.Program.Run
import TreeLens.Proofs.Session.Attempts
import TreeLens.Proofs.Session.Polling
import TreeLens.Proofs.Source.Offsets

/-!
# The replay program, end to end

The program polls once at time zero and ticks once more when the quiet time is over. Whatever
the two configured times are, the first tick only starts the waiting and the second runs one
cycle (`Program.exists_tick_tick_eq`). So the outcome is decided by the texts alone
(`Program.replay_cases`): the tree is printed once and the program succeeds if the source is
not empty, the recorded tree reports no mistake and it has a normal form; in every other case
no tree is printed and the program fails.

The log goes to the standard output too. After the tree come the entry of the cycle and the one
of the status, and a cycle that fails leaves one entry and nothing else.
-/

namespace TreeLens

/-! ## Two ticks -/

namespace Controller

variable {π ε η : Type} [SourceParser π] [EditorSurface ε] [RenderHost η]

/-- A new controller does not fire at once, but does so when the quiet time is over. -/
theorem fires_of_timers {c : Controller π ε η} {wait : Nat}
    (fresh : c.timers = (none, .idle wait)) :
    c.fires 0 = false ∧ (c.tick 0).2.fires wait = true := by
  obtain ⟨lastPoll, debouncer⟩ := Prod.mk.inj fresh
  have early : c.fires 0 = false := by
    rw [fires_eq, debouncer]
    rfl
  have due : c.isPollDue 0 = true := by
    rw [isPollDue, lastPoll]
    rfl
  have timers := (timers_tick c 0).trans (timers_tickTimers_of_due due)
  rw [early, if_neg Bool.false_ne_true] at timers
  have waiting : (c.tick 0).2.debouncer = c.debouncer.trigger 0 := (Prod.mk.inj timers).2
  -- The deadline is the quiet time, or the end of the clock if that comes first.
  have passed : addSize 0 wait ≤ wait := by
    unfold addSize
    omega
  refine ⟨early, ?_⟩
  rw [fires_eq, waiting, debouncer]
  exact decide_eq_true passed

/-- What a tick makes of the cycle it runs: a failure is recorded. -/
def concluded : Except Failure Bool × Controller π ε η → Bool × Controller π ε η
  | (.ok rendered, after) => (rendered, after)
  | (.error failure, after) => (false, after.updateState (·.recordFailure failure))

/-- A tick that fires runs a cycle, and logs what the cycle does. -/
theorem exists_tick_eq_concluded {c : Controller π ε η} {now : Nat} (fired : c.fires now = true) :
    ∃ lastPoll debouncer, c.tick now = concluded (runCycle { c with lastPoll, debouncer }) ∧
      c.tickEvents now = cycleEvents { c with lastPoll, debouncer } := by
  obtain ⟨lastPoll, debouncer, timers⟩ := exists_tickTimers_eq c now
  have whole : c.tickTimers now = (true, { c with lastPoll, debouncer }) := Prod.ext fired timers
  refine ⟨lastPoll, debouncer, ?_, ?_⟩
  · simp only [tick, whole]
    cases runCycle { c with lastPoll, debouncer } with
    | mk result after => cases result <;> rfl
  · simp only [tickEvents, whole]

/-- A tick that does not fire changes the timers alone, and logs nothing. -/
theorem exists_tick_eq_of_not_fires {c : Controller π ε η} {now : Nat}
    (waits : c.fires now = false) :
    ∃ lastPoll debouncer, c.tick now = (false, { c with lastPoll, debouncer }) ∧
      c.tickEvents now = [] := by
  obtain ⟨lastPoll, debouncer, timers⟩ := exists_tickTimers_eq c now
  have whole : c.tickTimers now = (false, { c with lastPoll, debouncer }) := Prod.ext waits timers
  refine ⟨lastPoll, debouncer, ?_, ?_⟩
  · simp only [tick, whole]
  · simp only [tickEvents, whole]

end Controller

/-! ## Recorded trees -/

/-- An object that reports a mistake has an object as its member `error`. -/
def Json.ReportsFailure (result : Json) : Prop :=
  ∃ members report, result = .obj members ∧ members.lookup "error" = some (.obj report)

namespace Json

theorem reportedFailure?_of_accepted_eq_error {result : Json} {failure : ParseFailure}
    (refused : result.accepted = .error failure) : result.reportedFailure? = some failure := by
  unfold accepted at refused
  split at refused
  · next reported => rw [reported, Except.error.inj refused]
  · cases refused

/-- A result is taken as it is, unless it reports a mistake. -/
theorem reportedFailure?_of_accepted_eq_ok {result raw : Json} (taken : result.accepted = .ok raw) :
    result.reportedFailure? = none ∧ result = raw := by
  unfold accepted at taken
  split at taken
  · cases taken
  · next silent => exact ⟨silent, Except.ok.inj taken⟩

theorem reportedFailure?_eq_none_iff (result : Json) :
    result.reportedFailure? = none ↔ ¬ result.ReportsFailure := by
  unfold reportedFailure?
  constructor
  · rintro silent ⟨members, report, rfl, found⟩
    simp only [get?, found, reduceCtorEq] at silent
  · intro correct
    split
    · next report found =>
        cases result with
        | obj members => exact absurd ⟨members, report, rfl, found⟩ correct
        | null | bool | num | str | arr => cases found
    · rfl

end Json

namespace Program

/-- A source and its recorded tree that can be shown as this tree. -/
structure Shows (source : String) (recorded : Json) (tree : Node) : Prop where
  nonempty : source ≠ ""
  correct : ¬ recorded.ReportsFailure
  normal : normalize (some source.utf8ByteSize) recorded = .ok tree

/-- What is logged for a source and its recorded tree that cannot be shown. -/
inductive Refused (source : String) (recorded : Json) : List LogEvent → Prop
  | empty (empty : source = "") : Refused source recorded []
  | mistaken {failure : ParseFailure} (nonempty : source ≠ "")
      (reported : recorded.reportedFailure? = some failure) :
      Refused source recorded [.failed (.parse failure)]
  | abnormal {error : NormalizeError} (nonempty : source ≠ "")
      (correct : recorded.reportedFailure? = none)
      (abnormal : normalize (some source.utf8ByteSize) recorded = .error error) :
      Refused source recorded [.failed (.normalize error)]

theorem Refused.not_shows {source : String} {recorded : Json} {events : List LogEvent}
    (refused : Refused source recorded events) (tree : Node) : ¬ Shows source recorded tree := by
  intro shows
  cases refused with
  | empty empty => exact shows.nonempty empty
  | mistaken _ reported =>
      cases ((Json.reportedFailure?_eq_none_iff _).2 shows.correct).symm.trans reported
  | abnormal _ _ abnormal => cases shows.normal.symm.trans abnormal

/-- The only cycle of a replayed session prints the tree, or prints nothing. -/
theorem concluded_cases {c : Session} (fresh : c.lastSource = none) (hosted : c.host = some ⟨""⟩) :
    let ended := Controller.concluded c.runCycle
    (∃ tree, Shows c.editor.text c.parser.recorded tree ∧ ended.1 = true ∧
      ended.2.host = some
        ⟨themeLine c.state.theme ++ (c.renderer tree).themedText c.state.theme⟩ ∧
      ended.2.state.status = statusRendered ∧ c.cycleEvents = [.rendered tree.count]) ∨
    (Refused c.editor.text c.parser.recorded c.cycleEvents ∧ ended.1 = false ∧
      ended.2.host = some ⟨""⟩) := by
  intro ended
  have cycle := c.cycle_runCycle
  unfold ended Controller.cycleEvents
  generalize c.runCycle = result at cycle ⊢
  cases cycle with
  | skipped idle =>
      refine .inr ⟨.empty ?_, rfl, hosted⟩
      rcases c.pending?_eq_none_iff.1 idle with empty | same
      · exact empty
      · rw [fresh] at same
        cases same
  | failed waiting fails =>
      obtain ⟨rfl, nonempty, -⟩ := (c.pending?_eq_some_iff _).1 waiting
      cases fails with
      | unparsed parsed =>
          refine .inr ⟨.mistaken nonempty ?_, rfl, hosted⟩
          exact Json.reportedFailure?_of_accepted_eq_error parsed
      | abnormal parsed abnormal =>
          obtain ⟨correct, rfl⟩ := Json.reportedFailure?_of_accepted_eq_ok parsed
          exact .inr ⟨.abnormal nonempty correct abnormal, rfl, hosted⟩
      -- There is a host, and printing never fails.
      | homeless _ _ nowhere => cases hosted.symm.trans nowhere
      | refused _ _ _ refuses => cases refuses
  | @rendered _ _ tree _ _ waiting parsed normal shown presents =>
      obtain ⟨rfl, nonempty, -⟩ := (c.pending?_eq_some_iff _).1 waiting
      obtain rfl := Option.some.inj (hosted.symm.trans shown)
      have logged : c.tree? = some tree := by
        simp only [Controller.tree?, parsed, normal]
        rfl
      obtain ⟨correct, rfl⟩ := Json.reportedFailure?_of_accepted_eq_ok parsed
      obtain ⟨-, rfl⟩ := Prod.mk.inj presents
      have shows : Shows c.editor.text c.parser.recorded tree :=
        ⟨nonempty, (Json.reportedFailure?_eq_none_iff _).1 correct, normal⟩
      refine .inl ⟨tree, shows, rfl, ?_, rfl, ?_⟩
      · simp only [String.empty_append]
        rfl
      · simp only [logged]
        rfl

theorem page_of_host {session : Session} {text : String} (printed : session.host = some ⟨text⟩)
    (nonempty : text ≠ "") : page session = [.printed text] := by
  simp only [page, printed]
  rw [if_neg (by simpa using nonempty)]

theorem page_of_empty {session : Session} (printed : session.host = some ⟨""⟩) :
    page session = [] := by
  simp only [page, printed]
  rfl

theorem tick_eq_of_hosted (session : Session) (hosted : session.host = some ⟨""⟩) (now : Nat) :
    tick session now =
      (page (session.tick now).2 ++ (session.tickEvents now).map .logged, session.tick now) := by
  have same : session.attachHost ⟨""⟩ = session := by rw [Controller.attachHost, ← hosted]
  simp only [tick, same]

/-- The first tick of a replayed session writes nothing, and the second is one cycle. -/
theorem exists_tick_tick_eq {session : Session} {wait : Nat}
    (fresh : session.timers = (none, .idle wait)) (hosted : session.host = some ⟨""⟩) :
    ∃ lastPoll debouncer,
      let ready : Session := { session with lastPoll, debouncer }
      let ended := Controller.concluded ready.runCycle
      (tick session 0).1 = [] ∧
        tick (tick session 0).2.2 wait =
          (page ended.2 ++ ready.cycleEvents.map .logged, ended) := by
  obtain ⟨early, late⟩ := Controller.fires_of_timers fresh
  obtain ⟨polled, triggered, waited, unlogged⟩ := Controller.exists_tick_eq_of_not_fires early
  rw [waited] at late
  obtain ⟨lastPoll, debouncer, fired, logged⟩ := Controller.exists_tick_eq_concluded late
  have second := tick_eq_of_hosted
    { session with lastPoll := polled, debouncer := triggered } hosted wait
  rw [fired, logged] at second
  have blank : page { session with lastPoll := polled, debouncer := triggered } = [] :=
    page_of_empty hosted
  refine ⟨lastPoll, debouncer, ?_⟩
  rw [tick_eq_of_hosted session hosted, waited, unlogged]
  refine ⟨?_, second⟩
  simp only [blank, List.map_nil, List.append_nil]

/-- What a run over texts and settings leaves behind. -/
theorem replay_cases {config : Config} {theme : Theme}
    (known : Theme.byName? config.theme = some theme) (source : String) (recorded : Json) :
    (∃ tree, Shows source recorded tree ∧
      replay config source recorded =
        ⟨0, [.printed (themeLine theme ++ (TreeView.render tree).themedText theme),
          .logged (.rendered tree.count), .logged (.finished statusRendered)], ""⟩) ∨
    ∃ events message, Refused source recorded events ∧
      replay config source recorded = { failed message with stdout := events.map .logged } := by
  let start : Session :=
    { config
      parser := ⟨recorded⟩
      editor := .ofText source
      host := some ⟨""⟩
      renderer := TreeView.render
      debouncer := .idle config.debounce
      lastPoll := none
      lastSource := none
      state := (SessionState.ofTheme theme).setStatus statusReady }
  obtain ⟨lastPoll, debouncer, first, second⟩ :=
    exists_tick_tick_eq (show start.timers = (none, .idle config.debounce) from rfl) rfl
  have whole : replay config source recorded =
      let later := tick (tick start 0).2.2 config.debounce
      let status := later.2.2.state.status
      if later.2.1 then ⟨0, (tick start 0).1 ++ later.1 ++ [.logged (.finished status)], ""⟩
      else { failed status with stdout := (tick start 0).1 ++ later.1 } := by
    simp only [replay, Controller.new, known]
    rfl
  have outcome := concluded_cases (c := { start with lastPoll, debouncer }) rfl rfl
  rw [whole, first, second]
  generalize Controller.concluded (Controller.runCycle { start with lastPoll, debouncer }) = ended
    at outcome
  simp only at outcome
  rcases outcome with
    ⟨tree, shows, rendered, printed, status, logged⟩ | ⟨refused, rendered, printed⟩
  · refine .inl ⟨tree, shows, ?_⟩
    have page := page_of_host printed (by simp [themeLine])
    simp only [page, rendered, status, logged, if_true]
    rfl
  · refine .inr ⟨_, ended.2.state.status, refused, ?_⟩
    simp only [page_of_empty printed, rendered]
    rfl

/-! ## Files -/

/-- A run over files that are text is a run over their texts, if the recorded tree can be
read. -/
theorem run_eq {files : String → Option (List UInt8)} {sourceName treeName : String}
    {rest : List String} {config : Config} {source data : String}
    (configured : Program.config files rest.head? = .ok config)
    (sourceFile : files sourceName = some (encodedBytes source))
    (treeFile : files treeName = some (encodedBytes data)) :
    run (sourceName :: treeName :: rest) files =
      match Json.read? data with
      | some recorded => replay config source recorded
      | none => failed ("读取 AST 失败: " ++ treeName) := by
  have text : readText (files sourceName) = .ok source := by
    simp only [readText, sourceFile, fromUTF8?_encodedBytes]
  simp only [run, configured, text, readData, treeFile, fromUTF8?_encodedBytes, Option.bind_some]
  cases Json.read? data with
  | none => rfl
  | some recorded => rfl

/-- The settings that a run has: those of its third file, if there is one, or the usual
ones. -/
def Configured (files : String → Option (List UInt8)) (name : Option String) (config : Config) :
    Prop :=
  match name with
  | none => config = {}
  | some name => ∃ text, files name = some (encodedBytes text) ∧ Config.read text = .ok config

theorem Configured.config_eq {files : String → Option (List UInt8)} {name : Option String}
    {config : Config} (configured : Configured files name config) :
    Program.config files name = .ok config := by
  cases name with
  | none => exact congrArg Except.ok (Eq.symm configured)
  | some name =>
      obtain ⟨text, file, read⟩ := configured
      simp only [Program.config, readConfig, readText, file, fromUTF8?_encodedBytes]
      change (Config.read text).mapError _ = _
      rw [read]
      rfl

/-- **The replay program.** A run over a source that is text, a recorded tree in a text file and
settings that are accepted, with any times and a theme that exists.

If the recorded tree can be read, the run succeeds exactly if the source is not empty, the
recorded tree is no object whose member `error` is an object, and it has a normal form for a
source of this size. The line of the theme and after it the tree are then printed, once, and
two entries of the log follow. Otherwise it fails with code 1 and prints nothing; what the
standard output holds is the entry of the failure, if the source is not empty.

If the recorded tree cannot be read, the run fails with code 1 and an empty output. What cannot
be read is every text that is not strict JSON, and three kinds of text that are: those with
arrays and objects nested more than 127 deep, which the reader guards against, those with a
number beyond the largest double, and those with an escape of half a surrogate pair, for which
it has no value. -/
theorem outcome_run {files : String → Option (List UInt8)} {sourceName treeName : String}
    {rest : List String} {config : Config} {theme : Theme} {source data : String}
    (configured : Configured files rest.head? config)
    (known : Theme.byName? config.theme = some theme)
    (sourceFile : files sourceName = some (encodedBytes source))
    (treeFile : files treeName = some (encodedBytes data)) :
    let outcome := run (sourceName :: treeName :: rest) files
    (∀ recorded, Json.read? data = some recorded →
      (outcome.code = 0 ↔
        source ≠ "" ∧
          (¬ ∃ members report, recorded = .obj members ∧
            members.lookup "error" = some (.obj report)) ∧
          ∃ tree, normalize (some source.utf8ByteSize) recorded = .ok tree) ∧
      (outcome.code = 0 → ∀ tree, normalize (some source.utf8ByteSize) recorded = .ok tree →
        outcome.stdout =
          [.printed (themeLine theme ++ (TreeView.render tree).themedText theme),
            .logged (.rendered tree.count), .logged (.finished statusRendered)]) ∧
      (outcome.code ≠ 0 → outcome.code = 1 ∧
        ((source = "" ∧ outcome.stdout = []) ∨
        (source ≠ "" ∧ ∃ failure, recorded.reportedFailure? = some failure ∧
          outcome.stdout = [.logged (.failed (.parse failure))]) ∨
        (source ≠ "" ∧ recorded.reportedFailure? = none ∧ ∃ error,
          normalize (some source.utf8ByteSize) recorded = .error error ∧
          outcome.stdout = [.logged (.failed (.normalize error))])))) ∧
      (Json.read? data = none → outcome.code = 1 ∧ outcome.stdout = []) := by
  intro outcome
  have whole : outcome = _ := run_eq configured.config_eq sourceFile treeFile
  refine ⟨?_, ?_⟩
  · intro recorded isData
    have same : outcome = replay config source recorded := by rw [whole, isData]
    rw [same]
    rcases replay_cases known source recorded with
      ⟨tree, shows, written⟩ | ⟨events, message, refused, written⟩
    · rw [written]
      refine ⟨⟨fun _ => ⟨shows.nonempty, shows.correct, tree, shows.normal⟩, fun _ => rfl⟩, ?_,
        fun failed => absurd rfl failed⟩
      intro _ other normal
      obtain rfl := Except.ok.inj (shows.normal.symm.trans normal)
      rfl
    · rw [written]
      refine ⟨⟨?_, ?_⟩, ?_, ?_⟩
      · intro succeeded
        cases succeeded
      · rintro ⟨nonempty, correct, tree, normal⟩
        exact absurd ⟨nonempty, correct, normal⟩ (refused.not_shows tree)
      · intro succeeded
        cases succeeded
      · intro _
        refine ⟨rfl, ?_⟩
        cases refused with
        | empty empty => exact .inl ⟨empty, rfl⟩
        | mistaken nonempty reported => exact .inr (.inl ⟨nonempty, _, reported, rfl⟩)
        | abnormal nonempty correct abnormal =>
            exact .inr (.inr ⟨nonempty, correct, _, abnormal, rfl⟩)
  · intro noData
    rw [whole, noData]
    exact ⟨rfl, rfl⟩

/-- With a quiet time that lasts until the end of the clock the tree is still printed, once; a
source that the tree does not fit prints nothing and leaves an entry. -/
theorem outcome_run_longest :
    let data := "\x7b\"start\":0,\"end\":4,\"data\":\x7b\"name\":\"x\",\"next\":null\x7d\x7d"
    let settings := "\x7b\"debounce\":18446744073709551615,\"theme\":\"solarized-light\"\x7d"
    let files : String → Option (List UInt8) := fun name =>
      ([("long", "läx"), ("short", "x"), ("tree", data), ("settings", settings)].lookup name).map
        encodedBytes
    ∃ theme tree error, Theme.byName? "solarized-light" = some theme ∧
      (run ["long", "tree", "settings"] files).code = 0 ∧
      (run ["long", "tree", "settings"] files).stdout =
        [.printed (themeLine theme ++ (TreeView.render tree).themedText theme),
          .logged (.rendered tree.count), .logged (.finished statusRendered)] ∧
      (run ["short", "tree"] files).code = 1 ∧
      (run ["short", "tree"] files).stdout = [.logged (.failed (.normalize error))] := by
  intro data settings files
  obtain ⟨recorded, isData⟩ : ∃ recorded, Json.read? data = some recorded :=
    Option.isSome_iff_exists.1 (by decide +kernel)
  have treeFile : files "tree" = some (encodedBytes data) := rfl
  let config : Config := { debounce := 18446744073709551615, theme := "solarized-light" }
  have configured : Configured files ["settings"].head? config :=
    ⟨settings, rfl, by decide +kernel⟩
  obtain ⟨theme, known⟩ : ∃ theme, Theme.byName? config.theme = some theme := ⟨_, rfl⟩
  have long : files "long" = some (encodedBytes "läx") := rfl
  have done : (run ["long", "tree", "settings"] files).code = 0 := by decide +kernel
  obtain ⟨succeeds, prints, -⟩ := (outcome_run configured known long treeFile).1 recorded isData
  obtain ⟨-, correct, tree, normal⟩ := succeeds.1 done
  have short : files "short" = some (encodedBytes "x") := rfl
  have usual : Configured files ([] : List String).head? {} := rfl
  have undone : (run ["short", "tree"] files).code ≠ 0 := by decide +kernel
  obtain ⟨-, -, fails⟩ := (outcome_run usual rfl short treeFile).1 recorded isData
  obtain ⟨code, ⟨empty, -⟩ | ⟨-, failure, reported, -⟩ | ⟨-, -, error, -, logged⟩⟩ := fails undone
  · exact absurd empty (by decide)
  · cases ((Json.reportedFailure?_eq_none_iff _).2 correct).symm.trans reported
  · exact ⟨theme, tree, error, known, done, prints done tree normal, code, logged⟩

end Program

/-! ## Trees that cannot be read -/

/-- An empty array inside so many others. -/
def Json.nested : Nat → Json
  | 0 => .arr []
  | depth + 1 => .arr [nested depth]

namespace Json

theorem toList_compactOnto_nested (depth : Nat) (out : String) :
    ((nested depth).compactOnto out).toList =
      out.toList ++ List.replicate (depth + 1) '[' ++ List.replicate (depth + 1) ']' := by
  induction depth generalizing out with
  | zero => simp [nested, compactOnto]
  | succ depth ih =>
      rw [nested, compactOnto, compactItems, String.toList_append, ih, String.toList_append,
        List.replicate_succ (n := depth + 1), List.replicate_succ' (n := depth + 1)]
      simp

/-- The reader takes no more opening brackets than it may keep open. -/
theorem Reader.run_openings {frames : List Frame} {expect : Expect}
    (wants : Reader.wantsValue ⟨frames, expect, .free⟩ = true) (fits : frames.length ≤ maxDepth)
    {count : Nat} (deep : maxDepth < frames.length + count) (rest : List Char) :
    Reader.run ⟨frames, expect, .free⟩ (List.replicate count '[' ++ rest) = none := by
  induction count generalizing frames expect with
  | zero => omega
  | succ count ih =>
      rw [List.replicate_succ, List.cons_append, run]
      change (openFrame ⟨frames, expect, .free⟩ (.array []) .firstItem).bind _ = none
      unfold openFrame
      split
      · next opens =>
          have room : frames.length < maxDepth := by simpa [wants] using opens
          exact ih rfl room (by simp only [List.length_cons]; omega)
      · rfl

theorem read?_compact_nested {depth : Nat} (deep : maxDepth ≤ depth) :
    read? (nested depth).compact = none := by
  have unread (rest : List Char) :
      Reader.start.run (List.replicate (depth + 1) '[' ++ rest) = none :=
    Reader.run_openings rfl (Nat.zero_le _) (by simp only [List.length_nil]; omega) rest
  rw [read?, readRaw?, compact, toList_compactOnto_nested, String.toList_empty, List.nil_append,
    unread]
  rfl

theorem exists_visit_nested (limit : Option Nat) (location : Location) (depth : Nat) :
    ∃ tree, Normal.visit limit location (nested depth) = .ok tree := by
  induction depth generalizing location with
  | zero => exact ⟨.array [], rfl⟩
  | succ depth ih =>
      obtain ⟨tree, inner⟩ := ih (location ++ [.index 0])
      refine ⟨.array [tree], ?_⟩
      rw [nested, Normal.visit, Normal.visitItems, inner]
      rfl

end Json

namespace Program

/-- An empty array inside 127 others has a normal form and reports no mistake, but cannot be
read. And where a tree is printed, it is not all that the standard output holds. -/
theorem outcome_run_nested :
    let files : String → Option (List UInt8) := fun name =>
      ([("source", "x"), ("nested", (Json.nested 127).compact), ("flat", "[]")].lookup name).map
        encodedBytes
    (∃ tree, normalize (some 1) (.nested 127) = .ok tree) ∧
      (¬ ∃ members report, Json.nested 127 = .obj members ∧
        members.lookup "error" = some (.obj report)) ∧
      (run ["source", "nested"] files).code = 1 ∧
      normalize (some 1) (.arr []) = .ok (.array []) ∧
      (run ["source", "flat"] files).code = 0 ∧
      (run ["source", "flat"] files).stdout ≠
        [.printed (themeLine .tokyoNight ++
          (TreeView.render (.array [])).themedText .tokyoNight)] := by
  intro files
  refine ⟨Json.exists_visit_nested _ _ _, ?_, ?_, rfl, by decide +kernel, by decide +kernel⟩
  · rintro ⟨members, report, same, -⟩
    cases same
  · have source : files "source" = some (encodedBytes "x") := rfl
    have nested : files "nested" = some (encodedBytes (Json.nested 127).compact) := rfl
    have configured : Program.config files ([] : List String).head? = .ok {} := rfl
    have unread : Json.read? (Json.nested 127).compact = none :=
      Json.read?_compact_nested (Nat.le_refl _)
    rw [run_eq configured source nested, unread]
    rfl

end Program

end TreeLens
