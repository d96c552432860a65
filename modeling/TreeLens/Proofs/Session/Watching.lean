import TreeLens.Proofs.Session.Runs

/-!
# Sessions with other parsers and hosts

A controller sees of its parser and its host only what they answer. If these are put in the
place of others that answer alike, every run stays the same but for them
(`Controller.run_mapParts`). In particular a parser or a host may keep a record of its calls
without being noticed, so what it was asked in a run can be read off such a record.
-/

namespace TreeLens

/-- Parsers of two kinds that give the same answers. -/
def SourceParser.Alike {π ρ : Type} [SourceParser π] [SourceParser ρ] (f : π → ρ) : Prop :=
  ∀ parser source, SourceParser.parse (f parser) source =
    ((SourceParser.parse parser source).1, f (SourceParser.parse parser source).2)

/-- Hosts of two kinds that give the same answers. -/
def RenderHost.Alike {η θ : Type} [RenderHost η] [RenderHost θ] (f : η → θ) : Prop :=
  ∀ host view theme, RenderHost.present (f host) view theme =
    ((RenderHost.present host view theme).1, f (RenderHost.present host view theme).2)

theorem SourceParser.alike_id {π : Type} [SourceParser π] : SourceParser.Alike (id : π → π) :=
  fun _ _ => rfl

theorem RenderHost.alike_id {η : Type} [RenderHost η] : RenderHost.Alike (id : η → η) :=
  fun _ _ _ => rfl

/-- The command for hosts of another kind. -/
def Command.mapHost {ε η θ : Type} (f : η → θ) : Command ε η → Command ε θ
  | .edit change => .edit change
  | .attachHost host => .attachHost (f host)
  | .tick now => .tick now
  | .cycle => .cycle
  | .hover left entered => .hover left entered
  | .click widget => .click widget
  | .setTheme name => .setTheme name
  | .copy view => .copy view

theorem Command.mapHost_id {ε η : Type} (command : Command ε η) : command.mapHost id = command := by
  cases command <;> rfl

namespace Controller

section

variable {π ρ ε η θ : Type}

/-- The controller with a parser and a host of other kinds. -/
def mapParts (f : π → ρ) (g : η → θ) (c : Controller π ε η) : Controller ρ ε θ where
  config := c.config
  parser := f c.parser
  editor := c.editor
  host := c.host.map g
  renderer := c.renderer
  debouncer := c.debouncer
  lastPoll := c.lastPoll
  lastSource := c.lastSource
  state := c.state

theorem tickTimers_mapParts (f : π → ρ) (g : η → θ) (c : Controller π ε η) (now : Nat) :
    (c.mapParts f g).tickTimers now =
      ((c.tickTimers now).1, (c.tickTimers now).2.mapParts f g) := by
  unfold tickTimers
  simp only
  rw [show (c.mapParts f g).isPollDue now = c.isPollDue now from rfl]
  split <;> rfl

variable [RenderHost η] [RenderHost θ] {g : η → θ}

theorem present_mapParts (f : π → ρ) (alike : RenderHost.Alike g) (c : Controller π ε η)
    (source : String) (view : TreeView) :
    (c.mapParts f g).present source view =
      ((c.present source view).1, (c.present source view).2.mapParts f g) := by
  unfold present
  cases hosted : c.host with
  | none => simp only [mapParts, hosted, Option.map_none]
  | some host =>
      simp only [mapParts, hosted, Option.map_some, alike host view c.state.theme]
      cases RenderHost.present host view c.state.theme with
      | mk answer after => cases answer <;> rfl

theorem presentAgain_mapParts (f : π → ρ) (alike : RenderHost.Alike g) (c : Controller π ε η) :
    (c.mapParts f g).presentAgain = c.presentAgain.mapParts f g := by
  unfold presentAgain
  cases hosted : c.host with
  | none => simp only [mapParts, hosted, Option.map_none]
  | some host =>
      cases shown : c.state.view with
      | none => simp only [mapParts, hosted, shown, Option.map_some]
      | some view =>
          simp only [mapParts, hosted, shown, Option.map_some, alike host view c.state.theme]
          cases RenderHost.present host view c.state.theme with
          | mk answer after => cases answer <;> rfl

theorem click_mapParts (f : π → ρ) (alike : RenderHost.Alike g) (c : Controller π ε η)
    (widget : Nat) :
    (c.mapParts f g).click widget = ((c.click widget).1, (c.click widget).2.mapParts f g) := by
  unfold click
  rw [show (c.mapParts f g).state = c.state from rfl]
  cases c.state.view.bind (·.click? widget) with
  | none => rfl
  | some view =>
      simp only
      rw [← presentAgain_mapParts f alike]
      rfl

theorem setTheme_mapParts (f : π → ρ) (alike : RenderHost.Alike g) (c : Controller π ε η)
    (name : String) :
    (c.mapParts f g).setTheme name =
      ((c.setTheme name).1, (c.setTheme name).2.mapParts f g) := by
  unfold setTheme
  cases Theme.byName? name with
  | none => rfl
  | some theme =>
      simp only
      cases shown : c.state.view with
      | none =>
          rw [show ((c.mapParts f g).updateState (·.setTheme theme)).state.view = none from shown,
            show (c.updateState (·.setTheme theme)).state.view = none from shown]
          rfl
      | some view =>
          -- The view is rendered anew before it is shown, so what is presented is not `c` itself.
          rw [show ((c.mapParts f g).updateState (·.setTheme theme)).state.view = some view
              from shown,
            show (c.updateState (·.setTheme theme)).state.view = some view from shown]
          exact congrArg
            (fun d : Controller ρ ε θ => (Except.ok (), d.updateState (·.setStatus _)))
            (presentAgain_mapParts f alike ((c.updateState (·.setTheme theme)).updateState
              fun s => { s with view := some (c.renderer view.tree) }))

end

variable {π ρ ε η θ : Type} [SourceParser π] [SourceParser ρ] [EditorSurface ε] [RenderHost η]
  [RenderHost θ] {f : π → ρ} {g : η → θ}

theorem runCycle_mapParts (parsers : SourceParser.Alike f) (hosts : RenderHost.Alike g)
    (c : Controller π ε η) :
    (c.mapParts f g).runCycle = (c.runCycle.1, c.runCycle.2.mapParts f g) := by
  unfold runCycle
  rw [show (c.mapParts f g).editor = c.editor from rfl,
    show (c.mapParts f g).lastSource = c.lastSource from rfl,
    show (c.mapParts f g).parser = f c.parser from rfl]
  simp only [parsers c.parser]
  split
  · rfl
  · cases SourceParser.parse c.parser (EditorSurface.text c.editor) with
    | mk answer parser =>
        cases answer with
        | error failure => rfl
        | ok raw =>
            simp only
            split
            · rfl
            · -- The host is asked after the parser has moved on and the text is marked.
              exact present_mapParts f hosts
                { c with parser, lastSource := some (EditorSurface.text c.editor) } _ _

theorem tick_mapParts (parsers : SourceParser.Alike f) (hosts : RenderHost.Alike g)
    (c : Controller π ε η) (now : Nat) :
    (c.mapParts f g).tick now = ((c.tick now).1, (c.tick now).2.mapParts f g) := by
  unfold tick
  rw [tickTimers_mapParts]
  cases c.tickTimers now with
  | mk fired ticked =>
      cases fired with
      | false => rfl
      | true =>
          simp only [runCycle_mapParts parsers hosts]
          cases ticked.runCycle with
          | mk result after => cases result <;> rfl

/-- A command does the same to controllers whose parsers and hosts answer alike. -/
theorem exec_mapParts (parsers : SourceParser.Alike f) (hosts : RenderHost.Alike g)
    (c : Controller π ε η) (command : Command ε η) :
    (c.mapParts f g).exec (command.mapHost g) = (c.exec command).mapParts f g := by
  cases command with
  | edit change => rfl
  | attachHost host => rfl
  | tick now => exact congrArg Prod.snd (tick_mapParts parsers hosts c now)
  | cycle => exact congrArg Prod.snd (runCycle_mapParts parsers hosts c)
  | hover left entered =>
      rw [Command.mapHost, exec, exec, hover, hover,
        show (c.mapParts f g).state = c.state from rfl]
      split <;> rfl
  | click widget => exact congrArg Prod.snd (click_mapParts f hosts c widget)
  | setTheme name => exact congrArg Prod.snd (setTheme_mapParts f hosts c name)
  | copy view =>
      rw [Command.mapHost, exec, exec, copySubtree, copySubtree,
        show (c.mapParts f g).state = c.state from rfl]
      split <;> rfl

theorem run_mapParts (parsers : SourceParser.Alike f) (hosts : RenderHost.Alike g)
    (c : Controller π ε η) (commands : List (Command ε η)) :
    (c.mapParts f g).run (commands.map (Command.mapHost g)) = (c.run commands).mapParts f g := by
  induction commands generalizing c with
  | nil => rfl
  | cons command rest ih =>
      rw [List.map_cons, run_cons, run_cons, exec_mapParts parsers hosts]
      exact ih (c.exec command)

end Controller

end TreeLens
