import TreeLens.Parsing.Parser
import TreeLens.Session.Config
import TreeLens.Session.Debouncer
import TreeLens.Session.Highlight
import TreeLens.Session.State

/-!
# Controllers

A controller polls an editor and, after a quiet time, parses, normalizes, renders and
presents its text. It passes pointer moves on to the editor as highlights, toggles views
on clicks, and changes themes. A cycle that fails leaves what is shown as it was.
-/

namespace TreeLens

/-- Where views are shown; a call may fail and may change the host's state. -/
class RenderHost (η : Type) where
  present : η → TreeView → Theme → Except Failure Unit × η

/-- The state of a controller over a parser, an editor and a host. -/
structure Controller (π ε η : Type) where
  config : Config
  parser : π
  editor : ε
  host : Option η
  renderer : Node → TreeView
  debouncer : Debouncer
  lastPoll : Option Nat
  lastSource : Option String
  state : SessionState

namespace Controller

variable {π ε η : Type} [SourceParser π] [EditorSurface ε] [RenderHost η]

/-- A controller without a host that renders all nodes open; the configured theme has to
exist. -/
def new (config : Config) (parser : π) (editor : ε) : Except Failure (Controller π ε η) :=
  match Theme.byName? config.theme with
  | none => .error (.state (.unknownTheme config.theme))
  | some theme =>
    .ok {
      config, parser, editor
      host := none
      renderer := TreeView.render
      debouncer := .idle config.debounce
      lastPoll := none
      lastSource := none
      state := (SessionState.ofTheme theme).setStatus statusReady }

/-- Shows views in another place. -/
def attachHost (c : Controller π ε η) (host : η) : Controller π ε η :=
  { c with host := some host }

def withRenderer (c : Controller π ε η) (renderer : Node → TreeView) : Controller π ε η :=
  { c with renderer }

def updateState (c : Controller π ε η) (f : SessionState → SessionState) : Controller π ε η :=
  { c with state := f c.state }

/-- Presents a new view and, if the host takes it, makes it the one that is shown. -/
def present (c : Controller π ε η) (source : String) (view : TreeView) :
    Except Failure Bool × Controller π ε η :=
  match c.host with
  | none => (.error .missingHost, c)
  | some host =>
    match RenderHost.present host view c.state.theme with
    | (.error failure, host) => (.error failure, { c with host := some host })
    | (.ok (), host) =>
      (.ok true, { c with
        host := some host
        state := (c.state.commit source (.build c.config.textUnit source) view).setStatus
          statusRendered })

/-- Parses, normalizes, renders and presents the editor's text; an empty text and the
text of the last attempt are passed over. -/
def runCycle (c : Controller π ε η) : Except Failure Bool × Controller π ε η :=
  let source := EditorSurface.text c.editor
  if source.isEmpty || c.lastSource == some source then (.ok false, c)
  else
    -- From here on the text counts as attempted, whatever becomes of it.
    match SourceParser.parse c.parser source with
    | (.error failure, parser) =>
      (.error (.parse failure), { c with parser, lastSource := some source })
    | (.ok raw, parser) =>
      let c := { c with parser, lastSource := some source }
      match normalize (some source.utf8ByteSize) raw with
      | .error error => (.error (.normalize error), c)
      | .ok tree => c.present source (c.renderer tree)

def isPollDue (c : Controller π ε η) (now : Nat) : Bool :=
  c.lastPoll.all fun last => c.config.pollInterval ≤ now - last

/-- The timers after a tick: a pending cycle that is due fires, and at a poll that did
not fire the waiting starts. -/
def tickTimers (c : Controller π ε η) (now : Nat) : Bool × Controller π ε η :=
  -- Firing comes first, so a poll at the same time cannot put it off.
  let (fired, debouncer) := c.debouncer.fire now
  if c.isPollDue now then
    (fired, { c with
      lastPoll := some now
      debouncer := if fired then debouncer else debouncer.trigger now })
  else (fired, { c with debouncer })

/-- Lets the time be `now`, and says whether something was rendered. A failure is
remembered in the state. -/
def tick (c : Controller π ε η) (now : Nat) : Bool × Controller π ε η :=
  match c.tickTimers now with
  | (false, c) => (false, c)
  | (true, c) =>
    match c.runCycle with
    | (.ok rendered, c) => (rendered, c)
    | (.error failure, c) => (false, c.updateState (·.recordFailure failure))

/-- Moves the pointer from one widget to another. -/
def hover (c : Controller π ε η) (left entered : Option Nat) : Controller π ε η :=
  match c.state.view, c.state.snapshot with
  | some view, some snapshot =>
    { c with
      editor := (view.pointerMoved left entered).foldl
        (applyHover c.config.spanConvention snapshot.offsets c.state.highlight) c.editor }
  | _, _ => c

/-- Presents the view that is shown once more; a failure is remembered. -/
def presentAgain (c : Controller π ε η) : Controller π ε η :=
  match c.host, c.state.view with
  | some host, some view =>
    match RenderHost.present host view c.state.theme with
    | (.ok (), host) => { c with host := some host }
    | (.error failure, host) => { c with host := some host, state := c.state.recordFailure failure }
  | _, _ => c

/-- Clicks a widget, and says whether that toggled a view. -/
def click (c : Controller π ε η) (widget : Nat) : Bool × Controller π ε η :=
  match c.state.view.bind (·.click? widget) with
  | some view => (true, (c.updateState fun s => { s with view := some view }).presentAgain)
  | none => (false, c)

/-- Changes the theme. The tree is rendered anew, so all its nodes are as at first. -/
def setTheme (c : Controller π ε η) (name : String) : Except Failure Unit × Controller π ε η :=
  match Theme.byName? name with
  | none => (.error (.state (.unknownTheme name)), c)
  | some theme =>
    let c := c.updateState (·.setTheme theme)
    let c :=
      match c.state.view with
      | some view =>
        (c.updateState fun s => { s with view := some (c.renderer view.tree) }).presentAgain
      | none => c
    (.ok (), c.updateState (·.setStatus statusThemeChanged))

/-- The data of the node of a view, written on several lines. -/
def copySubtree (c : Controller π ε η) (view : Nat) : Except Failure String × Controller π ε η :=
  match c.state.view.bind (·.node? view) with
  | none => (.error (.state (.noSuchView view)), c)
  | some node => (.ok node.toJson.pretty, c.updateState (·.setStatus statusCopied))

end Controller

end TreeLens
